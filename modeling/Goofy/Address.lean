import Goofy.Base
import Goofy.Lib.Memory

/-!
# Socket addresses

The addresses of `settings.cc`: `sockaddr_storage` with its two layouts, `parse4`,
`parse6` and `mkaddr`.  The functions of the C library for addresses are parameters,
with their documented behaviour as hypotheses.
-/

namespace Goofy

open Memory

/-- The address families of the settings. -/
inductive Family where
  | inet
  | inet6
deriving DecidableEq

namespace Family

/-- `AF_INET` and `AF_INET6`. -/
def code : Family → UInt16
  | inet => 2
  | inet6 => 10

def ofCode (af : UInt16) : Option Family :=
  if af = 2 then some inet
  else if af = 10 then some inet6
  else none

@[simp]
theorem ofCode_code (f : Family) : ofCode f.code = some f := by
  cases f <;> rfl

def name : Family → Bytes
  | inet => lit "AF_INET"
  | inet6 => lit "AF_INET6"

/-- Number of bytes of `sin_addr` and `sin6_addr`. -/
def addrLen : Family → Nat
  | inet => 4
  | inet6 => 16

/-- Where `sin_addr` and `sin6_addr` begin, counted from the end of the family. -/
def addrOffset : Family → Nat
  | inet => 2
  | inet6 => 6

/-- `INET_ADDRSTRLEN` and `INET6_ADDRSTRLEN`. -/
def addrStrLen : Family → Nat
  | inet => 16
  | inet6 => 46

theorem addr_fits (f : Family) : f.addrOffset + f.addrLen ≤ 126 := by
  cases f <;> decide

end Family

/-- `sockaddr_storage`: the family, and the bytes that `sockaddr_in` and
`sockaddr_in6` lay out in their own ways. -/
structure SockaddrStorage where
  family : UInt16
  data : Vector Byte 126
deriving DecidableEq

/-- The two bytes of a port in network order. -/
def htons (port : UInt16) : Vector Byte 2 :=
  #v[UInt8.ofNat (port.toNat / 256), UInt8.ofNat (port.toNat % 256)]

def ntohs (bytes : Vector Byte 2) : UInt16 :=
  UInt16.ofNat (bytes[0].toNat * 256 + bytes[1].toNat)

@[simp]
theorem ntohs_htons (port : UInt16) : ntohs (htons port) = port := by
  have hlt : port.toNat < 2 ^ 16 := port.toNat_lt
  have hhigh : port.toNat / 256 % 256 = port.toNat / 256 := by omega
  have hport : port.toNat / 256 * 256 + port.toNat % 256 = port.toNat := by omega
  simp [ntohs, htons, hhigh, hport]

namespace SockaddrStorage

/-- `memset` to zero. -/
def zeroed : SockaddrStorage :=
  ⟨0, Vector.replicate 126 0⟩

/-- `sin_port` and `sin6_port` are at the same place. -/
def port (s : SockaddrStorage) : UInt16 :=
  ntohs (fetch s.data 0 2 (by decide))

/-- `sin_addr` or `sin6_addr`. -/
def addr (s : SockaddrStorage) (f : Family) : Vector Byte f.addrLen :=
  fetch s.data f.addrOffset f.addrLen f.addr_fits

/-- A zeroed storage after the address, the family and the port are written. -/
def of (f : Family) (addr : Vector Byte f.addrLen) (port : UInt16) : SockaddrStorage :=
  ⟨f.code, store (store zeroed.data f.addrOffset addr) 0 (htons port)⟩

variable (f : Family) (bytes : Vector Byte f.addrLen) (p : UInt16)

@[simp]
theorem port_of : (of f bytes p).port = p := by
  simp [of, port]

@[simp]
theorem addr_of : (of f bytes p).addr f = bytes := by
  have hport : 0 + 2 ≤ f.addrOffset := by
    cases f <;> decide
  simp only [addr, of]
  rw [fetch_store_of_disjoint _ _ _ (Or.inr hport), fetch_store_self]

end SockaddrStorage

/-- What the settings use of the C library: `inet_pton`, which says whether the text
is an address of the family, `inet_ntop` with the length of its buffer, and
`strerror`. -/
structure Inet where
  pton (f : Family) : Bytes → Except Errno (Option (Vector Byte f.addrLen))
  ntop (f : Family) : Vector Byte f.addrLen → Nat → Except Errno Bytes
  strerror : Errno → Bytes

/-- The documented behaviour of `inet_pton` and `inet_ntop`. -/
structure Inet.Lawful (c : Inet) : Prop where
  ntop_ok : ∀ f addr, ∃ text, c.ntop f addr f.addrStrLen = .ok text
  cStr_ntop : ∀ {f addr len text}, c.ntop f addr len = .ok text → cStr text = text
  pton_ntop : ∀ {f addr len text}, c.ntop f addr len = .ok text →
    c.pton f text = .ok (some addr)
  rejects : ∀ {addr len text}, c.ntop .inet6 addr len = .ok text →
    c.pton .inet text = .ok none

namespace Inet

/-- The text of an `Error` that is built with an error number. -/
def errorText (c : Inet) (operation : Bytes) (e : Errno) : Bytes :=
  if e = 0 then operation else operation ++ lit ": " ++ c.strerror e

/-- `parse4` and `parse6` differ in the family only. -/
def parse (f : Family) (c : Inet) (addr : Bytes) (port : UInt16) :
    Except Exn (Option SockaddrStorage) :=
  match c.pton f addr with
  | .error e => .error (.error (c.errorText (lit "inet_pton(" ++ f.name ++ lit ", ...)") e))
  | .ok none => .ok none
  | .ok (some bytes) => .ok (some (.of f bytes port))

def parse4 : Inet → Bytes → UInt16 → Except Exn (Option SockaddrStorage) :=
  parse .inet

def parse6 : Inet → Bytes → UInt16 → Except Exn (Option SockaddrStorage) :=
  parse .inet6

def mkaddr (c : Inet) (address : Bytes) (port : UInt16) : Except Exn SockaddrStorage :=
  match c.parse4 address port with
  | .error e => .error e
  | .ok (some storage) => .ok storage
  | .ok none =>
      match c.parse6 address port with
      | .error e => .error e
      | .ok (some storage) => .ok storage
      | .ok none => .error (.configError (lit "Cannot parse address: " ++ address))

theorem parse_eq_ok_some
    {f : Family} {c : Inet} {address : Bytes} {port : UInt16} {s : SockaddrStorage}
    (h : parse f c address port = .ok (some s)) :
    ∃ bytes, s = .of f bytes port := by
  unfold parse at h
  rcases hpton : c.pton f address with e | _ | bytes
  · simp [hpton] at h
  · simp [hpton] at h
  · simp only [hpton, Except.ok.injEq, Option.some.injEq] at h
    exact ⟨bytes, h.symm⟩

/-- Every address that is made is the one of a family. -/
theorem mkaddr_eq_ok
    {c : Inet} {address : Bytes} {port : UInt16} {s : SockaddrStorage}
    (h : c.mkaddr address port = .ok s) :
    ∃ f bytes, s = .of f bytes port := by
  unfold mkaddr at h
  rcases hparse4 : c.parse4 address port with e | _ | storage
  · simp [hparse4] at h
  · rcases hparse6 : c.parse6 address port with e | _ | storage
    · simp [hparse4, hparse6] at h
    · simp [hparse4, hparse6] at h
    · simp only [hparse4, hparse6, Except.ok.injEq] at h
      exact ⟨.inet6, parse_eq_ok_some (h ▸ hparse6)⟩
  · simp only [hparse4, Except.ok.injEq] at h
    exact ⟨.inet, parse_eq_ok_some (h ▸ hparse4)⟩

/-- The text of an address makes the address again, whatever its family. -/
theorem Lawful.mkaddr_ntop
    {c : Inet} (hc : c.Lawful) {f : Family} {bytes : Vector Byte f.addrLen}
    {len : Nat} {text : Bytes} (htext : c.ntop f bytes len = .ok text) (port : UInt16) :
    c.mkaddr text port = .ok (.of f bytes port) := by
  have hpton := hc.pton_ntop htext
  cases f with
  | inet =>
      simp [mkaddr, parse4, parse, hpton]
  | inet6 =>
      have hrejects := hc.rejects htext
      simp [mkaddr, parse4, parse6, parse, hrejects, hpton]

end Inet

end Goofy
