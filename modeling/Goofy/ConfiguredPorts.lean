import Goofy.SettingsFile

/-!
# Ports in a settings file

libconfig stores a port as an `int`; the program asks for an `unsigned` and keeps 16
bits of it.  Settings that load have the ports of their file exactly when the integers
in the file are port numbers (`ports_take_effect_iff`).
-/

namespace Goofy

open Effect

/-- The file has this integer as the port of a group. -/
def WrittenPort (cfg : LibConfig) (file : cfg.File) (group : Bytes) (i : Int32) : Prop :=
  ∃ root settings port, cfg.readFile file = .ok root ∧
    cfg.lookup root group = .ok settings ∧ cfg.lookup settings (lit "port") = .ok port ∧
    cfg.Holds port (.int i)

/-- An integer that is a port number. -/
def IsPort (i : Int32) : Prop :=
  0 ≤ i.toInt ∧ i.toInt ≤ 65535

/-- A negative integer is read as zero. -/
theorem toInt_unsignedOf (i : Int32) :
    ((unsignedOf i).toNat : Int) = max i.toInt 0 := by
  unfold unsignedOf
  have hint : i.toInt = i.toBitVec.toInt := rfl
  have hnat : i.toUInt32.toNat = i.toBitVec.toNat := rfl
  have hlt := i.toBitVec.isLt
  have hcond := i.toBitVec.toInt_eq_toNat_cond
  split_ifs with hneg
  · rw [Int32.lt_iff_toInt_lt, Int32.toInt_zero] at hneg
    simp
    omega
  · rw [Int32.lt_iff_toInt_lt, Int32.toInt_zero] at hneg
    split_ifs at hcond <;> omega

/-- The 16 bits that are kept of an integer are the integer exactly for a port number. -/
theorem toInt_toUInt16_unsignedOf_iff (i : Int32) :
    ((unsignedOf i).toUInt16.toNat : Int) = i.toInt ↔ IsPort i := by
  have hunsigned := toInt_unsignedOf i
  have hmod : (unsignedOf i).toUInt16.toNat = (unsignedOf i).toNat % 2 ^ 16 :=
    UInt32.toNat_toUInt16 _
  unfold IsPort
  rw [hmod]
  omega

section Load

variable {c : Inet} {cfg : LibConfig} {file : cfg.File}

/-- A lookup that succeeds has one result. -/
theorem eq_of_ok {ε α : Type} {x : Except ε α} {a b : α}
    (ha : x = .ok a) (hb : x = .ok b) : a = b :=
  Except.ok.inj (ha.symm.trans hb)

/-- The port that the network settings get. -/
theorem Network.port_of_loadFrom
    {group port : cfg.Setting} {i : Int32} {s : Network}
    (hport : cfg.lookup group (lit "port") = .ok port) (hi : cfg.Holds port (.int i))
    (h : Network.loadFrom c cfg group = .ok s) :
    s.bindAddress.port = (unsignedOf i).toUInt16 := by
  simp only [Network.loadFrom, except_bind_eq_ok_iff] at h
  obtain ⟨_, -, _, -, found, hfound, value, hvalue, addr, haddr, _, -, _, -, _, -, _, -, h⟩ := h
  obtain rfl := eq_of_ok hport hfound
  obtain rfl := eq_of_ok hi hvalue
  obtain rfl := Except.ok.inj h
  obtain ⟨f, bytes, rfl⟩ := Inet.mkaddr_eq_ok haddr
  exact SockaddrStorage.port_of f bytes _

/-- The port that the server's own settings get. -/
theorem Self.port_of_loadFrom
    {group port : cfg.Setting} {i : Int32} {s : Self}
    (hport : cfg.lookup group (lit "port") = .ok port) (hi : cfg.Holds port (.int i))
    (h : Self.loadFrom cfg group = .ok s) :
    s.port = (unsignedOf i).toUInt16 := by
  simp only [Self.loadFrom, except_bind_eq_ok_iff] at h
  obtain ⟨_, -, _, -, found, hfound, value, hvalue, h⟩ := h
  obtain rfl := eq_of_ok hport hfound
  obtain rfl := eq_of_ok hi hvalue
  obtain rfl := Except.ok.inj h
  rfl

end Load

/-- Settings that loaded from a file have the ports written there exactly when these are
port numbers. -/
theorem ports_take_effect_iff
    (c : Inet) (cfg : LibConfig) (file : cfg.File) (p q : Int32) (s : ServerSettings)
    (hp : WrittenPort cfg file (lit "network") p)
    (hq : WrittenPort cfg file (lit "server") q)
    (hload : ServerSettings.load c cfg file = .ok s) :
    ((s.network.bindAddress.port.toNat : Int) = p.toInt ↔ IsPort p) ∧
      ((s.self.port.toNat : Int) = q.toInt ↔ IsPort q) := by
  simp only [ServerSettings.load, except_bind_eq_ok_iff] at hload
  obtain ⟨root, hread, net, hnet, network, hnetwork, own, hown, self, hself, _, -, _, -, h⟩ := hload
  obtain ⟨_, _, port, hroot, hgroup, hport, hholds⟩ := hp
  obtain ⟨_, _, port', hroot', hgroup', hport', hholds'⟩ := hq
  obtain rfl := eq_of_ok hread hroot
  obtain rfl := eq_of_ok hread hroot'
  obtain rfl := eq_of_ok hnet hgroup
  obtain rfl := eq_of_ok hown hgroup'
  obtain rfl := Except.ok.inj h
  rw [Network.port_of_loadFrom hport hholds hnetwork, Self.port_of_loadFrom hport' hholds' hself]
  exact ⟨toInt_toUInt16_unsignedOf_iff p, toInt_toUInt16_unsignedOf_iff q⟩

/-- A file with all the settings and the given ports. -/
def portsFile (p q : Int32) : SettingTree :=
  [(lit "network", [
      (lit "address", .string (lit "::")),
      (lit "port", .int p),
      (lit "listen_backlog", .int 10),
      (lit "sock_reusable", .boolean true)]),
    (lit "server", [(lit "hostname", .string (lit "localhost")), (lit "port", .int q)]),
    (lit "content", [(lit "root_gophermap", .string (lit "map"))])]

/-- What is made of such a file. -/
def portsSettings (p q : UInt16) : ServerSettings where
  network := ⟨.of .inet6 (Vector.replicate 16 0) p, 10, true⟩
  self := ⟨lit "localhost", q⟩
  content := ⟨lit "map"⟩

/-- The ports 7070 and 70. -/
theorem ports_7070_70_take_effect :
    (((portsSettings 7070 70).network.bindAddress.port.toNat : Int) = (7070 : Int32).toInt ↔
        IsPort 7070) ∧
      (((portsSettings 7070 70).self.port.toNat : Int) = (70 : Int32).toInt ↔ IsPort 70) :=
  ports_take_effect_iff plainInet plainConfig (portsFile 7070 70) 7070 70 (portsSettings 7070 70)
    ⟨_, _, _, rfl, rfl, rfl, rfl⟩ ⟨_, _, _, rfl, rfl, rfl, rfl⟩ rfl

/-- The ports 70000 and -1 load as 4464 and 0. -/
theorem ports_70000_select_another :
    WrittenPort plainConfig (portsFile 70000 (-1)) (lit "network") 70000 ∧
      WrittenPort plainConfig (portsFile 70000 (-1)) (lit "server") (-1) ∧
      ServerSettings.load plainInet plainConfig (portsFile 70000 (-1)) =
        .ok (portsSettings 4464 0) ∧
      (portsSettings 4464 0).network.bindAddress.port = 4464 ∧
      (portsSettings 4464 0).self.port = 0 :=
  ⟨⟨_, _, _, rfl, rfl, rfl, rfl⟩, ⟨_, _, _, rfl, rfl, rfl, rfl⟩, rfl, rfl, rfl⟩

end Goofy
