import Goofy.Lib.Effect
import Goofy.Lib.Decimal
import Goofy.Lib.Delimited

/-!
# Bytes, C strings and errors

Strings of the program are `std::string` values: sequences of arbitrary bytes
with an explicit length.  The C library reads them up to the first NUL instead;
`cStr` is that view.

The exception hierarchy of `error.h` is flattened into one inductive type.  Next
to exceptions a computation can fail for good: a failed assertion, undefined
behaviour, or a loop that never ends.
-/

namespace Goofy

open Delimited

abbrev Byte : Type := UInt8

abbrev Bytes : Type := List Byte

/-- The bytes of an ASCII literal. -/
def lit (s : String) : Bytes :=
  s.toList.map (fun c => UInt8.ofNat c.toNat)

abbrev NUL : Byte := 0
abbrev TAB : Byte := 9
abbrev LF : Byte := 10
abbrev CR : Byte := 13
abbrev DOT : Byte := 46
abbrev SLASH : Byte := 47
abbrev COLON : Byte := 58

/-- A string as the C library reads it: the bytes before the first NUL. -/
def cStr (s : Bytes) : Bytes :=
  upTo NUL s

@[simp]
theorem cStr_cStr (s : Bytes) : cStr (cStr s) = cStr s :=
  upTo_of_not_mem (not_mem_upTo s)

/-- `memchr` over a whole buffer: index of the first occurrence. -/
def memchr (s : Bytes) (c : Byte) : Option Nat :=
  s.findIdx? (fun b => b == c)

/-- `std::string::find`: index of the first occurrence of a substring. -/
def find (needle : Bytes) : Bytes → Option Nat
  | [] => if needle = [] then some 0 else none
  | b :: s =>
      if needle.isPrefixOf (b :: s) then some 0
      else (find needle s).map (· + 1)

/-- `std::to_string`. -/
abbrev toDecimal (n : Nat) : Bytes :=
  Decimal.encode n

/-- A search succeeds at the beginning exactly for a prefix. -/
theorem find_eq_zero_iff (needle s : Bytes) :
    find needle s = some 0 ↔ needle <+: s := by
  cases s with
  | nil => simp [find]
  | cons b s =>
      rw [find, ← List.isPrefixOf_iff_prefix]
      split_ifs with h
      · simp [h]
      · simp [h]

/-- `memchr` finds the first occurrence. -/
theorem memchr_append_cons (sep : Byte) {a : Bytes} (ha : sep ∉ a) (b : Bytes) :
    memchr (a ++ sep :: b) sep = some a.length := by
  induction a with
  | nil => simp [memchr, List.findIdx?_cons]
  | cons x a ih =>
      have hx : x ≠ sep := fun h => ha (by simp [h])
      have ih := ih (fun h => ha (by simp [h]))
      unfold memchr at ih ⊢
      rw [List.cons_append, List.findIdx?_cons, ih]
      simp [hx]

/-- Error numbers of the C library. -/
abbrev Errno : Type := Nat

abbrev ENOENT : Errno := 2
abbrev ENOTDIR : Errno := 20
abbrev ENAMETOOLONG : Errno := 36

/-- The exceptions that the program throws. -/
inductive Exn where
  | lookupFailure (sel : Bytes)
  | nodeFailure (sel reason : Bytes)
  | badRequest (sel reason : Bytes)
  | ioError (operation : Bytes) (errnoWas : Errno)
  | configError (msg : Bytes)
  | error (msg : Bytes)
  | nodeError (msg : Bytes)
  | duplicatedError (selector : Bytes)
  | stdInvalidArgument
  | stdOutOfRange
  | std (what : Bytes)
deriving DecidableEq

namespace Exn

/-- The `UserError` family of `error.h`. -/
def isUserError : Exn → Bool
  | lookupFailure _ => true
  | nodeFailure _ _ => true
  | badRequest _ _ => true
  | _ => false

/-- The text given to the constructor of the base class. -/
def message : Exn → Bytes
  | lookupFailure sel => sel
  | nodeFailure sel reason => sel ++ lit ": " ++ reason
  | badRequest sel reason => sel ++ lit ": " ++ reason
  | ioError operation _ => operation
  | configError msg => msg
  | error msg => msg
  | nodeError msg => msg
  | duplicatedError selector => lit "Duplicated selector: " ++ selector
  | stdInvalidArgument => lit "stoll"
  | stdOutOfRange => lit "stoll"
  | std text => text

/-- `what()` of an error that carries no error number: a C string. -/
def what (e : Exn) : Bytes :=
  cStr e.message

end Exn

/-- The ways in which a computation fails. -/
inductive Fail where
  | exn (e : Exn)
  | assertion
  | undefined
  | hang
deriving DecidableEq

/-- The program's computations over an outside world `ω`. -/
abbrev Prog (ω : Type) : Type → Type :=
  Effect.Prog Fail ω

end Goofy
