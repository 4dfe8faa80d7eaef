import Mathlib.Algebra.Group.Int.Defs
import Mathlib.Algebra.Group.Nat.Defs
import Goofy.Base

/-!
# String references, tokens and numerals

`util/str.h` and `util/str.cc`.  A `StrRef` is a pointer with a length; two
notions of emptiness differ, a null pointer and a zero length, and both are
kept here.  `tokenize` is modelled with its cursor arithmetic: a counting pass
with a 32-bit index, then one `memchr` for each separator.
-/

namespace Goofy

open Delimited

namespace Util

/-- A reference to bytes owned by someone else; `none` is the null pointer. -/
structure StrRef where
  start : Option Bytes
deriving DecidableEq

namespace StrRef

/-- A reference to given bytes. -/
def of (s : Bytes) : StrRef :=
  ⟨some s⟩

/-- Conversion to `std::string`. -/
def str (r : StrRef) : Bytes :=
  r.start.getD []

/-- The `len` member. -/
def len (r : StrRef) : Nat :=
  r.str.length

/-- `StrRef::empty`: a null pointer, whatever the length. -/
def empty (r : StrRef) : Bool :=
  r.start.isNone

/-- `StrRef::operator++`. -/
def incr (r : StrRef) : StrRef :=
  ⟨r.start.map List.tail⟩

@[simp] theorem str_of (s : Bytes) : (of s).str = s := by
  rfl

@[simp] theorem len_of (s : Bytes) : (of s).len = s.length := by
  rfl

end StrRef

/-- Subtraction of `size_t` values. -/
def sizeSub (a b : Nat) : Nat :=
  (a + 2 ^ 64 - b) % 2 ^ 64

theorem sizeSub_of_le {a b : Nat} (hle : b ≤ a) (ha : a < 2 ^ 64) :
    sizeSub a b = a - b := by
  rw [sizeSub]
  omega

/-- The counting loop of `tokenize`: its index is a 32-bit `unsigned`. -/
def countSep (s : Bytes) (sep : Byte) : Nat → UInt32 → Nat → Option Nat
  | 0, _, _ => none
  | fuel + 1, i, count =>
      if i.toNat < s.length then
        countSep s sep fuel (i + 1)
          (if s[i.toNat]? = some sep then count + 1 else count)
      else some count

/-- `memchr` on the part of a string from a cursor on; it may not leave the string. -/
def memchrFrom (s : Bytes) (cursor remains : Nat) (c : Byte) :
    Except Fail (Option Nat) :=
  if cursor + remains ≤ s.length then
    .ok ((memchr ((s.drop cursor).take remains) c).map (cursor + ·))
  else .error .undefined

/-- The cutting loop of `tokenize`. -/
def cutTokens (s : Bytes) (sep : Byte) :
    Nat → Nat → Nat → Except Fail (List StrRef)
  | 0, cursor, remains => .ok [.of ((s.drop cursor).take remains)]
  | count + 1, cursor, remains =>
      match memchrFrom s cursor remains sep with
      | .error f => .error f
      -- The difference with a null pointer has no meaning.
      | .ok none => .error .undefined
      | .ok (some stop) =>
          let len := stop - cursor
          match cutTokens s sep count (stop + 1) (sizeSub remains (len + 1)) with
          | .error f => .error f
          | .ok out => .ok (.of ((s.drop cursor).take len) :: out)

/-- `tokenize`. -/
def tokenize (r : StrRef) (sep : Byte) : Except Fail (List StrRef) :=
  match countSep r.str sep (r.len + 1) 0 0 with
  | none => .error .hang
  | some 0 => .ok [r]
  | some (count + 1) => cutTokens r.str sep (count + 1) 0 r.len

section Tokenize

variable {s : Bytes} (sep : Byte)

omit sep in
/-- The index does not wrap around below the length. -/
theorem toNat_add_one {i : UInt32} (hlen : s.length < 2 ^ 32) (hlt : i.toNat < s.length) :
    (i + 1).toNat = i.toNat + 1 := by
  have : (1 : UInt32).toNat = 1 := rfl
  rw [UInt32.toNat_add, this, Nat.mod_eq_of_lt]
  omega

theorem countSep_eq (hlen : s.length < 2 ^ 32) :
    ∀ (fuel : Nat) (i : UInt32) (count : Nat),
      i.toNat ≤ s.length →
      s.length < i.toNat + fuel →
      countSep s sep fuel i count =
        some (count + (s.drop i.toNat).count sep)
  | 0, i, count, hi, hfuel => by omega
  | fuel + 1, i, count, hi, hfuel => by
      rw [countSep]
      by_cases hlt : i.toNat < s.length
      · rw [if_pos hlt]
        have hnext := toNat_add_one hlen hlt
        rw [countSep_eq hlen fuel (i + 1) _ (by omega) (by omega), hnext,
          List.drop_eq_getElem_cons hlt, List.count_cons,
          List.getElem?_eq_getElem hlt]
        by_cases hsep : s[i.toNat] = sep
        · simp [hsep]
          omega
        · simp [hsep]
      · have hdrop : s.drop i.toNat = [] := by
          rw [List.drop_eq_nil_iff]
          omega
        rw [if_neg hlt, hdrop]
        simp

/-- What a turn of the cutting loop finds at `stop` when `count` separators are behind it:
the first part of what is left ends there. -/
structure CutAt (s : Bytes) (sep : Byte) (count cursor stop : Nat) : Prop where
  found : memchrFrom s cursor (s.length - cursor) sep = .ok (some stop)
  ge : cursor ≤ stop
  lt : stop < s.length
  isSep : s[stop]? = some sep
  count : (s.drop (stop + 1)).count sep = count
  splitOn : (s.drop cursor).splitOn sep =
    (s.drop cursor).take (stop - cursor) :: (s.drop (stop + 1)).splitOn sep

/-- While separators are left, `memchr` finds one within what remains. -/
theorem exists_cutAt {count cursor : Nat}
    (hcount : (s.drop cursor).count sep = count + 1) :
    ∃ stop, CutAt s sep count cursor stop := by
  have hmem : sep ∈ s.drop cursor := by
    rw [← List.count_pos_iff]
    omega
  obtain ⟨a, b, hsplit, ha⟩ := List.eq_append_cons_of_mem hmem
  have hlen : s.length - cursor = a.length + (b.length + 1) := by
    rw [← List.length_drop, hsplit]
    simp
  have hrest : s.drop (cursor + a.length + 1) = b := by
    have := congrArg (List.drop (a.length + 1)) hsplit
    simpa [List.drop_drop, Nat.add_assoc] using this
  refine ⟨cursor + a.length, ?_, by omega, by omega, ?_, ?_, ?_⟩
  · rw [memchrFrom, if_pos (by omega), List.take_of_length_le (by simp),
      hsplit, memchr_append_cons sep ha]
    rfl
  · rw [← List.getElem?_drop, hsplit]
    simp
  · rw [hrest]
    rw [hsplit, List.count_append, List.count_eq_zero.mpr ha,
      List.count_cons_self] at hcount
    omega
  · rw [hrest, hsplit, List.splitOn_append_cons_self_of_not_mem ha]
    simp

omit sep in
/-- What remains behind the separator: the subtraction does not wrap around. -/
theorem CutAt.remains {sep : Byte} {count cursor stop : Nat} (hlen : s.length < 2 ^ 32)
    (hcut : CutAt s sep count cursor stop) :
    sizeSub (s.length - cursor) (stop - cursor + 1) = s.length - (stop + 1) := by
  have hge := hcut.ge
  have hlt := hcut.lt
  rw [sizeSub_of_le (by omega) (by omega)]
  omega

/-- The cutting loop splits what is left when `count` separators are left. -/
theorem cutTokens_eq (hlen : s.length < 2 ^ 32) :
    ∀ (count cursor : Nat),
      cursor ≤ s.length →
      (s.drop cursor).count sep = count →
      cutTokens s sep count cursor (s.length - cursor) =
        .ok (((s.drop cursor).splitOn sep).map StrRef.of)
  | 0, cursor, hle, hcount => by
      have hnot : sep ∉ s.drop cursor := List.count_eq_zero.mp hcount
      rw [cutTokens, List.splitOn_eq_singleton hnot,
        List.take_of_length_le (by simp)]
      rfl
  | count + 1, cursor, hle, hcount => by
      obtain ⟨stop, hcut⟩ := exists_cutAt sep hcount
      have ih := cutTokens_eq hlen count (stop + 1) hcut.lt hcut.count
      simp only [cutTokens, hcut.found, hcut.remains hlen, ih]
      rw [hcut.splitOn]
      rfl

/-- On strings that the 32-bit index can scan, `tokenize` is the split at the separator. -/
theorem tokenize_of (hlen : s.length < 2 ^ 32) :
    tokenize (.of s) sep = .ok ((s.splitOn sep).map StrRef.of) := by
  have hcount :
      countSep s sep (s.length + 1) 0 0 = some (s.count sep) := by
    have := countSep_eq sep hlen (s.length + 1) 0 0 (by simp) (by simp)
    simpa using this
  rw [tokenize, StrRef.str_of, StrRef.len_of, hcount]
  cases hc : s.count sep with
  | zero =>
      rw [List.splitOn_eq_singleton (List.count_eq_zero.mp hc)]
      rfl
  | succ count =>
      have := cutTokens_eq sep hlen (count + 1) 0 (by simp) (by simpa using hc)
      simpa using this

/-- Longer strings keep the 32-bit index below their length for ever. -/
theorem tokenize_hang (hlen : 2 ^ 32 ≤ s.length) :
    tokenize (.of s) sep = .error .hang := by
  have hnone : ∀ (fuel : Nat) (i : UInt32) (count : Nat),
      countSep s sep fuel i count = none := by
    intro fuel
    induction fuel with
    | zero => intro i count; rfl
    | succ fuel ih =>
        intro i count
        have hi : i.toNat < s.length := lt_of_lt_of_le i.toNat_lt hlen
        rw [countSep, if_pos hi, ih]
  rw [tokenize, StrRef.str_of, hnone]

/-- Only a text beyond the reach of the index makes `tokenize` fail. -/
theorem length_of_tokenize_eq_ok {tokens : List StrRef}
    (h : tokenize (.of s) sep = .ok tokens) :
    s.length < 2 ^ 32 ∧ tokens = (s.splitOn sep).map StrRef.of := by
  by_cases hlen : s.length < 2 ^ 32
  · rw [tokenize_of sep hlen] at h
    exact ⟨hlen, (Except.ok.inj h).symm⟩
  · rw [tokenize_hang sep (by omega)] at h
    simp at h

/-- Scanning for ever is the only way in which `tokenize` fails. -/
theorem tokenize_error {r : StrRef} {sep : Byte} {f : Fail}
    (h : tokenize r sep = .error f) : f = .hang := by
  match r with
  | ⟨none⟩ => exact absurd h (by simp [tokenize, countSep, StrRef.str])
  | ⟨some s⟩ =>
      by_cases hlen : s.length < 2 ^ 32
      · rw [← StrRef.of, tokenize_of sep hlen] at h
        simp at h
      · rw [← StrRef.of, tokenize_hang sep (by omega)] at h
        exact (Except.error.inj h).symm

/-- There is at least one token. -/
theorem tokenize_ne_nil {r : StrRef} {sep : Byte} {tokens : List StrRef}
    (h : tokenize r sep = .ok tokens) : tokens ≠ [] := by
  match r with
  | ⟨none⟩ =>
      simp [tokenize, countSep, StrRef.str] at h
      simp [← h]
  | ⟨some s⟩ =>
      rw [(length_of_tokenize_eq_ok sep h).2]
      simp [List.splitOn_ne_nil]

end Tokenize

/-- `isspace` in the C locale. -/
def isSpace (b : Byte) : Bool :=
  b == 32 || decide (9 ≤ b.toNat ∧ b.toNat ≤ 13)

/-- Value of the numeral after the sign, if it has a digit. -/
def strtollDigits (s : Bytes) : Option Nat :=
  match s.takeWhile Decimal.isDigit with
  | [] => none
  | ds => some (Decimal.value 0 ds)

/-- The number that `strtoll` reads from the beginning of a text. -/
def strtoll (s : Bytes) : Option Int :=
  match s.dropWhile isSpace with
  | 45 :: s => (strtollDigits s).map (fun n => -(n : Int))
  | 43 :: s => (strtollDigits s).map (fun n => (n : Int))
  | s => (strtollDigits s).map (fun n => (n : Int))

/-- `std::stoll`. -/
def stoll (s : Bytes) : Except Exn Int :=
  match strtoll s with
  | none => .error .stdInvalidArgument
  | some val =>
      if val < -2 ^ 63 ∨ 2 ^ 63 ≤ val then .error .stdOutOfRange
      else .ok val

/-- `std::to_string` of a signed integer. -/
def toDecimalInt : Int → Bytes
  | .ofNat n => toDecimal n
  | .negSucc n => lit "-" ++ toDecimal (n + 1)

/-- The text of the error that `strto` throws on values outside `[lo, hi]`. -/
def rangeError (lo hi : Int) (s : Bytes) : Exn :=
  .error (lit "Value '" ++ s ++ lit "' out of range [" ++
    toDecimalInt lo ++ lit ":" ++ toDecimalInt hi ++ lit "]")

/-- `strto` for a type with the limits `lo` and `hi`. -/
def strto (lo hi : Int) (s : Bytes) : Except Exn Int :=
  match stoll s with
  | .ok val => if val < lo ∨ hi < val then .error (rangeError lo hi s) else .ok val
  | .error .stdOutOfRange => .error (rangeError lo hi s)
  | .error e => .error e

/-- `strto` throws its own error, or the one of `stoll` on texts without a number. -/
theorem strto_error {lo hi : Int} {s : Bytes} {e : Exn} (h : strto lo hi s = .error e) :
    e = rangeError lo hi s ∨ e = .stdInvalidArgument := by
  unfold strto at h
  cases hread : stoll s with
  | ok val =>
      simp only [hread] at h
      split_ifs at h
      exact Or.inl (Except.error.inj h).symm
  | error e' =>
      unfold stoll at hread
      cases hval : strtoll s with
      | none =>
          rw [hval] at hread
          obtain rfl := Except.error.inj hread
          simp only [stoll, hval, Except.error.injEq] at h
          exact Or.inr h.symm
      | some val =>
          simp only [hval] at hread
          split_ifs at hread with hbig
          obtain rfl := Except.error.inj hread
          simp only [stoll, hval, if_pos hbig, Except.error.injEq] at h
          exact Or.inl h.symm

/-- `strto<uint16_t>`. -/
def strtoUint16 (s : Bytes) : Except Exn UInt16 :=
  (strto 0 65535 s).map (fun val => UInt16.ofNat val.toNat)

end Util

end Goofy
