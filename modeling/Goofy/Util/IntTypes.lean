import Mathlib.Algebra.Group.Int.Defs
import Mathlib.Algebra.Group.Nat.Defs
import Goofy.Util.Numeral

/-!
# `strto` for every integer type

`strto` is a template over the integer types, with a version of its own for
`uint64_t`.  The template compares a `long long` with the limits of the type;
the other version looks for a minus sign and leaves the upper limit to
`std::stoull`.  On decimal texts both check the range of the type
(`strto_toDecimalInt`).
-/

namespace Goofy
namespace Util

/-- The fixed-width integer types. -/
inductive IntType
  | int8
  | int16
  | int32
  | int64
  | uint8
  | uint16
  | uint32
  | uint64
deriving DecidableEq

namespace IntType

def bits : IntType → Nat
  | int8 | uint8 => 8
  | int16 | uint16 => 16
  | int32 | uint32 => 32
  | int64 | uint64 => 64

def signed : IntType → Bool
  | int8 | int16 | int32 | int64 => true
  | uint8 | uint16 | uint32 | uint64 => false

/-- `std::numeric_limits<T>::min()`. -/
def min (T : IntType) : Int :=
  if T.signed then -2 ^ (T.bits - 1) else 0

/-- `std::numeric_limits<T>::max()`. -/
def max (T : IntType) : Int :=
  if T.signed then 2 ^ (T.bits - 1) - 1 else 2 ^ T.bits - 1

/-- The number that a value of the type stands for. -/
def number (T : IntType) (v : BitVec T.bits) : Int :=
  if T.signed then v.toInt else v.toNat

end IntType

/-- `StrRef::ltrim`. -/
def StrRef.ltrim (r : StrRef) : StrRef :=
  ⟨r.start.map (fun s => s.dropWhile isSpace)⟩

/-- `std::stoull`: a minus sign negates the value that was read in 64 bits. -/
def stoull (s : Bytes) : Except Exn UInt64 :=
  match strtoll s with
  | none => .error .stdInvalidArgument
  | some val =>
      if 2 ^ 64 ≤ val.natAbs then .error .stdOutOfRange
      else .ok (.ofBitVec (BitVec.ofInt 64 val))

/-- `strto<uint64_t>`. -/
def strtoUint64 (s : Bytes) : Except Exn UInt64 :=
  -- The upper limit is stored in an `int64_t`.
  let min := 0
  let max := -1
  if (StrRef.of s).ltrim.str.head? = some 45 then .error (rangeError min max s)
  else
    match stoull s with
    | .ok val => .ok val
    | .error .stdOutOfRange => .error (rangeError min max s)
    | .error e => .error e

/-- `strto<T>`. -/
def IntType.strto (T : IntType) (s : Bytes) : Except Exn (BitVec T.bits) :=
  match T with
  | .uint64 => (strtoUint64 s).map UInt64.toBitVec
  | T => (Util.strto T.min T.max s).map (fun val => BitVec.ofInt T.bits val)

namespace IntType

theorem bits_pos (T : IntType) : 0 < T.bits := by
  cases T <;> decide

/-- A number in the range of a type is kept by the conversion to the type. -/
theorem number_ofInt {T : IntType} {z : Int} (hz : T.min ≤ z ∧ z ≤ T.max) :
    T.number (BitVec.ofInt T.bits z) = z := by
  obtain ⟨hlo, hhi⟩ := hz
  unfold number
  by_cases hsigned : T.signed = true
  · rw [min, if_pos hsigned] at hlo
    rw [max, if_pos hsigned] at hhi
    rw [if_pos hsigned]
    exact BitVec.toInt_ofInt_eq_self T.bits_pos hlo (by omega)
  · rw [min, if_neg hsigned] at hlo
    rw [max, if_neg hsigned] at hhi
    have hlt : z < ((2 ^ T.bits : Nat) : Int) := by
      rw [Int.natCast_pow]
      exact Int.lt_of_le_sub_one hhi
    have hmod : z % ((2 ^ T.bits : Nat) : Int) = z := Int.emod_eq_of_lt hlo hlt
    rw [if_neg hsigned, BitVec.toNat_ofInt, hmod, Int.toNat_of_nonneg hlo]

/-- The limits of the types that use the template are in the range of `stoll`. -/
theorem limits_of_ne_uint64 {T : IntType} (hT : T ≠ .uint64) :
    -2 ^ 63 ≤ T.min ∧ T.max < 2 ^ 63 := by
  cases T with
  | uint64 => exact absurd rfl hT
  | _ => decide

theorem strto_of_ne_uint64 {T : IntType} (hT : T ≠ .uint64) (s : Bytes) :
    T.strto s = (Util.strto T.min T.max s).map (fun val => BitVec.ofInt T.bits val) := by
  cases T with
  | uint64 => exact absurd rfl hT
  | _ => rfl

end IntType

/-- A value out of range is an error of the program. -/
theorem exists_rangeError (lo hi : Int) (s : Bytes) :
    ∃ msg, rangeError lo hi s = .error msg :=
  ⟨_, rfl⟩

/-- The decimal text of an integer is a leading integer. -/
theorem leadingInt_toDecimalInt (z : Int) : LeadingInt (toDecimalInt z) z := by
  cases z with
  | ofNat n =>
      have h := @leadingInt_toDecimal n [] (by simp)
      rwa [List.append_nil] at h
  | negSucc n =>
      have h : LeadingInt ([] ++ lit "-" ++ toDecimal (n + 1) ++ [])
          (-(Decimal.value 0 (toDecimal (n + 1)) : Int)) :=
        .negative (by simp)
          ⟨Decimal.encode_ne_nil _, fun b hb => Decimal.isDigit_of_mem_encode hb⟩ (by simp)
      rw [value_toDecimal, List.append_nil, List.nil_append] at h
      exact h

/-- Only the text of a negative integer starts with a minus sign. -/
theorem head_ltrim_toDecimalInt_iff (z : Int) :
    (StrRef.of (toDecimalInt z)).ltrim.str.head? = some 45 ↔ z < 0 := by
  cases z with
  | ofNat n =>
      obtain ⟨d, ds, hds⟩ := List.exists_cons_of_ne_nil (Decimal.encode_ne_nil n)
      have hd : Decimal.isDigit d = true :=
        Decimal.isDigit_of_mem_encode (by rw [hds]; simp)
      have hminus : d ≠ 45 := by
        rintro rfl
        revert hd
        decide
      have htext : toDecimalInt (.ofNat n) = d :: ds := hds
      have htrim : (StrRef.of (toDecimalInt (.ofNat n))).ltrim.str = d :: ds := by
        rw [htext]
        simp [StrRef.ltrim, StrRef.of, StrRef.str, isSpace_of_isDigit hd]
      rw [htrim]
      constructor
      · intro h
        exact absurd (Option.some.inj h) hminus
      · intro h
        exact absurd h (Int.not_lt.mpr (Int.natCast_nonneg n))
  | negSucc n =>
      exact ⟨fun _ => Int.negSucc_lt_zero n, fun _ => rfl⟩

/-- The version for `uint64_t` on a text that starts with an integer. -/
theorem strtoUint64_of_leadingInt {s : Bytes} {v : Int} (h : LeadingInt s v)
    (hsign : (StrRef.of s).ltrim.str.head? = some 45 ↔ v < 0) :
    strtoUint64 s =
      if v < 0 ∨ 2 ^ 64 ≤ v then .error (rangeError 0 (-1) s)
      else .ok (.ofBitVec (BitVec.ofInt 64 v)) := by
  have hread := (strtoll_eq_some_iff s v).mpr h
  unfold strtoUint64 stoull
  rw [hread]
  by_cases hneg : v < 0
  · rw [if_pos (hsign.mpr hneg), if_pos (Or.inl hneg)]
  · rw [if_neg (fun h => hneg (hsign.mp h))]
    by_cases hbig : 2 ^ 64 ≤ v
    · have habs : 2 ^ 64 ≤ v.natAbs := by omega
      simp only [if_pos habs, if_pos (Or.inr hbig)]
    · have habs : ¬ 2 ^ 64 ≤ v.natAbs := by omega
      have hin : ¬ (v < 0 ∨ 2 ^ 64 ≤ v) := by omega
      simp only [if_neg habs, if_neg hin]

/-- `strto` compares the integer of a decimal text with the limits of the type. -/
theorem IntType.exists_strto_eq (T : IntType) (z : Int) :
    ∃ msg, T.strto (toDecimalInt z) =
      if z < T.min ∨ T.max < z then .error (.error msg)
      else .ok (BitVec.ofInt T.bits z) := by
  have htext := leadingInt_toDecimalInt z
  by_cases hT : T = .uint64
  · subst hT
    have hread := strtoUint64_of_leadingInt htext (head_ltrim_toDecimalInt_iff z)
    have hrange : (z < min .uint64 ∨ max .uint64 < z) ↔ z < 0 ∨ 2 ^ 64 ≤ z := by
      simp only [min, max, signed, bits, Bool.false_eq_true, if_false]
      omega
    have hstrto : strto .uint64 (toDecimalInt z) =
        (strtoUint64 (toDecimalInt z)).map UInt64.toBitVec := rfl
    obtain ⟨msg, hmsg⟩ := exists_rangeError 0 (-1) (toDecimalInt z)
    refine ⟨msg, ?_⟩
    rw [hstrto, hread, hmsg]
    by_cases hout : z < 0 ∨ 2 ^ 64 ≤ z
    · rw [if_pos hout, if_pos (hrange.mpr hout)]
      rfl
    · rw [if_neg hout, if_neg (fun h => hout (hrange.mp h))]
      rfl
  · obtain ⟨hlo, hhi⟩ := limits_of_ne_uint64 hT
    obtain ⟨msg, hmsg⟩ := exists_rangeError T.min T.max (toDecimalInt z)
    refine ⟨msg, ?_⟩
    rw [strto_of_ne_uint64 hT, strto_of_leadingInt hlo hhi htext, hmsg]
    split_ifs
    · rfl
    · rfl

/-- `strto` returns the integer that a decimal text stands for when it is in the
range of the type, and throws an error of the program otherwise. -/
theorem strto_toDecimalInt
    (T : IntType)
    (z : Int) :
    (T.min ≤ z ∧ z ≤ T.max →
        ∃ v, T.strto (toDecimalInt z) = .ok v ∧ T.number v = z) ∧
      (¬ (T.min ≤ z ∧ z ≤ T.max) →
        ∃ msg, T.strto (toDecimalInt z) = .error (.error msg)) := by
  obtain ⟨msg, hstrto⟩ := T.exists_strto_eq z
  rw [hstrto]
  constructor
  · intro hz
    rw [if_neg (by omega)]
    exact ⟨_, rfl, IntType.number_ofInt hz⟩
  · intro hz
    rw [if_pos (by omega)]
    exact ⟨msg, rfl⟩

/-- The limits of `uint64_t` and the integers next to them. -/
example :
    (IntType.uint64.strto (lit "18446744073709551615")).map IntType.uint64.number =
        .ok 18446744073709551615 ∧
      IntType.uint64.strto (lit "18446744073709551616") =
        .error (rangeError 0 (-1) (lit "18446744073709551616")) ∧
      IntType.uint64.strto (lit "-1") = .error (rangeError 0 (-1) (lit "-1")) :=
  ⟨rfl, rfl, rfl⟩

/-- What `strto` returns is within the limits. -/
theorem strto_ok {lo hi : Int} {s : Bytes} {val : Int} (h : strto lo hi s = .ok val) :
    lo ≤ val ∧ val ≤ hi := by
  unfold strto at h
  split at h
  · split_ifs at h
    obtain rfl := Except.ok.inj h
    omega
  · simp at h
  · simp at h

/-- The ports of a gophermap are read by the template. -/
theorem strtoUint16_eq (s : Bytes) :
    (strtoUint16 s).map UInt16.toBitVec = IntType.uint16.strto s := by
  have hlimits : IntType.min .uint16 = 0 ∧ IntType.max .uint16 = 65535 := by
    decide
  rw [IntType.strto_of_ne_uint64 (by decide), hlimits.1, hlimits.2, strtoUint16]
  cases hread : strto 0 65535 s with
  | error e => rfl
  | ok val =>
      obtain ⟨hlo, hhi⟩ := strto_ok hread
      obtain ⟨n, rfl⟩ := Int.eq_ofNat_of_zero_le hlo
      exact congrArg Except.ok (BitVec.ofInt_natCast 16 n).symm

end Util
end Goofy
