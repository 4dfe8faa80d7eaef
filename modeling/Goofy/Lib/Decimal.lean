import Mathlib.Tactic.Common

/-!
# Decimal numerals as bytes

The canonical decimal text of a natural number, and the reader that accepts a
non-empty sequence of decimal digits.  Reading undoes writing
(`decode_encode`), so writing is injective.
-/

namespace Decimal

/-- The decimal text of a number, most significant digit first. -/
def encode (n : Nat) : List UInt8 :=
  (Nat.toDigits 10 n).map (fun c => UInt8.ofNat c.toNat)

/-- Is the byte one of `0` to `9`? -/
def isDigit (b : UInt8) : Bool :=
  decide (48 ≤ b.toNat ∧ b.toNat ≤ 57)

/-- Value of a sequence of digits, after a value already read. -/
def value (acc : Nat) (bs : List UInt8) : Nat :=
  bs.foldl (fun acc b => 10 * acc + (b.toNat - 48)) acc

/-- Read a whole text as a decimal number. -/
def decode (bs : List UInt8) : Option Nat :=
  if bs ≠ [] ∧ bs.all isDigit then some (value 0 bs) else none

theorem toNat_of_isDigit {c : Char} (hc : c.isDigit = true) :
    (UInt8.ofNat c.toNat).toNat = c.toNat ∧
      48 ≤ c.toNat ∧ c.toNat ≤ 57 := by
  have hbounds : 48 ≤ c.toNat ∧ c.toNat ≤ 57 := by
    simpa [Char.isDigit, UInt32.le_iff_toNat_le] using hc
  refine ⟨?_, hbounds⟩
  simp only [UInt8.toNat_ofNat']
  omega

theorem encode_ne_nil (n : Nat) : encode n ≠ [] := by
  simp [encode]

/-- Decimal texts hold digits only. -/
theorem isDigit_of_mem_encode {n : Nat} {b : UInt8} (hb : b ∈ encode n) :
    isDigit b = true := by
  obtain ⟨c, hc, rfl⟩ := List.mem_map.mp hb
  have hdigit := Nat.isDigit_of_mem_toDigits (by decide) (by decide) hc
  obtain ⟨hnat, hbounds⟩ := toNat_of_isDigit hdigit
  simpa [isDigit, hnat] using hbounds

/-- A byte that is not a digit does not occur in a decimal text. -/
theorem not_mem_encode {n : Nat} {b : UInt8} (hb : isDigit b = false) :
    b ∉ encode n := by
  intro hmem
  rw [isDigit_of_mem_encode hmem] at hb
  exact Bool.noConfusion hb

theorem value_map {cs : List Char} (hcs : ∀ c ∈ cs, c.isDigit = true)
    (acc : Nat) :
    value acc (cs.map (fun c => UInt8.ofNat c.toNat)) =
      Nat.ofDigitChars 10 cs acc := by
  induction cs generalizing acc with
  | nil => simp [value]
  | cons c cs ih =>
      have hc := (toNat_of_isDigit (hcs c (by simp))).1
      have ih := ih (fun d hd => hcs d (by simp [hd]))
      rw [Nat.ofDigitChars_cons, ← ih]
      simp [value, hc]

/-- Reading undoes writing. -/
@[simp] theorem decode_encode (n : Nat) : decode (encode n) = some n := by
  have hall : (encode n).all isDigit = true := by
    rw [List.all_eq_true]
    exact fun b hb => isDigit_of_mem_encode hb
  rw [decode, if_pos ⟨encode_ne_nil n, hall⟩, encode, value_map]
  · rw [Nat.ofDigitChars_ten_toDigits]
  · exact fun c hc => Nat.isDigit_of_mem_toDigits (by decide) (by decide) hc

theorem encode_injective : Function.Injective encode := by
  intro m n h
  have hdecode : decode (encode m) = decode (encode n) := by rw [h]
  simpa using hdecode

end Decimal
