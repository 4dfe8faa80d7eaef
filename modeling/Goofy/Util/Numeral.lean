import Goofy.Util.Str

/-!
# Leading integers

`strtoll` reads the integer at the beginning of a text and ignores what follows
it.  `LeadingInt` says the same without a scan, and `strto` is characterised by
it: a leading integer outside the limits of the type is an error of the program,
a text without one is an exception of the standard library.
-/

namespace Goofy

open Delimited

namespace Util

/-- The text starts with an integer: blanks, an optional sign, and all the digits
that follow. -/
inductive LeadingInt : Bytes → Int → Prop
  | positive {blank sign digits rest : Bytes}
      (hblank : ∀ b ∈ blank, isSpace b = true)
      (hsign : sign = [] ∨ sign = lit "+")
      (hdigits : digits ≠ [] ∧ ∀ b ∈ digits, Decimal.isDigit b = true)
      (hrest : ∀ b, rest.head? = some b → Decimal.isDigit b = false) :
      LeadingInt (blank ++ sign ++ digits ++ rest) (Decimal.value 0 digits)
  | negative {blank digits rest : Bytes}
      (hblank : ∀ b ∈ blank, isSpace b = true)
      (hdigits : digits ≠ [] ∧ ∀ b ∈ digits, Decimal.isDigit b = true)
      (hrest : ∀ b, rest.head? = some b → Decimal.isDigit b = false) :
      LeadingInt (blank ++ lit "-" ++ digits ++ rest) (-Decimal.value 0 digits)

section Scan

theorem isSpace_of_isDigit {b : Byte} (h : Decimal.isDigit b = true) :
    isSpace b = false := by
  simp only [Decimal.isDigit, decide_eq_true_eq] at h
  simp only [isSpace, Bool.or_eq_false_iff, beq_eq_false_iff_ne, ne_eq,
    decide_eq_false_iff_not]
  constructor
  · rintro rfl
    revert h
    decide
  · omega

/-- A scan of digits stops where the digits do. -/
theorem takeWhile_digits
    {digits rest : Bytes} (hdigits : ∀ b ∈ digits, Decimal.isDigit b = true)
    (hrest : ∀ b, rest.head? = some b → Decimal.isDigit b = false) :
    (digits ++ rest).takeWhile Decimal.isDigit = digits := by
  rw [List.takeWhile_append_of_pos hdigits]
  cases rest with
  | nil => simp
  | cons b rest => simp [hrest b rfl]

theorem strtollDigits_digits
    {digits rest : Bytes}
    (hdigits : digits ≠ [] ∧ ∀ b ∈ digits, Decimal.isDigit b = true)
    (hrest : ∀ b, rest.head? = some b → Decimal.isDigit b = false) :
    strtollDigits (digits ++ rest) = some (Decimal.value 0 digits) := by
  rw [strtollDigits, takeWhile_digits hdigits.2 hrest]
  split
  · exact absurd rfl hdigits.1
  · rfl

/-- What the scan of digits reads is followed by no digit. -/
theorem digits_of_strtollDigits {s : Bytes} {n : Nat} (h : strtollDigits s = some n) :
    ∃ digits rest, s = digits ++ rest ∧ n = Decimal.value 0 digits ∧
      (digits ≠ [] ∧ ∀ b ∈ digits, Decimal.isDigit b = true) ∧
      ∀ b, rest.head? = some b → Decimal.isDigit b = false := by
  unfold strtollDigits at h
  split at h
  · simp at h
  · rename_i digits hne
    refine ⟨s.takeWhile Decimal.isDigit, s.dropWhile Decimal.isDigit,
      List.takeWhile_append_dropWhile.symm, (Option.some.inj h).symm, ⟨hne, ?_⟩, ?_⟩
    · exact fun b hb => List.mem_takeWhile_imp hb
    · intro b hb
      have hhead := List.head?_dropWhile_not Decimal.isDigit s
      rw [hb] at hhead
      simpa using hhead

/-- The value that `strtoll` returns comes from a scanned number. -/
theorem exists_of_map_eq_some {x : Option Nat} {f : Int → Int} {v : Int}
    (h : (x : Option Int).map f = some v) :
    ∃ n : Nat, x = some n ∧ v = f n := by
  cases x with
  | none => simp at h
  | some n => exact ⟨n, rfl, (Option.some.inj h).symm⟩

/-- Blanks are skipped up to the first byte that is none. -/
theorem dropWhile_blank
    {blank : Bytes} (hblank : ∀ b ∈ blank, isSpace b = true)
    {b : Byte} (hb : isSpace b = false) (s : Bytes) :
    (blank ++ b :: s).dropWhile isSpace = b :: s := by
  rw [List.dropWhile_append_of_pos hblank]
  simp [hb]

end Scan

/-- What `strtoll` reads is the leading integer. -/
theorem leadingInt_of_strtoll {s : Bytes} {v : Int} (h : strtoll s = some v) :
    LeadingInt s v := by
  have hsplit : s = s.takeWhile isSpace ++ s.dropWhile isSpace :=
    List.takeWhile_append_dropWhile.symm
  have hblank : ∀ b ∈ s.takeWhile isSpace, isSpace b = true :=
    fun b hb => List.mem_takeWhile_imp hb
  unfold strtoll at h
  split at h
  · rename_i t hdrop
    obtain ⟨n, hn, rfl⟩ := exists_of_map_eq_some h
    obtain ⟨digits, rest, rfl, rfl, hdigits, hrest⟩ := digits_of_strtollDigits hn
    have hs : s = s.takeWhile isSpace ++ lit "-" ++ digits ++ rest := by
      rw [hdrop] at hsplit
      simpa [lit] using hsplit
    rw [hs]
    exact .negative hblank hdigits hrest
  · rename_i t hdrop
    obtain ⟨n, hn, rfl⟩ := exists_of_map_eq_some h
    obtain ⟨digits, rest, rfl, rfl, hdigits, hrest⟩ := digits_of_strtollDigits hn
    have hs : s = s.takeWhile isSpace ++ lit "+" ++ digits ++ rest := by
      rw [hdrop] at hsplit
      simpa [lit] using hsplit
    rw [hs]
    exact .positive hblank (Or.inr rfl) hdigits hrest
  · obtain ⟨n, hn, rfl⟩ := exists_of_map_eq_some h
    obtain ⟨digits, rest, hdrop, rfl, hdigits, hrest⟩ := digits_of_strtollDigits hn
    have hs : s = s.takeWhile isSpace ++ [] ++ digits ++ rest := by
      rw [hdrop] at hsplit
      simpa using hsplit
    rw [hs]
    exact .positive hblank (Or.inl rfl) hdigits hrest

/-- A sign is read before the digits. -/
theorem strtoll_sign
    {blank digits rest : Bytes} (hblank : ∀ b ∈ blank, isSpace b = true)
    (hdigits : digits ≠ [] ∧ ∀ b ∈ digits, Decimal.isDigit b = true)
    (hrest : ∀ b, rest.head? = some b → Decimal.isDigit b = false) :
    strtoll (blank ++ lit "+" ++ digits ++ rest) = some (Decimal.value 0 digits) ∧
      strtoll (blank ++ lit "-" ++ digits ++ rest) = some (-(Decimal.value 0 digits : Int)) := by
  have hplus : lit "+" = [43] ∧ isSpace 43 = false := by decide
  have hminus : lit "-" = [45] ∧ isSpace 45 = false := by decide
  have hread := strtollDigits_digits hdigits hrest
  constructor
  · have hdrop := dropWhile_blank hblank hplus.2 (digits ++ rest)
    simp only [strtoll, hplus.1, List.append_assoc, List.cons_append, List.nil_append,
      hdrop, hread]
    rfl
  · have hdrop := dropWhile_blank hblank hminus.2 (digits ++ rest)
    simp only [strtoll, hminus.1, List.append_assoc, List.cons_append, List.nil_append,
      hdrop, hread]
    rfl

theorem strtoll_no_sign
    {blank digits rest : Bytes} (hblank : ∀ b ∈ blank, isSpace b = true)
    (hdigits : digits ≠ [] ∧ ∀ b ∈ digits, Decimal.isDigit b = true)
    (hrest : ∀ b, rest.head? = some b → Decimal.isDigit b = false) :
    strtoll (blank ++ digits ++ rest) = some (Decimal.value 0 digits) := by
  cases digits with
  | nil => exact absurd rfl hdigits.1
  | cons d digits =>
      have hd := hdigits.2 d (by simp)
      have hdrop := dropWhile_blank hblank (isSpace_of_isDigit hd) (digits ++ rest)
      have hread := strtollDigits_digits hdigits hrest
      -- The first digit is no sign.
      have hsign : d ≠ 45 ∧ d ≠ 43 := by
        constructor <;>
          · rintro rfl
            revert hd
            decide
      simp only [strtoll, List.append_assoc, List.cons_append, hdrop] at hread ⊢
      split
      · rename_i heq
        exact absurd (List.cons.inj heq).1 hsign.1
      · rename_i heq
        exact absurd (List.cons.inj heq).1 hsign.2
      · rw [hread]
        rfl

/-- `strtoll` reads the leading integer. -/
theorem strtoll_eq_some_iff (s : Bytes) (v : Int) :
    strtoll s = some v ↔ LeadingInt s v := by
  refine ⟨leadingInt_of_strtoll, ?_⟩
  intro h
  cases h with
  | positive hblank hsign hdigits hrest =>
      rcases hsign with rfl | rfl
      · rw [List.append_nil]
        exact strtoll_no_sign hblank hdigits hrest
      · exact (strtoll_sign hblank hdigits hrest).1
  | negative hblank hdigits hrest =>
      exact (strtoll_sign hblank hdigits hrest).2

section Strto

variable {lo hi : Int} (hlo : -2 ^ 63 ≤ lo) (hhi : hi < 2 ^ 63)

include hlo hhi in
/-- A leading integer is returned, or it is outside the limits: values beyond the
64 bits of `stoll` are as well. -/
theorem strto_of_leadingInt {s : Bytes} {v : Int} (h : LeadingInt s v) :
    strto lo hi s = if v < lo ∨ hi < v then .error (rangeError lo hi s) else .ok v := by
  have hread := (strtoll_eq_some_iff s v).mpr h
  unfold strto stoll
  rw [hread]
  by_cases hbig : v < -2 ^ 63 ∨ 2 ^ 63 ≤ v
  · have hout : v < lo ∨ hi < v := by omega
    simp only [if_pos hbig, if_pos hout]
  · simp only [if_neg hbig]

/-- Without a leading integer the exception of `stoll` escapes. -/
theorem strto_of_no_leadingInt {s : Bytes} (h : ∀ v, ¬ LeadingInt s v) :
    strto lo hi s = .error .stdInvalidArgument := by
  have hread : strtoll s = none := by
    rw [Option.eq_none_iff_forall_ne_some]
    exact fun v hv => h v ((strtoll_eq_some_iff s v).mp hv)
  unfold strto stoll
  rw [hread]

end Strto

/-- The digits of a decimal text have its value. -/
theorem value_toDecimal (n : Nat) : Decimal.value 0 (toDecimal n) = n := by
  have hdecode := Decimal.decode_encode n
  unfold Decimal.decode at hdecode
  split_ifs at hdecode
  exact Option.some.inj hdecode

/-- A decimal text is a leading integer, whatever follows it but a digit. -/
theorem leadingInt_toDecimal (n : Nat) {rest : Bytes}
    (hrest : ∀ b, rest.head? = some b → Decimal.isDigit b = false) :
    LeadingInt (toDecimal n ++ rest) n := by
  have h : LeadingInt ([] ++ [] ++ toDecimal n ++ rest) (Decimal.value 0 (toDecimal n)) :=
    .positive (by simp) (Or.inl rfl)
      ⟨Decimal.encode_ne_nil n, fun b hb => Decimal.isDigit_of_mem_encode hb⟩ hrest
  rwa [value_toDecimal] at h

/-- A 16-bit number is read back from its decimal text. -/
theorem strtoUint16_toDecimal (port : UInt16) {rest : Bytes}
    (hrest : ∀ b, rest.head? = some b → Decimal.isDigit b = false) :
    strtoUint16 (toDecimal port.toNat ++ rest) = .ok port := by
  have hlt : port.toNat < 2 ^ 16 := port.toNat_lt
  have hread : strto 0 65535 (toDecimal port.toNat ++ rest) =
      if (port.toNat : Int) < 0 ∨ 65535 < (port.toNat : Int) then
        .error (rangeError 0 65535 (toDecimal port.toNat ++ rest))
      else
        .ok (port.toNat : Int) :=
    strto_of_leadingInt (by decide) (by decide) (leadingInt_toDecimal port.toNat hrest)
  rw [strtoUint16, hread, if_neg (by omega)]
  simp [Except.map]

end Util

end Goofy
