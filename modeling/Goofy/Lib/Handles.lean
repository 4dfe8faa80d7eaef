import Mathlib.Data.List.AList

/-!
# Handles with reused numbers

A system hands out small numbers for the things it opens, and reuses a number as
soon as it was closed.  Behind each number stands a serial that is never reused,
so that one can say of each thing how often it was closed.  A close of a number
that is not open is written down as such.

The table is sound when every serial is either open under one number and never
closed, or closed exactly once (`Table.Sound`).  Opening fresh numbers keeps it
sound, and so does every close.
-/

namespace Handles

section Lookup

variable {β : Type} {m : AList (fun _ : Nat => β)} {key other : Nat} {b found : β}

theorem mem_of_lookup (h : m.lookup key = some b) : key ∈ m :=
  AList.lookup_isSome.mp (by rw [h]; rfl)

/-- What is found after an insertion is the new entry, or was there before. -/
theorem lookup_insert_cases (h : (m.insert key b).lookup other = some found) :
    other = key ∧ found = b ∨ other ≠ key ∧ m.lookup other = some found := by
  by_cases hother : other = key
  · rw [hother, AList.lookup_insert] at h
    exact Or.inl ⟨hother, (Option.some.inj h).symm⟩
  · rw [AList.lookup_insert_ne hother] at h
    exact Or.inr ⟨hother, h⟩

/-- What holds of the new entry and of those before, holds after an insertion. -/
theorem forall_lookup_insert
    {P : Nat → β → Prop} (hnew : P key b)
    (hold : ∀ {other found}, m.lookup other = some found → P other found) :
    ∀ {other found}, (m.insert key b).lookup other = some found → P other found := by
  intro other found hfound
  rcases lookup_insert_cases hfound with ⟨rfl, rfl⟩ | ⟨-, hfound⟩
  · exact hnew
  · exact hold hfound

theorem lookup_erase_cases (h : (m.erase key).lookup other = some found) :
    other ≠ key ∧ m.lookup other = some found := by
  have hother : other ≠ key := by
    rintro rfl
    simp at h
  rw [AList.lookup_erase_ne hother] at h
  exact ⟨hother, h⟩

end Lookup

/-- The open numbers with their serials and kinds, the number of serials that were
used, and what each close met, oldest first. -/
structure Table (κ : Type) where
  entries : AList (fun _ : Nat => Nat × κ)
  issued : Nat
  closed : List (Option Nat)

namespace Table

variable {κ : Type}

/-- The table without any handle. -/
def empty : Table κ :=
  ⟨∅, 0, []⟩

def openAs (kind : κ) (t : Table κ) (number : Nat) : Table κ :=
  ⟨t.entries.insert number (t.issued, kind), t.issued + 1, t.closed⟩

/-- Open several numbers, one after the other. -/
def openAll (kind : κ) (t : Table κ) (numbers : List Nat) : Table κ :=
  numbers.foldl (openAs kind) t

def close (t : Table κ) (number : Nat) : Table κ :=
  ⟨t.entries.erase number, t.issued, t.closed ++ [(t.entries.lookup number).map Prod.fst]⟩

/-- The serial stands behind some open number. -/
def Live (t : Table κ) (n : Nat) : Prop :=
  ∃ number kind, t.entries.lookup number = some (n, kind)

/-- Every serial is open under one number, or was closed exactly once. -/
structure Sound (t : Table κ) : Prop where
  lt_issued : ∀ {number n kind}, t.entries.lookup number = some (n, kind) → n < t.issued
  number_unique : ∀ {number number' n kind kind'},
    t.entries.lookup number = some (n, kind) →
    t.entries.lookup number' = some (n, kind') → number = number'
  closed_once : ∀ n < t.issued,
    (t.Live n ∧ t.closed.count (some n) = 0) ∨ (¬ t.Live n ∧ t.closed.count (some n) = 1)
  closed_lt : ∀ n, some n ∈ t.closed → n < t.issued

theorem sound_empty : (empty : Table κ).Sound := by
  refine ⟨?_, ?_, ?_, ?_⟩ <;> simp [empty]

/-- What is open was never closed. -/
theorem Sound.count_eq_zero
    {t : Table κ} (h : t.Sound) {number n : Nat} {kind : κ}
    (hlookup : t.entries.lookup number = some (n, kind)) :
    t.closed.count (some n) = 0 := by
  have hlive : t.Live n := ⟨number, kind, hlookup⟩
  exact ((h.closed_once n (h.lt_issued hlookup)).resolve_right (fun hdead => hdead.1 hlive)).2

/-- What was closed was closed once. -/
theorem Sound.count_eq_one
    {t : Table κ} (h : t.Sound) {n : Nat} (hmem : some n ∈ t.closed) :
    t.closed.count (some n) = 1 := by
  rcases h.closed_once n (h.closed_lt n hmem) with ⟨-, hzero⟩ | ⟨-, hone⟩
  · exact absurd hmem (List.count_eq_zero.mp hzero)
  · exact hone

@[simp] theorem lookup_openAs_self (kind : κ) (t : Table κ) (number : Nat) :
    (t.openAs kind number).entries.lookup number = some (t.issued, kind) :=
  AList.lookup_insert _

theorem lookup_openAs_ne (kind : κ) (t : Table κ) {number other : Nat} (h : other ≠ number) :
    (t.openAs kind number).entries.lookup other = t.entries.lookup other :=
  AList.lookup_insert_ne h

@[simp] theorem lookup_close_self (t : Table κ) (number : Nat) :
    (t.close number).entries.lookup number = none :=
  AList.lookup_erase _ _

theorem lookup_close_ne (t : Table κ) {number other : Nat} (h : other ≠ number) :
    (t.close number).entries.lookup other = t.entries.lookup other :=
  AList.lookup_erase_ne h

/-- Opening a fresh number opens one serial more, and leaves the others alone. -/
theorem live_openAs_iff
    (kind : κ) {t : Table κ} {number : Nat} (hfresh : number ∉ t.entries) (n : Nat) :
    (t.openAs kind number).Live n ↔ n = t.issued ∨ t.Live n := by
  constructor
  · rintro ⟨other, kind', h⟩
    rcases lookup_insert_cases h with ⟨-, hnew⟩ | ⟨-, h⟩
    · exact Or.inl (congrArg Prod.fst hnew)
    · exact Or.inr ⟨other, kind', h⟩
  · rintro (rfl | ⟨other, kind', h⟩)
    · exact ⟨number, kind, lookup_openAs_self kind t number⟩
    · have hother : other ≠ number := by
        rintro rfl
        exact hfresh (mem_of_lookup h)
      exact ⟨other, kind', by rw [lookup_openAs_ne kind t hother, h]⟩

theorem Sound.openAs
    {t : Table κ} (h : t.Sound) (kind : κ) {number : Nat} (hfresh : number ∉ t.entries) :
    (t.openAs kind number).Sound := by
  refine ⟨?_, ?_, ?_, ?_⟩
  · intro other n kind' hlookup
    rcases lookup_insert_cases hlookup with ⟨-, hnew⟩ | ⟨-, hlookup⟩
    · obtain rfl : n = t.issued := congrArg Prod.fst hnew
      exact Nat.lt_succ_self t.issued
    · exact Nat.lt_succ_of_lt (h.lt_issued hlookup)
  · intro a b n kindA kindB ha hb
    rcases lookup_insert_cases ha with ⟨rfl, hnew⟩ | ⟨-, ha⟩
    · obtain rfl : n = t.issued := congrArg Prod.fst hnew
      rcases lookup_insert_cases hb with ⟨rfl, -⟩ | ⟨-, hb⟩
      · rfl
      · exact absurd (h.lt_issued hb) (Nat.lt_irrefl _)
    · rcases lookup_insert_cases hb with ⟨-, hnew⟩ | ⟨-, hb⟩
      · obtain rfl : n = t.issued := congrArg Prod.fst hnew
        exact absurd (h.lt_issued ha) (Nat.lt_irrefl _)
      · exact h.number_unique ha hb
  · intro n hn
    have hclosed : (t.openAs kind number).closed = t.closed := rfl
    rw [live_openAs_iff kind hfresh, hclosed]
    by_cases hnew : n = t.issued
    · left
      refine ⟨Or.inl hnew, List.count_eq_zero.mpr ?_⟩
      intro hmem
      exact absurd (h.closed_lt n hmem) (by omega)
    · have hlt : n < t.issued := by
        have : n < t.issued + 1 := hn
        omega
      simpa [hnew] using h.closed_once n hlt
  · intro n hn
    exact Nat.lt_succ_of_lt (h.closed_lt n hn)

/-- A close ends the serial behind its number, if there is one. -/
theorem live_close_iff {t : Table κ} (h : t.Sound) (number n : Nat) :
    (t.close number).Live n ↔ t.Live n ∧ (t.entries.lookup number).map Prod.fst ≠ some n := by
  constructor
  · rintro ⟨other, kind, hlookup⟩
    obtain ⟨hother, hlookup⟩ := lookup_erase_cases hlookup
    refine ⟨⟨other, kind, hlookup⟩, ?_⟩
    intro hserial
    obtain ⟨⟨m, kind'⟩, hnumber, rfl⟩ := Option.map_eq_some_iff.mp hserial
    exact hother (h.number_unique hlookup hnumber)
  · rintro ⟨⟨other, kind, hlookup⟩, hserial⟩
    have hother : other ≠ number := by
      rintro rfl
      exact hserial (by rw [hlookup]; rfl)
    exact ⟨other, kind, by rw [lookup_close_ne t hother, hlookup]⟩

theorem Sound.close {t : Table κ} (h : t.Sound) (number : Nat) : (t.close number).Sound := by
  refine ⟨?_, ?_, ?_, ?_⟩
  · intro other n kind hlookup
    exact h.lt_issued (lookup_erase_cases hlookup).2
  · intro a b n kindA kindB ha hb
    exact h.number_unique (lookup_erase_cases ha).2 (lookup_erase_cases hb).2
  · intro n hn
    have hclosed : (t.close number).closed =
        t.closed ++ [(t.entries.lookup number).map Prod.fst] := rfl
    rw [live_close_iff h, hclosed, List.count_append, List.count_singleton]
    by_cases hserial : (t.entries.lookup number).map Prod.fst = some n
    · -- The serial that is closed now was live, so it was not closed before.
      obtain ⟨⟨m, kind⟩, hnumber, rfl⟩ := Option.map_eq_some_iff.mp hserial
      have hzero := h.count_eq_zero hnumber
      right
      simp [hnumber, hzero]
    · simpa [hserial] using h.closed_once n hn
  · intro n hn
    rcases List.mem_append.mp hn with hn | hn
    · exact h.closed_lt n hn
    · obtain ⟨⟨m, kind⟩, hnumber, rfl⟩ := Option.map_eq_some_iff.mp
        (List.mem_singleton.mp hn).symm
      exact h.lt_issued hnumber

section OpenAll

variable {kind : κ}

theorem openAll_cons (t : Table κ) (number : Nat) (numbers : List Nat) :
    t.openAll kind (number :: numbers) = (t.openAs kind number).openAll kind numbers := by
  rfl

theorem closed_openAll (t : Table κ) (numbers : List Nat) :
    (t.openAll kind numbers).closed = t.closed := by
  induction numbers generalizing t with
  | nil => rfl
  | cons number numbers ih =>
      rw [openAll_cons, ih]
      rfl

/-- The numbers that are not opened keep what stands behind them. -/
theorem lookup_openAll_of_not_mem
    {numbers : List Nat} {other : Nat} (h : other ∉ numbers) (t : Table κ) :
    (t.openAll kind numbers).entries.lookup other = t.entries.lookup other := by
  induction numbers generalizing t with
  | nil => rfl
  | cons number numbers ih =>
      simp only [List.mem_cons, not_or] at h
      rw [openAll_cons, ih h.2, lookup_openAs_ne kind t h.1]

theorem lookup_openAll_of_mem
    {numbers : List Nat} (hnodup : numbers.Nodup) {number : Nat} (h : number ∈ numbers)
    (t : Table κ) :
    ∃ n, (t.openAll kind numbers).entries.lookup number = some (n, kind) := by
  induction numbers generalizing t with
  | nil => simp at h
  | cons first numbers ih =>
      obtain ⟨hfirst, hnodup⟩ := List.nodup_cons.mp hnodup
      rw [openAll_cons]
      rcases List.mem_cons.mp h with rfl | h
      · rw [lookup_openAll_of_not_mem hfirst]
        exact ⟨t.issued, lookup_openAs_self kind t number⟩
      · exact ih hnodup h (t.openAs kind first)

theorem Sound.openAll
    {t : Table κ} (h : t.Sound) {numbers : List Nat} (hnodup : numbers.Nodup)
    (hfresh : ∀ number ∈ numbers, number ∉ t.entries) :
    (t.openAll kind numbers).Sound := by
  induction numbers generalizing t with
  | nil => exact h
  | cons number numbers ih =>
      obtain ⟨hnumber, hnodup⟩ := List.nodup_cons.mp hnodup
      rw [openAll_cons]
      refine ih (h.openAs kind (hfresh number (by simp))) hnodup ?_
      intro other hother hmem
      have hne : other ≠ number := fun heq => hnumber (heq ▸ hother)
      exact hfresh other (by simp [hother]) ((AList.mem_insert _).mp hmem |>.resolve_left hne)

end OpenAll

end Table

end Handles
