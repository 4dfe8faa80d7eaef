import Mathlib.Data.List.AList

/-!
# Numbered registries

Keys are registered one after the other, and the `i`-th key gets the `i`-th of a
sequence of distinct names.  Two finite maps make up such a registry: one from
keys to names, and one from names to the values that belong to the keys.

`Names` and `Values` say what the maps hold after a given sequence of
registrations; `Names.insert` and `Values.insert` are the step of one more.
The remaining laws are what distinct names give: a name belongs to one key, and
a key and its value have the same name.

`Extends` compares two states of one map: what was registered is registered still.
-/

namespace Numbering

variable {κ ν β : Type} [DecidableEq κ] [DecidableEq ν]

/-- The map sends the `i`-th key to the `i`-th name, and knows no other key. -/
structure Names (name : ℕ → ν) (keys : List κ) (m : AList (fun _ : κ => ν)) : Prop where
  size : m.entries.length = keys.length
  lookup : ∀ k v, m.lookup k = some v ↔ ∃ i, keys[i]? = some k ∧ v = name i

/-- The map sends the `i`-th name to the `i`-th value, and knows no other name. -/
def Values (name : ℕ → ν) (vals : List β) (m : AList (fun _ : ν => β)) : Prop :=
  ∀ v b, m.lookup v = some b ↔ ∃ i, vals[i]? = some b ∧ v = name i

omit [DecidableEq κ] [DecidableEq ν] in
/-- The elements of a list with one more at the end. -/
theorem getElem?_concat_eq_some_iff {α : Type} (l : List α) (a b : α) (i : ℕ) :
    (l ++ [a])[i]? = some b ↔ l[i]? = some b ∨ i = l.length ∧ a = b := by
  by_cases hlt : i < l.length
  · rw [List.getElem?_append_left hlt]
    constructor
    · exact Or.inl
    · rintro (h | ⟨rfl, -⟩)
      · exact h
      · omega
  · rw [List.getElem?_append_right (by omega)]
    have hnone : l[i]? = none := List.getElem?_eq_none (by omega)
    by_cases heq : i = l.length
    · simp [heq]
    · have hpos : i - l.length ≠ 0 := by omega
      cases hsub : i - l.length with
      | zero => omega
      | succ j => simp [hnone, heq]

section Names

variable {name : ℕ → ν} {keys : List κ} {m : AList (fun _ : κ => ν)}

omit [DecidableEq ν] in
theorem Names.empty : Names name [] (∅ : AList (fun _ : κ => ν)) :=
  ⟨rfl, by simp⟩

omit [DecidableEq ν] in
/-- The registered keys are those of the map. -/
theorem Names.mem_iff (h : Names name keys m) (k : κ) : k ∈ m ↔ k ∈ keys := by
  rw [← AList.lookup_isSome, Option.isSome_iff_exists, List.mem_iff_getElem?]
  constructor
  · rintro ⟨v, hv⟩
    obtain ⟨i, hi, -⟩ := (h.lookup k v).mp hv
    exact ⟨i, hi⟩
  · rintro ⟨i, hi⟩
    exact ⟨name i, (h.lookup k _).mpr ⟨i, hi, rfl⟩⟩

omit [DecidableEq ν] in
/-- One more key gets the next name. -/
theorem Names.insert (h : Names name keys m) {k : κ} (hk : k ∉ m) :
    Names name (keys ++ [k]) (m.insert k (name m.entries.length)) := by
  have hkeys : k ∉ keys := fun hmem => hk ((h.mem_iff k).mpr hmem)
  constructor
  · rw [AList.entries_insert_of_notMem hk]
    simp [h.size]
  · intro k' v
    by_cases heq : k' = k
    · subst heq
      rw [AList.lookup_insert, h.size]
      constructor
      · intro hv
        exact ⟨keys.length, by simp, (Option.some.inj hv).symm⟩
      · rintro ⟨i, hi, rfl⟩
        rcases (getElem?_concat_eq_some_iff keys k' k' i).mp hi with hi | ⟨rfl, -⟩
        · exact absurd (List.mem_of_getElem? hi) hkeys
        · rfl
    · rw [AList.lookup_insert_ne heq, h.lookup]
      constructor
      · rintro ⟨i, hi, rfl⟩
        exact ⟨i, (getElem?_concat_eq_some_iff keys k k' i).mpr (Or.inl hi), rfl⟩
      · rintro ⟨i, hi, rfl⟩
        rcases (getElem?_concat_eq_some_iff keys k k' i).mp hi with hi | ⟨-, rfl⟩
        · exact ⟨i, hi, rfl⟩
        · exact absurd rfl heq

omit [DecidableEq ν] in
/-- Distinct names belong to distinct keys. -/
theorem Names.key_injective (h : Names name keys m) (hname : Function.Injective name)
    {k k' : κ} {v : ν} (hk : m.lookup k = some v) (hk' : m.lookup k' = some v) :
    k = k' := by
  obtain ⟨i, hi, rfl⟩ := (h.lookup k v).mp hk
  obtain ⟨j, hj, hij⟩ := (h.lookup k' _).mp hk'
  rw [hname hij, hj] at hi
  exact (Option.some.inj hi).symm

end Names

section Values

variable {name : ℕ → ν} {vals : List β} {m : AList (fun _ : ν => β)}

theorem Values.empty : Values name [] (∅ : AList (fun _ : ν => β)) := by
  intro v b
  simp

/-- The next name is not in use. -/
theorem Values.next_notMem (h : Values name vals m) (hname : Function.Injective name) :
    name vals.length ∉ m := by
  rw [← AList.lookup_isSome, Option.isSome_iff_exists]
  rintro ⟨b, hb⟩
  obtain ⟨i, hi, hlen⟩ := (h _ b).mp hb
  have hlt : i < vals.length := (List.getElem?_eq_some_iff.mp hi).1
  have := hname hlen
  omega

/-- One more value gets the next name. -/
theorem Values.insert (h : Values name vals m) (hname : Function.Injective name) (b : β) :
    Values name (vals ++ [b]) (m.insert (name vals.length) b) := by
  intro v c
  by_cases heq : v = name vals.length
  · subst heq
    rw [AList.lookup_insert]
    constructor
    · intro hc
      exact ⟨vals.length, by rw [Option.some.inj hc]; simp, rfl⟩
    · rintro ⟨i, hi, hlen⟩
      rw [← hname hlen] at hi
      simpa using hi
  · rw [AList.lookup_insert_ne heq, h]
    constructor
    · rintro ⟨i, hi, rfl⟩
      exact ⟨i, (getElem?_concat_eq_some_iff vals b c i).mpr (Or.inl hi), rfl⟩
    · rintro ⟨i, hi, rfl⟩
      rcases (getElem?_concat_eq_some_iff vals b c i).mp hi with hi | ⟨rfl, -⟩
      · exact ⟨i, hi, rfl⟩
      · exact absurd rfl heq

end Values

/-- The second map still holds all that the first one held. -/
def Extends (m m' : AList (fun _ : κ => β)) : Prop :=
  ∀ k b, m.lookup k = some b → m'.lookup k = some b

section Extends

variable {m m' : AList (fun _ : κ => β)}

omit [DecidableEq ν] in
theorem Extends.refl (m : AList (fun _ : κ => β)) : Extends m m :=
  fun _ _ h => h

omit [DecidableEq ν] in
/-- A new key takes the place of no other one. -/
theorem Extends.insert
    (h : Extends m m') {k : κ} (hk : k ∉ m') (b : β) :
    Extends m (m'.insert k b) := by
  intro k' b' hlookup
  have hold := h k' b' hlookup
  have hne : k' ≠ k := by
    rintro rfl
    rw [AList.lookup_eq_none.mpr hk] at hold
    cases hold
  rw [AList.lookup_insert_ne hne]
  exact hold

end Extends

end Numbering
