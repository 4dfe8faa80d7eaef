import Mathlib.Data.List.TakeWhile

/-!
# Delimited sequences

Lists cut at a separator, over any type with decidable equality.  `List.splitOn`
keeps the empty parts, and is the only inverse of a join (`splits_iff`); here are
its companions: the non-empty parts (`pieces`), the part before a terminator
(`upTo`), and equality up to repeated separators (`squeeze`).

The laws say how these behave under concatenation and how a terminator
that cuts a joined sequence acts on its pieces (`pieces_upTo_intercalate`).
-/

namespace Delimited

variable {α : Type} [DecidableEq α]

/-- The non-empty parts of a list between its separators. -/
def pieces (sep : α) (l : List α) : List (List α) :=
  (l.splitOn sep).filter (fun p => !p.isEmpty)

/-- The parts of a list between its separators: one more than there are separators, none
holds a separator, and joined with one separator between neighbours they are the list. -/
structure Splits (sep : α) (l : List α) (parts : List (List α)) : Prop where
  length : parts.length = l.count sep + 1
  not_mem : ∀ p ∈ parts, sep ∉ p
  join : [sep].intercalate parts = l

/-- The part of a list before its first terminator. -/
def upTo (stop : α) (l : List α) : List α :=
  l.takeWhile (fun x => x ≠ stop)

/-- Every run of separators replaced by a single one. -/
def squeeze (sep : α) : List α → List α
  | [] => []
  | x :: l =>
      if x = sep ∧ l.head? = some sep then squeeze sep l
      else x :: squeeze sep l

/-- A list with separators inserted at its end or next to a separator. -/
inductive Padded (sep : α) (l : List α) : List α → Prop
  | refl :
      Padded sep l l
  | atEnd {m : List α} :
      Padded sep l m →
      Padded sep l (m ++ [sep])
  | beside {a b : List α} :
      Padded sep l (a ++ sep :: b) →
      Padded sep l (a ++ sep :: sep :: b)

/-- The records of a list whose every record ends with the pair `x`, `y`, and
what follows the last one. -/
def records (x y : α) : List α → List (List α) × List α
  | [] => ([], [])
  | [a] => ([], [a])
  | a :: b :: l =>
      if a = x ∧ b = y then
        ([] :: (records x y l).1, (records x y l).2)
      else
        match records x y (b :: l) with
        | ([], rest) => ([], a :: rest)
        | (p :: ps, rest) => ((a :: p) :: ps, rest)

section SplitOn

variable (sep : α)

/-- No part of a split list holds the separator. -/
theorem not_mem_of_mem_splitOn {p : List α} :
    ∀ {l : List α}, p ∈ l.splitOn sep → sep ∉ p
  | [], hp => by
      have : p = [] := by simpa using hp
      simp [this]
  | x :: l, hp => by
      rw [List.splitOn_cons_eq_if_modifyHead] at hp
      by_cases hx : x = sep
      · rw [if_pos (by simpa using hx)] at hp
        rcases List.mem_cons.mp hp with rfl | hp
        · simp
        · exact not_mem_of_mem_splitOn hp
      · rw [if_neg (by simpa using hx)] at hp
        cases hl : l.splitOn sep with
        | nil => exact absurd hl (List.splitOn_ne_nil sep l)
        | cons q qs =>
            have ih : ∀ r ∈ q :: qs, sep ∉ r := by
              intro r hr
              rw [← hl] at hr
              exact not_mem_of_mem_splitOn hr
            rw [hl, List.modifyHead_cons] at hp
            rcases List.mem_cons.mp hp with rfl | hp
            · have hq : sep ∉ q := ih q (by simp)
              simp only [List.mem_cons, not_or]
              exact ⟨fun h => hx h.symm, hq⟩
            · exact ih p (by simp [hp])

@[simp] theorem splitOn_cons_self (l : List α) :
    (sep :: l).splitOn sep = [] :: l.splitOn sep := by
  simp [List.splitOn_cons_eq_if_modifyHead]

/-- One part more than there are separators. -/
theorem length_splitOn (l : List α) :
    (l.splitOn sep).length = l.count sep + 1 := by
  induction l with
  | nil => simp
  | cons x l ih =>
      by_cases hx : x = sep
      · subst hx
        rw [splitOn_cons_self, List.length_cons, ih, List.count_cons_self]
      · have hcount : (x :: l).count sep = l.count sep := List.count_cons_of_ne hx
        rw [List.splitOn_cons_eq_if_modifyHead, if_neg (by simpa using hx),
          List.length_modifyHead, ih, hcount]

/-- The split at the separators is the only list of the parts between them. -/
theorem splits_iff {l : List α} {parts : List (List α)} :
    Splits sep l parts ↔ parts = l.splitOn sep := by
  constructor
  · intro h
    have hne : parts ≠ [] := by
      intro hnil
      simpa [hnil] using h.length
    rw [← h.join, List.splitOn_intercalate sep h.not_mem hne]
  · rintro rfl
    exact ⟨length_splitOn sep l, fun p hp => not_mem_of_mem_splitOn sep hp,
      List.intercalate_splitOn sep⟩

variable {sep}

omit [DecidableEq α] in
/-- A list without separators is a prefix up to the first separator. -/
theorem prefix_append_cons_iff {p : List α} (hp : sep ∉ p) (a b : List α) :
    p <+: a ++ sep :: b ↔ p <+: a := by
  constructor
  · intro h
    rcases Nat.lt_or_ge a.length p.length with hlt | hge
    · have hle : (a ++ [sep]).length ≤ p.length := by
        rw [List.length_append, List.length_singleton]
        omega
      have hlong : a ++ [sep] <+: p :=
        List.prefix_of_prefix_length_le ⟨b, by simp⟩ h hle
      exact absurd (hlong.subset (by simp)) hp
    · exact List.prefix_of_prefix_length_le h (List.prefix_append _ _) hge
  · exact fun h => h.trans (List.prefix_append _ _)

/-- A list without empty parts has no separator at an end and no two in a row. -/
theorem separators_of_nil_not_mem_splitOn {l : List α} (hl : [] ∉ l.splitOn sep) :
    l.head? ≠ some sep ∧ l.getLast? ≠ some sep ∧ ¬ [sep, sep] <:+: l := by
  refine ⟨?_, ?_, ?_⟩
  · intro hhead
    obtain ⟨m, rfl⟩ := List.head?_eq_some_iff.mp hhead
    exact hl (by simp)
  · intro hlast
    obtain ⟨m, rfl⟩ := List.getLast?_eq_some_iff.mp hlast
    exact hl (by simp [List.splitOn_append_cons_self])
  · rintro ⟨a, b, rfl⟩
    exact hl (by simp [List.splitOn_append_cons_self])

end SplitOn

section Pieces

variable {sep : α}

@[simp] theorem pieces_nil : pieces sep [] = [] := by
  simp [pieces]

theorem pieces_append_cons (a b : List α) :
    pieces sep (a ++ sep :: b) = pieces sep a ++ pieces sep b := by
  simp [pieces, List.splitOn_append_cons_self]

@[simp] theorem pieces_cons_self (l : List α) :
    pieces sep (sep :: l) = pieces sep l := by
  simp [pieces]

@[simp] theorem pieces_append_singleton (a : List α) :
    pieces sep (a ++ [sep]) = pieces sep a := by
  rw [pieces_append_cons, pieces_nil, List.append_nil]

/-- A doubled separator cuts as a single one does. -/
theorem pieces_append_cons_cons (a b : List α) :
    pieces sep (a ++ sep :: sep :: b) = pieces sep (a ++ sep :: b) := by
  rw [pieces_append_cons, pieces_cons_self, pieces_append_cons]

theorem pieces_of_not_mem {l : List α} (hl : sep ∉ l) (hne : l ≠ []) :
    pieces sep l = [l] := by
  simp [pieces, List.splitOn_eq_singleton hl, hne]

/-- Leading separators contribute no piece. -/
theorem pieces_replicate_append (k : Nat) (l : List α) :
    pieces sep (List.replicate k sep ++ l) = pieces sep l := by
  induction k with
  | zero => simp
  | succ k ih => simpa [List.replicate_succ] using ih

/-- Joining pieces and cutting again gives the pieces back. -/
theorem pieces_intercalate {ps : List (List α)}
    (hps : ∀ p ∈ ps, p ≠ [] ∧ sep ∉ p) :
    pieces sep ([sep].intercalate ps) = ps := by
  induction ps with
  | nil => simp
  | cons p ps ih =>
      obtain ⟨hne, hmem⟩ := hps p (by simp)
      have ih := ih (fun q hq => hps q (by simp [hq]))
      cases ps with
      | nil =>
          rw [List.intercalate_singleton]
          exact pieces_of_not_mem hmem hne
      | cons q qs =>
          have hjoin : [sep].intercalate (p :: q :: qs) =
              p ++ sep :: [sep].intercalate (q :: qs) := by
            simp
          rw [hjoin, pieces_append_cons, ih, pieces_of_not_mem hmem hne]
          rfl

/-- Padding behind a first part keeps that part and the pieces behind it. -/
theorem Padded.exists_pieces {a b m : List α} (ha : sep ∉ a)
    (h : Padded sep (a ++ sep :: b) m) :
    ∃ c, m = a ++ sep :: c ∧ pieces sep c = pieces sep b := by
  induction h with
  | refl => exact ⟨b, rfl, rfl⟩
  | atEnd _ ih =>
      obtain ⟨c, rfl, hc⟩ := ih
      exact ⟨c ++ [sep], by simp, by rw [pieces_append_singleton, hc]⟩
  | @beside a' b' _ ih =>
      obtain ⟨c, heq, hc⟩ := ih
      rcases List.append_eq_append_iff.mp heq with ⟨u, rfl, hu⟩ | ⟨u, rfl, hu⟩
      · -- The separator that is doubled cannot be inside the first part.
        cases u with
        | nil =>
            obtain rfl : b' = c := by simpa using hu
            exact ⟨sep :: b', by simp, by rw [pieces_cons_self, hc]⟩
        | cons x u =>
            obtain rfl : sep = x := (List.cons.inj hu).1
            exact absurd (by simp) ha
      · cases u with
        | nil =>
            obtain rfl : c = b' := by simpa using hu
            exact ⟨sep :: c, by simp, by rw [pieces_cons_self, hc]⟩
        | cons x u =>
            obtain ⟨rfl, rfl⟩ : sep = x ∧ c = u ++ sep :: b' := by simpa using hu
            exact ⟨u ++ sep :: sep :: b', by simp, by rw [pieces_append_cons_cons, hc]⟩

omit [DecidableEq α] in
/-- One more part at the end of a joined list. -/
theorem intercalate_concat {ps : List (List α)} (hps : ps ≠ []) (p : List α) :
    [sep].intercalate (ps ++ [p]) = [sep].intercalate ps ++ sep :: p := by
  induction ps with
  | nil => exact absurd rfl hps
  | cons q ps ih =>
      cases ps with
      | nil => simp
      | cons r ps =>
          have ih := ih (by simp)
          simp only [List.cons_append] at ih ⊢
          rw [List.intercalate_cons_cons, List.intercalate_cons_cons, ih]
          simp

omit [DecidableEq α] in
/-- Parts behind a separator each are the joined parts behind one. -/
theorem flatMap_cons_eq {ps : List (List α)} (hps : ps ≠ []) :
    ps.flatMap (sep :: ·) = sep :: [sep].intercalate ps := by
  induction ps with
  | nil => exact absurd rfl hps
  | cons p ps ih =>
      cases ps with
      | nil => simp
      | cons q qs =>
          rw [List.flatMap_cons, ih (by simp), List.intercalate_cons_cons]
          simp

end Pieces

section UpTo

variable {stop : α}

@[simp] theorem upTo_nil : upTo stop [] = [] := by
  rfl

theorem not_mem_upTo (l : List α) : stop ∉ upTo stop l := by
  intro h
  simpa using List.mem_takeWhile_imp h

theorem upTo_of_not_mem {l : List α} (h : stop ∉ l) :
    upTo stop l = l := by
  rw [upTo, List.takeWhile_eq_self_iff]
  intro x hx
  simp only [ne_eq, decide_eq_true_eq]
  rintro rfl
  exact h hx

/-- A terminator in the first part hides the second one. -/
theorem upTo_append_of_mem {a : List α} (h : stop ∈ a) (b : List α) :
    upTo stop (a ++ b) = upTo stop a := by
  induction a with
  | nil => simp at h
  | cons x a ih =>
      by_cases hx : x = stop
      · simp [upTo, hx]
      · have ha : stop ∈ a := by
          rcases List.mem_cons.mp h with h | h
          · exact absurd h.symm hx
          · exact h
        have ih := ih ha
        simp only [upTo, List.cons_append, ne_eq] at ih ⊢
        rw [List.takeWhile_cons, List.takeWhile_cons, ih]

theorem upTo_append_of_not_mem {a : List α} (h : stop ∉ a) (b : List α) :
    upTo stop (a ++ b) = a ++ upTo stop b := by
  rw [upTo, List.takeWhile_append_of_pos]
  · rfl
  · intro x hx
    simp only [ne_eq, decide_eq_true_eq]
    rintro rfl
    exact h hx

/-- What a terminator leaves of a sequence of pieces: those before the first
piece that holds it, then the beginning of that piece. -/
def cutPieces (stop : α) : List (List α) → List (List α)
  | [] => []
  | p :: ps =>
      if stop ∈ p then (if upTo stop p = [] then [] else [upTo stop p])
      else p :: cutPieces stop ps

/-- A terminator that cuts a joined sequence cuts its pieces. -/
theorem pieces_upTo_intercalate {sep : α} (hsep : sep ≠ stop)
    {ps : List (List α)} (hps : ∀ p ∈ ps, p ≠ [] ∧ sep ∉ p) :
    pieces sep (upTo stop ([sep].intercalate ps)) = cutPieces stop ps := by
  induction ps with
  | nil => simp [cutPieces]
  | cons p ps ih =>
      obtain ⟨hne, hmem⟩ := hps p (by simp)
      have ih := ih (fun q hq => hps q (by simp [hq]))
      have hcut : sep ∉ upTo stop p :=
        fun h => hmem ((List.takeWhile_prefix _).subset h)
      have hjoin : ∃ rest, [sep].intercalate (p :: ps) = p ++ rest ∧
          pieces sep (p ++ upTo stop rest) =
            p :: pieces sep (upTo stop ([sep].intercalate ps)) := by
        cases ps with
        | nil =>
            exact ⟨[], by simp, by simp [pieces_of_not_mem hmem hne]⟩
        | cons q qs =>
            refine ⟨sep :: [sep].intercalate (q :: qs), by simp, ?_⟩
            have hupTo : upTo stop (sep :: [sep].intercalate (q :: qs)) =
                sep :: upTo stop ([sep].intercalate (q :: qs)) := by
              simp [upTo, hsep]
            rw [hupTo, pieces_append_cons, pieces_of_not_mem hmem hne]
            rfl
      obtain ⟨rest, hrest, hpieces⟩ := hjoin
      rw [hrest]
      by_cases hp : stop ∈ p
      · rw [upTo_append_of_mem hp, cutPieces, if_pos hp]
        split_ifs with hnil
        · simp [hnil]
        · exact pieces_of_not_mem hcut hnil
      · rw [upTo_append_of_not_mem hp, hpieces, ih, cutPieces, if_neg hp]

end UpTo

section Records

variable {x y : α}

/-- Writing the records back gives the list back. -/
theorem flatMap_records (l : List α) :
    (records x y l).1.flatMap (fun p => p ++ [x, y]) ++ (records x y l).2 = l := by
  induction l using records.induct x y with
  | case1 => rfl
  | case2 a => rfl
  | case3 a b l hab ih =>
      obtain ⟨rfl, rfl⟩ := hab
      simpa [records] using ih
  | case4 a b l hab rest hrec ih =>
      rw [hrec] at ih
      rw [records, if_neg hab, hrec]
      simpa using ih
  | case5 a b l hab p ps rest hrec ih =>
      rw [hrec] at ih
      rw [records, if_neg hab, hrec]
      simpa using ih

/-- A first record without `x` is cut off at its end. -/
theorem records_append {p : List α} (hp : x ∉ p) (l : List α) :
    records x y (p ++ x :: y :: l) =
      (p :: (records x y l).1, (records x y l).2) := by
  induction p with
  | nil => simp [records]
  | cons a p ih =>
      have ha : a ≠ x := fun h => hp (by simp [h])
      have ih := ih (fun h => hp (by simp [h]))
      have htail : ∃ b t, p ++ x :: y :: l = b :: t := by
        cases p with
        | nil => exact ⟨x, y :: l, rfl⟩
        | cons b p => exact ⟨b, p ++ x :: y :: l, rfl⟩
      obtain ⟨b, t, hbt⟩ := htail
      rw [hbt] at ih
      rw [List.cons_append, hbt, records, if_neg (fun h => ha h.1), ih]

end Records

section Squeeze

variable {sep : α}

/-- A separator in front of another one is invisible up to repetition. -/
theorem squeeze_append_cons_cons (a b : List α) :
    squeeze sep (a ++ sep :: sep :: b) = squeeze sep (a ++ sep :: b) := by
  induction a with
  | nil => simp [squeeze]
  | cons x a ih =>
      have hhead : (a ++ sep :: sep :: b).head? = (a ++ sep :: b).head? := by
        cases a <;> simp
      simp only [List.cons_append, squeeze, hhead, ih]

/-- Repetitions do not change how a list ends. -/
@[simp] theorem getLast?_squeeze (l : List α) :
    (squeeze sep l).getLast? = l.getLast? := by
  induction l with
  | nil =>
      rfl
  | cons x l ih =>
      rw [squeeze]
      split_ifs with hrun
      · rw [ih, List.getLast?_cons]
        cases l with
        | nil => simp at hrun
        | cons y l =>
            rw [List.getLast?_cons]
            rfl
      · rw [List.getLast?_cons, List.getLast?_cons, ih]

/-- Repetitions before a terminator are squeezed like those of the whole list. -/
theorem squeeze_upTo
    {stop : α} (hsep : sep ≠ stop) (l : List α) :
    squeeze sep (upTo stop l) = upTo stop (squeeze sep l) := by
  induction l with
  | nil =>
      rfl
  | cons x l ih =>
      by_cases hx : x = stop
      · have hne : ¬ (x = sep ∧ l.head? = some sep) := fun h => hsep (h.1.symm.trans hx)
        rw [squeeze, if_neg hne]
        simp [upTo, hx, squeeze]
      · have hcons : upTo stop (x :: l) = x :: upTo stop l := by
          simp [upTo, hx]
        have hhead : (upTo stop l).head? = some sep ↔ l.head? = some sep := by
          cases l with
          | nil =>
              rfl
          | cons y l =>
              by_cases hy : y = stop
              · simp [upTo, hy, hsep.symm]
              · simp [upTo, hy]
        rw [hcons, squeeze, squeeze]
        simp only [hhead, ih]
        split_ifs with hrun
        · rfl
        · simp [upTo, hx]

end Squeeze

end Delimited
