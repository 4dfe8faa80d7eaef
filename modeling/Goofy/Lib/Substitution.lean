import Mathlib.Data.List.Basic

/-!
# Substituting a word for another

Two ways to put a word in place of every occurrence of a needle: `substitute` goes
through the text once, and `replaceLoop` replaces the first occurrence as long as
there is one, each time from the beginning of the text.

The two agree on a text of segments that are joined by the needle, when the needle
does not occur in the word and the segments keep the word apart from the needle
(`replaceLoop_segments`).  When the needle does occur in the word, the loop has no
end (`replaceLoop_eq_none`).
-/

namespace Substitution

variable {α : Type*} [DecidableEq α]

/-- Put the word for the occurrences of the needle, from left to right.  The number
counts the symbols of an occurrence that are still to be left out. -/
def substituteFrom (needle word : List α) : Nat → List α → List α
  | _, [] => []
  | skip + 1, _ :: s => substituteFrom needle word skip s
  | 0, a :: s =>
      if needle.isPrefixOf (a :: s) then
        word ++ substituteFrom needle word (needle.length - 1) s
      else
        a :: substituteFrom needle word 0 s

def substitute (needle word : List α) : List α → List α :=
  substituteFrom needle word 0

/-- Put the word for the first occurrence of the needle. -/
def replaceFirst (needle word : List α) : List α → Option (List α)
  | [] => if needle = [] then some word else none
  | a :: s =>
      if needle.isPrefixOf (a :: s) then some (word ++ (a :: s).drop needle.length)
      else (replaceFirst needle word s).map (a :: ·)

/-- Replace first occurrences until there is none, in a number of rounds. -/
def replaceLoop (needle word : List α) : Nat → List α → Option (List α)
  | 0, _ => none
  | rounds + 1, s =>
      match replaceFirst needle word s with
      | none => some s
      | some s' => replaceLoop needle word rounds s'

variable {needle word s : List α}

theorem replaceFirst_eq_none_iff :
    replaceFirst needle word s = none ↔ ¬ needle <:+: s := by
  induction s with
  | nil => simp [replaceFirst]
  | cons a s ih =>
      rw [replaceFirst, List.infix_cons_iff, ← List.isPrefixOf_iff_prefix]
      split_ifs with hstarts
      · simp [hstarts]
      · simp [hstarts, ih]

/-- The word is there once it has replaced something. -/
theorem infix_of_replaceFirst
    {s' : List α} (h : replaceFirst needle word s = some s') :
    word <:+: s' := by
  induction s generalizing s' with
  | nil =>
      rw [replaceFirst] at h
      split_ifs at h
      obtain rfl := Option.some.inj h
      exact List.infix_rfl
  | cons a s ih =>
      rw [replaceFirst] at h
      split_ifs at h
      · obtain rfl := Option.some.inj h
        exact (List.prefix_append _ _).isInfix
      · obtain ⟨t, ht, rfl⟩ := Option.map_eq_some_iff.mp h
        exact List.infix_cons (ih ht)

/-- A word that brings the needle back is replaced without end. -/
theorem replaceLoop_eq_none
    (hword : needle <:+: word) (hs : needle <:+: s) (rounds : Nat) :
    replaceLoop needle word rounds s = none := by
  induction rounds generalizing s with
  | zero => rfl
  | succ rounds ih =>
      rw [replaceLoop]
      cases hfirst : replaceFirst needle word s with
      | none => exact absurd hs (replaceFirst_eq_none_iff.mp hfirst)
      | some s' => exact ih (hword.trans (infix_of_replaceFirst hfirst))

omit [DecidableEq α] in
/-- An occurrence does not cross a symbol that the needle does not have. -/
theorem infix_append_cons_iff
    {x y : List α} {b : α} (hb : b ∉ needle) :
    needle <:+: x ++ b :: y ↔ needle <:+: x ∨ needle <:+: y := by
  constructor
  · intro h
    obtain ⟨before, after, heq⟩ := h
    rw [List.append_assoc, List.append_eq_append_iff] at heq
    rcases heq with ⟨u, hx, hafter⟩ | ⟨u, hbefore, htail⟩
    · rw [List.append_eq_append_iff] at hafter
      rcases hafter with ⟨v, hu, -⟩ | ⟨v, hneedle, hv⟩
      · left
        exact ⟨before, v, by simp [hx, hu]⟩
      · cases v with
        | nil =>
            left
            exact ⟨before, [], by simp [hx, hneedle]⟩
        | cons c v =>
            have hc : b = c := by simpa using congrArg List.head? hv
            exact absurd (by simp [hneedle, hc]) hb
    · cases u with
      | nil =>
          cases needle with
          | nil => exact Or.inl (List.nil_infix)
          | cons c needle =>
              have hc : b = c := by simpa using congrArg List.head? htail
              exact absurd (by simp [hc]) hb
      | cons c u =>
          right
          have hy : y = u ++ (needle ++ after) := by simpa using congrArg List.tail htail
          exact ⟨u, after, by simp [hy]⟩
  · rintro (h | h)
    · exact h.trans (List.prefix_append _ _).isInfix
    · exact h.trans ((List.suffix_cons b y).trans (List.suffix_append _ _)).isInfix

section Substitute

variable {a : α} {needle : List α}

theorem substituteFrom_drop (word : List α) (skip : Nat) (s : List α) :
    substituteFrom needle word skip s = substituteFrom needle word 0 (s.drop skip) := by
  induction skip generalizing s with
  | zero => simp
  | succ skip ih =>
      cases s with
      | nil => simp [substituteFrom]
      | cons b s => rw [substituteFrom, ih, List.drop_succ_cons]

/-- A text without the first symbol of the needle stays as it is. -/
theorem substitute_append
    {seg : List α} (hseg : a ∉ seg) (word rest : List α) :
    substitute (a :: needle) word (seg ++ rest) =
      seg ++ substitute (a :: needle) word rest := by
  induction seg with
  | nil => rfl
  | cons b seg ih =>
      have hne : a ≠ b := fun h => hseg (by simp [h])
      have ih := ih (fun h => hseg (by simp [h]))
      unfold substitute at ih ⊢
      simp [substituteFrom, hne, ih]

theorem substitute_needle_append (word rest : List α) :
    substitute (a :: needle) word ((a :: needle) ++ rest) =
      word ++ substitute (a :: needle) word rest := by
  have hstarts : (a :: needle).isPrefixOf (a :: (needle ++ rest)) = true := by
    rw [List.isPrefixOf_iff_prefix]
    exact List.prefix_append (a :: needle) rest
  rw [substitute, List.cons_append, substituteFrom, if_pos hstarts, substituteFrom_drop]
  simp

theorem substitute_segments
    {segs : List (List α)} (hsegs : ∀ seg ∈ segs, a ∉ seg)
    {done : List α} (hdone : a ∉ done) (word : List α) :
    substitute (a :: needle) word (done ++ segs.flatMap ((a :: needle) ++ ·)) =
      done ++ segs.flatMap (word ++ ·) := by
  rw [substitute_append hdone]
  congr 1
  induction segs with
  | nil => rfl
  | cons seg segs ih =>
      have ih := ih (fun s hs => hsegs s (by simp [hs]))
      rw [List.flatMap_cons, List.append_assoc, substitute_needle_append,
        substitute_append (hsegs seg (by simp)), ih]
      simp

end Substitute

/-- A segment between two needles: what is put beside it makes no new occurrence of
the needle. -/
structure Segment (needle seg : List α) : Prop where
  not_infix : ¬ needle <:+: seg
  head : ∃ a rest, seg = a :: rest ∧ a ∉ needle
  last : ∃ rest a, seg = rest ++ [a] ∧ a ∉ needle

omit [DecidableEq α] in
/-- Two segments keep the word between them apart. -/
theorem Segment.append
    {left right : List α} (hleft : Segment needle left) (hright : Segment needle right)
    (hword : ¬ needle <:+: word) :
    Segment needle (left ++ word ++ right) := by
  obtain ⟨first, rest, hfirst, hfirstOut⟩ := hleft.head
  obtain ⟨init, b, hb, hbOut⟩ := hleft.last
  obtain ⟨c, tail, hc, hcOut⟩ := hright.head
  obtain ⟨front, last, hlast, hlastOut⟩ := hright.last
  refine ⟨?_, ?_, ?_⟩
  · have hinit : ¬ needle <:+: init := by
      intro h
      exact hleft.not_infix (by rw [hb]; exact h.trans (List.prefix_append _ _).isInfix)
    have htail : ¬ needle <:+: tail := by
      intro h
      exact hright.not_infix (by rw [hc]; exact h.trans (List.suffix_cons _ _).isInfix)
    have hsplit : left ++ word ++ right = init ++ b :: (word ++ c :: tail) := by
      simp [hb, hc]
    rw [hsplit, infix_append_cons_iff hbOut, infix_append_cons_iff hcOut]
    tauto
  · exact ⟨first, rest ++ word ++ right, by simp [hfirst], hfirstOut⟩
  · exact ⟨left ++ word ++ front, last, by simp [hlast], hlastOut⟩

omit [DecidableEq α] in
/-- Without the first symbol of the needle only the ends of a segment matter. -/
theorem Segment.of_not_mem
    {a : α} {needle seg : List α} (hseg : a ∉ seg)
    (hhead : ∃ b ∈ seg.head?, b ∉ a :: needle)
    (hlast : ∃ b ∈ seg.getLast?, b ∉ a :: needle) :
    Segment (a :: needle) seg := by
  refine ⟨fun h => hseg (h.subset (by simp)), ?_, ?_⟩
  · obtain ⟨b, hb, hout⟩ := hhead
    cases seg with
    | nil => simp at hb
    | cons c rest =>
        obtain rfl : c = b := by simpa using hb
        exact ⟨c, rest, rfl, hout⟩
  · obtain ⟨b, hb, hout⟩ := hlast
    exact ⟨seg.dropLast, b, (List.dropLast_append_getLast? b hb).symm, hout⟩

section Needle

/-! The first symbol of the needle occurs in it once only, so occurrences do not
overlap. -/

variable {a : α} {needle : List α} (ha : a ∉ needle)
include ha

/-- A needle behind a text without occurrences is the first one. -/
theorem replaceFirst_append
    {done : List α} (hdone : ¬ a :: needle <:+: done) (word rest : List α) :
    replaceFirst (a :: needle) word (done ++ (a :: needle) ++ rest) =
      some (done ++ word ++ rest) := by
  induction done with
  | nil =>
      have hstarts : (a :: needle).isPrefixOf (a :: (needle ++ rest)) = true := by
        rw [List.isPrefixOf_iff_prefix]
        exact List.prefix_append (a :: needle) rest
      simp only [List.nil_append, List.cons_append, replaceFirst, if_pos hstarts]
      simp
  | cons d done ih =>
      have hnot : ¬ a :: needle <+: d :: done ++ (a :: needle ++ rest) := by
        intro hstarts
        rcases List.prefix_or_prefix_of_prefix hstarts
            (List.prefix_append (d :: done) _) with hin | ⟨u, hu⟩
        · exact hdone hin.isInfix
        · cases u with
          | nil =>
              rw [List.append_nil] at hu
              exact hdone (hu ▸ List.infix_rfl)
          | cons b u =>
              rw [← hu, List.prefix_append_right_inj] at hstarts
              have hbd : b = d := (List.cons_prefix_cons.mp hstarts).1
              obtain ⟨hda, htail⟩ := List.cons.inj hu
              exact ha (by rw [← htail, hbd, hda]; simp)
      have hdone' : ¬ a :: needle <:+: done := fun h => hdone (List.infix_cons h)
      rw [← List.isPrefixOf_iff_prefix] at hnot
      simp only [List.cons_append, List.append_assoc] at hnot ih ⊢
      rw [replaceFirst, if_neg hnot, ih hdone']
      rfl

/-- The loop ends after as many rounds as there are needles, with the word in place
of each of them. -/
theorem replaceLoop_segments
    {word : List α} (hword : ¬ a :: needle <:+: word)
    {segs : List (List α)} (hsegs : ∀ seg ∈ segs, Segment (a :: needle) seg)
    {done : List α} (hdone : Segment (a :: needle) done)
    {rounds : Nat} (hrounds : segs.length < rounds) :
    replaceLoop (a :: needle) word rounds (done ++ segs.flatMap ((a :: needle) ++ ·)) =
      some (done ++ segs.flatMap (word ++ ·)) := by
  induction segs generalizing done rounds with
  | nil =>
      match rounds with
      | rounds + 1 =>
          have hfirst : replaceFirst (a :: needle) word done = none :=
            replaceFirst_eq_none_iff.mpr hdone.not_infix
          simp [replaceLoop, hfirst]
  | cons seg segs ih =>
      match rounds with
      | rounds + 1 =>
          have hfirst := replaceFirst_append ha hdone.not_infix word
            (seg ++ segs.flatMap ((a :: needle) ++ ·))
          have hstep := ih (fun s hs => hsegs s (by simp [hs]))
            (hdone.append (hsegs seg (by simp)) hword) (Nat.lt_of_succ_lt_succ hrounds)
          simp only [List.flatMap_cons, List.append_assoc] at hfirst hstep ⊢
          rw [replaceLoop, hfirst]
          exact hstep

end Needle

end Substitution
