import Mathlib.Tactic.Common

/-!
# Transition systems and their runs

A labelled transition system, the runs between two states, and the one
induction that every safety result needs: what each step preserves, every run
preserves.  A result about the runs whose steps all meet a condition is a result
about the runs of the restricted system.

A component of a system comes into being in some step and then lives a run of its own
system, among the steps of all others (`Run.component`).
-/

namespace Transition

variable {σ ι : Type}

/-- A labelled transition system. -/
structure System (σ ι : Type) where
  init : σ → Prop
  step : σ → ι → σ → Prop

/-- The system with those steps only that meet a condition. -/
def System.restrict (S : System σ ι) (C : σ → ι → Prop) : System σ ι where
  init := S.init
  step s i t := C s i ∧ S.step s i t

/-- A run: a finite sequence of steps, with their labels in order. -/
inductive Run (S : System σ ι) : σ → List ι → σ → Prop
  | nil (s : σ) : Run S s [] s
  | cons {s t u : σ} {i : ι} {is : List ι} :
      S.step s i t →
      Run S t is u →
      Run S s (i :: is) u

/-- What every step preserves, every run preserves. -/
theorem Run.invariant {S : System σ ι} {I : σ → Prop}
    (hstep : ∀ s i t, I s → S.step s i t → I t)
    {s t : σ} {is : List ι}
    (hrun : Run S s is t)
    (hs : I s) :
    I t := by
  induction hrun with
  | nil => exact hs
  | cons hfirst _ ih => exact ih (hstep _ _ _ hs hfirst)

/-- A measure that every step decreases bounds the length of the runs. -/
theorem Run.length_le {S : System σ ι} {I : σ → Prop} {measure : σ → Nat}
    (hstep : ∀ s i t, I s → S.step s i t → I t ∧ measure t < measure s)
    {s t : σ} {is : List ι}
    (hrun : Run S s is t)
    (hs : I s) :
    is.length + measure t ≤ measure s := by
  induction hrun with
  | nil => simp
  | cons hfirst _ ih =>
      obtain ⟨ht, hlt⟩ := hstep _ _ _ hs hfirst
      have hrest := ih ht
      rw [List.length_cons]
      omega

/-- What holds of the label of every step holds of every label of a run. -/
theorem Run.labels {S : System σ ι} {I : σ → Prop} {P : ι → Prop}
    (hstep : ∀ s i t, I s → S.step s i t → I t ∧ P i)
    {s t : σ} {is : List ι}
    (hrun : Run S s is t)
    (hs : I s) :
    ∀ i ∈ is, P i := by
  induction hrun with
  | nil => simp
  | cons hfirst _ ih =>
      obtain ⟨ht, hlabel⟩ := hstep _ _ _ hs hfirst
      intro i hi
      rcases List.mem_cons.mp hi with rfl | hi
      · exact hlabel
      · exact ih ht i hi

/-- A run goes on with a run from where it ended. -/
theorem Run.append {S : System σ ι} {s t u : σ} {is js : List ι}
    (hrun : Run S s is t)
    (hrest : Run S t js u) :
    Run S s (is ++ js) u := by
  induction hrun with
  | nil => exact hrest
  | cons hfirst _ ih => exact .cons hfirst (ih hrest)

/-- When one system can answer every step of another, and stay related to it, it can
answer every run. -/
theorem Run.simulate {τ : Type} {S : System σ ι} {T : System τ ι} {R : σ → τ → Prop}
    (hstep : ∀ s s' i t, R s s' → S.step s i t → ∃ t', T.step s' i t' ∧ R t t')
    {s t : σ} {is : List ι}
    (hrun : Run S s is t) :
    ∀ {s' : τ}, R s s' → ∃ t', Run T s' is t' ∧ R t t' := by
  induction hrun with
  | nil s =>
      intro s' hs
      exact ⟨s', .nil s', hs⟩
  | cons hfirst _ ih =>
      intro s' hs
      obtain ⟨t', hfirst', ht⟩ := hstep _ _ _ _ hs hfirst
      obtain ⟨u', hrest', hu⟩ := ih ht
      exact ⟨u', .cons hfirst' hrest', hu⟩

/-- A run whose labels all meet a condition is a run of the restricted system. -/
theorem Run.restrict {S : System σ ι} {C : ι → Prop} {s t : σ} {is : List ι}
    (hrun : Run S s is t)
    (hall : ∀ i ∈ is, C i) :
    Run (S.restrict (fun _ i => C i)) s is t := by
  induction hrun with
  | nil s => exact .nil s
  | cons hfirst _ ih =>
      refine .cons ⟨hall _ (List.mem_cons_self ..), hfirst⟩ (ih ?_)
      exact fun i hi => hall i (List.mem_cons_of_mem _ hi)

/-- A run under a condition is a run under any condition that follows from it. -/
theorem Run.weaken {S : System σ ι} {C D : σ → ι → Prop} {s t : σ} {is : List ι}
    (hrun : Run (S.restrict C) s is t)
    (hle : ∀ s i, C s i → D s i) :
    Run (S.restrict D) s is t := by
  induction hrun with
  | nil s => exact .nil s
  | cons hfirst _ ih => exact .cons ⟨hle _ _ hfirst.1, hfirst.2⟩ ih

section Components

variable {τ κ : Type}

/-- How a component in a state of a run got there: it was there at the beginning, or it
came into being in a step, the last of its kind; and it lived a run of its own since. -/
inductive Lives (T : System τ κ) (own : ι → Option κ) (births : ι → τ → Prop)
    (before : Option τ) (is : List ι) (now : τ) : Prop
  | old {c : τ}
      (hbefore : before = some c)
      (hlater : ∀ j ∈ is, ∀ c', ¬ births j c')
      (hrun : Run T c (is.filterMap own) now)
  | born {earlier later : List ι} {i : ι} {c : τ}
      (his : is = earlier ++ i :: later)
      (hbirth : births i c)
      (hlater : ∀ j ∈ later, ∀ c', ¬ births j c')
      (hrun : Run T c (later.filterMap own) now)

/-- A system whose steps bring a component into being, or give it a step of its own, or
leave it alone: in every run the component lives a run of its own. -/
theorem Run.component {S : System σ ι} {T : System τ κ} {I : σ → Prop}
    {view : σ → Option τ} {own : ι → Option κ} {births : ι → τ → Prop}
    (hinv : ∀ s i t, I s → S.step s i t → I t)
    (hstep : ∀ s i t c', I s → S.step s i t → view t = some c' →
      births i c' ∨ (∀ c, ¬ births i c) ∧
        ∃ c, view s = some c ∧ Run T c (own i).toList c')
    {s t : σ} {is : List ι}
    (hrun : Run S s is t)
    (hs : I s)
    {now : τ}
    (hnow : view t = some now) :
    Lives T own births (view s) is now := by
  induction hrun with
  | nil => exact .old hnow (by simp) (.nil now)
  | @cons s t u i is hfirst _ ih =>
      cases ih (hinv _ _ _ hs hfirst) hnow with
      | @born earlier later j c his hbirth hlater hlife =>
          have hall : i :: is = (i :: earlier) ++ j :: later := by
            rw [his, List.cons_append]
          exact .born hall hbirth hlater hlife
      | @old c hbefore hlater hlife =>
          rcases hstep _ _ _ _ hs hfirst hbefore with hbirth | ⟨hquiet, c', hc', hown⟩
          · exact .born (List.nil_append _).symm hbirth hlater hlife
          · refine .old hc' ?_ ?_
            · intro j hj
              rcases List.mem_cons.mp hj with rfl | hj
              · exact hquiet
              · exact hlater j hj
            · have hlabels : (i :: is).filterMap own =
                  (own i).toList ++ is.filterMap own := by
                cases hi : own i <;> simp [hi]
              rw [hlabels]
              exact hown.append hlife

end Components

end Transition
