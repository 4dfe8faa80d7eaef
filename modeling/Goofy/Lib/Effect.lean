import Mathlib.Data.List.Forall2
import Mathlib.Tactic.Common

/-!
# Programs with exceptions and a state that survives them

A program over states `σ` with exceptions `ε` runs to an outcome (a value or an
exception) and a final state.  An exception does not undo what the program did
to the state before it was raised: this is the discipline of C++, and the
reason why the exception transformer sits over the state monad here.

The module gives the equations of `exec`, one for every way to build a program,
and a small logic of pre- and postconditions.  A postcondition sees the outcome,
so one triple speaks of normal and exceptional exits together.  `Preserves` is
the special case of an invariant of the state, `Exits` that of the values and
exceptions alone.
-/

namespace Effect

variable {ε σ τ α β : Type}

/-- Without a state, too, a sequence returns only through a first part that
returned. -/
theorem except_bind_eq_ok_iff
    (x : Except ε α) (f : α → Except ε β) (b : β) :
    x >>= f = .ok b ↔ ∃ a, x = .ok a ∧ f a = .ok b := by
  cases x with
  | ok a => simp [bind, Except.bind]
  | error e => simp [bind, Except.bind]

/-- Programs: a state transformer that may end in an exception. -/
abbrev Prog (ε σ : Type) : Type → Type :=
  ExceptT ε (StateM σ)

namespace Prog

/-- Outcome and final state of a program. -/
def exec (x : Prog ε σ α) (s : σ) : Except ε α × σ :=
  (ExceptT.run x).run s

/-- A primitive action: one call to something outside the program. -/
def prim (f : σ → Except ε α × σ) : Prog ε σ α :=
  ExceptT.mk (fun s => f s)

/-- Run a program on one part of a larger state. -/
def zoom (get : τ → σ) (set : σ → τ → τ) (x : Prog ε σ α) : Prog ε τ α :=
  prim (fun t =>
    match exec x (get t) with
    | (r, s) => (r, set s t))

/-- A computation without effects, as a program. -/
def lift (x : Except ε α) : Prog ε σ α :=
  prim (fun s => (x, s))

@[simp] theorem exec_pure (a : α) (s : σ) :
    exec (pure a : Prog ε σ α) s = (.ok a, s) := by
  rfl

theorem exec_bind (x : Prog ε σ α) (f : α → Prog ε σ β) (s : σ) :
    exec (x >>= f) s =
      match exec x s with
      | (.ok a, s') => exec (f a) s'
      | (.error e, s') => (.error e, s') := by
  simp only [exec, ExceptT.run_bind, StateT.run_bind]
  cases (ExceptT.run x).run s with
  | mk r s' => cases r <;> rfl

@[simp] theorem exec_throw (e : ε) (s : σ) :
    exec (throw e : Prog ε σ α) s = (.error e, s) := by
  rfl

theorem exec_tryCatch (x : Prog ε σ α) (h : ε → Prog ε σ α) (s : σ) :
    exec (tryCatch x h) s =
      match exec x s with
      | (.ok a, s') => (.ok a, s')
      | (.error e, s') => exec (h e) s' := by
  have hrun :
      exec (tryCatch x h) s =
        exec (ExceptT.mk (ExceptT.run x >>= fun r =>
          match r with
          | .ok a => pure (.ok a)
          | .error e => ExceptT.run (h e))) s := by
    rfl
  rw [hrun]
  simp only [exec, ExceptT.run_mk, StateT.run_bind]
  cases (ExceptT.run x).run s with
  | mk r s' => cases r <;> rfl

@[simp] theorem exec_prim (f : σ → Except ε α × σ) (s : σ) :
    exec (prim f) s = f s := by
  rfl

@[simp] theorem exec_lift (x : Except ε α) (s : σ) :
    exec (lift x : Prog ε σ α) s = (x, s) := by
  rfl

@[simp] theorem exec_zoom
    (get : τ → σ) (set : σ → τ → τ)
    (x : Prog ε σ α) (t : τ) :
    exec (zoom get set x) t =
      ((exec x (get t)).1, set (exec x (get t)).2 t) := by
  rfl

@[simp] theorem lift_ok_bind (a : α) (f : α → Prog ε σ β) :
    (lift (.ok a) : Prog ε σ α) >>= f = f a := by
  rfl

@[simp] theorem lift_error_bind (e : ε) (f : α → Prog ε σ β) :
    (lift (.error e) : Prog ε σ α) >>= f = throw e := by
  rfl

@[simp] theorem throw_bind (e : ε) (f : α → Prog ε σ β) :
    (throw e : Prog ε σ α) >>= f = throw e := by
  rfl

/-- Sequencing after a step that returned. -/
theorem exec_bind_ok
    {x : Prog ε σ α} {f : α → Prog ε σ β}
    {s s' : σ} {a : α}
    (hx : exec x s = (.ok a, s')) :
    exec (x >>= f) s = exec (f a) s' := by
  rw [exec_bind, hx]

/-- Sequencing after a step that threw. -/
theorem exec_bind_error
    {x : Prog ε σ α} {f : α → Prog ε σ β}
    {s s' : σ} {e : ε}
    (hx : exec x s = (.error e, s')) :
    exec (x >>= f) s = (.error e, s') := by
  rw [exec_bind, hx]

/-- A sequence returns only through a first part that returned. -/
theorem exec_bind_eq_ok_iff
    (x : Prog ε σ α) (f : α → Prog ε σ β)
    (s t : σ) (b : β) :
    exec (x >>= f) s = (.ok b, t)
      ↔
    ∃ a s', exec x s = (.ok a, s') ∧ exec (f a) s' = (.ok b, t) := by
  rw [exec_bind]
  rcases hx : exec x s with ⟨r, s'⟩
  cases r with
  | ok a => simp
  | error e => simp

/-- Iterating rounds that make one call each, or throw: the iteration returns exactly when
every round has its call, and it has made the calls in order. -/
theorem exec_forM_eq_ok_iff
    {f : β → Prog ε σ PUnit} {emits : β → Except ε α} {apply : σ → α → σ}
    (hok : ∀ b s a, emits b = .ok a → exec (f b) s = (.ok (), apply s a))
    (herror : ∀ b s e, emits b = .error e → (exec (f b) s).1 = .error e)
    (l : List β) (s t : σ) :
    exec (forM l f) s = (.ok (), t)
      ↔
    ∃ as, List.Forall₂ (fun b a => emits b = .ok a) l as ∧ t = as.foldl apply s := by
  induction l generalizing s with
  | nil =>
      simp [eq_comm]
  | cons b l ih =>
      rw [List.forM_cons]
      cases hb : emits b with
      | error e =>
          rcases hexec : exec (f b) s with ⟨r, s'⟩
          obtain rfl : r = .error e := by simpa [hexec] using herror b s e hb
          rw [exec_bind_error hexec]
          simp [List.forall₂_cons_left_iff, hb]
      | ok a =>
          rw [exec_bind_ok (hok b s a hb), ih]
          constructor
          · rintro ⟨as, hl, rfl⟩
            exact ⟨a :: as, .cons hb hl, rfl⟩
          · rintro ⟨_, hall, rfl⟩
            cases hall with
            | @cons _ a' _ as ha hl =>
                obtain rfl : a = a' := Except.ok.inj (hb.symm.trans ha)
                exact ⟨as, hl, rfl⟩

end Prog

open Prog

/-- From a state with `P`, the outcome and the final state satisfy `Q`. -/
def Triple (P : σ → Prop) (x : Prog ε σ α)
    (Q : Except ε α → σ → Prop) : Prop :=
  ∀ s, P s → Q (exec x s).1 (exec x s).2

/-- `I` holds after the program, however it ends, when it holds before. -/
def Preserves (I : σ → Prop) (x : Prog ε σ α) : Prop :=
  Triple I x (fun _ => I)

namespace Triple

variable {P P' : σ → Prop} {Q Q' : Except ε α → σ → Prop}
  {R : Except ε β → σ → Prop}

theorem pure {a : α} (h : ∀ s, P s → Q (.ok a) s) :
    Triple P (Pure.pure a : Prog ε σ α) Q :=
  h

theorem lift {x : Except ε α} (h : ∀ s, P s → Q x s) :
    Triple P (Prog.lift x : Prog ε σ α) Q :=
  h

/-- Sequencing: the second part starts from what the first one established. -/
theorem bind
    {x : Prog ε σ α} {f : α → Prog ε σ β}
    (hx : Triple P x Q)
    (hf : ∀ a, Triple (Q (.ok a)) (f a) R)
    (he : ∀ e s, Q (.error e) s → R (.error e) s) :
    Triple P (x >>= f) R := by
  intro s hs
  have h := hx s hs
  rw [exec_bind]
  rcases hrun : exec x s with ⟨r, s'⟩
  rw [hrun] at h
  cases r with
  | ok a => exact hf a s' h
  | error e => exact he e s' h

/-- Handling: the handler starts from what the exceptional exit established. -/
theorem tryCatch
    {x : Prog ε σ α} {h : ε → Prog ε σ α}
    (hx : Triple P x Q)
    (hok : ∀ a s, Q (.ok a) s → Q' (.ok a) s)
    (hh : ∀ e, Triple (Q (.error e)) (h e) Q') :
    Triple P (tryCatchThe ε x h) Q' := by
  intro s hs
  have hpost := hx s hs
  show Q' (exec (MonadExcept.tryCatch x h) s).1 (exec (MonadExcept.tryCatch x h) s).2
  rw [exec_tryCatch]
  rcases hrun : exec x s with ⟨r, s'⟩
  rw [hrun] at hpost
  cases r with
  | ok a => exact hok a s' hpost
  | error e => exact hh e s' hpost

end Triple

namespace Preserves

variable {I : σ → Prop}

theorem pure (a : α) : Preserves I (Pure.pure a : Prog ε σ α) :=
  fun _ hs => hs

theorem throw (e : ε) : Preserves I (MonadExcept.throw e : Prog ε σ α) :=
  fun _ hs => hs

theorem lift (x : Except ε α) : Preserves I (Prog.lift x : Prog ε σ α) :=
  fun _ hs => hs

theorem bind
    {x : Prog ε σ α} {f : α → Prog ε σ β}
    (hx : Preserves I x) (hf : ∀ a, Preserves I (f a)) :
    Preserves I (x >>= f) :=
  Triple.bind hx hf (fun _ _ h => h)

theorem tryCatch
    {x : Prog ε σ α} {h : ε → Prog ε σ α}
    (hx : Preserves I x) (hh : ∀ e, Preserves I (h e)) :
    Preserves I (tryCatchThe ε x h) :=
  Triple.tryCatch hx (fun _ _ hs => hs) hh

/-- Iterating: every round keeps the invariant, also the last one that throws. -/
theorem forM
    {l : List β} {f : β → Prog ε σ PUnit}
    (hf : ∀ b ∈ l, Preserves I (f b)) :
    Preserves I (forM l f) := by
  induction l with
  | nil =>
      exact fun _ hs => hs
  | cons b l ih =>
      rw [List.forM_cons]
      exact bind (hf b (by simp)) (fun _ => ih (fun c hc => hf c (by simp [hc])))

end Preserves

/-- Whatever the state, the program returns values with `A` and throws
exceptions with `E`. -/
def Exits (A : α → Prop) (E : ε → Prop) (x : Prog ε σ α) : Prop :=
  Triple (fun _ => True) x
    (fun r _ => (∀ a, r = .ok a → A a) ∧ ∀ e, r = .error e → E e)

namespace Exits

variable {A : α → Prop} {B : β → Prop} {E E' : ε → Prop}

theorem pure {a : α} (h : A a) : Exits A E (Pure.pure a : Prog ε σ α) := by
  intro s _
  simpa using h

theorem throw {e : ε} (h : E e) :
    Exits A E (MonadExcept.throw e : Prog ε σ α) := by
  intro s _
  simpa using h

theorem lift {x : Except ε α} (hok : ∀ a, x = .ok a → A a)
    (herror : ∀ e, x = .error e → E e) :
    Exits A E (Prog.lift x : Prog ε σ α) :=
  fun _ _ => ⟨hok, herror⟩

/-- Sequencing: the second part runs on the values of the first one only. -/
theorem bind
    {x : Prog ε σ α} {f : α → Prog ε σ β}
    (hx : Exits A E x) (hf : ∀ a, A a → Exits B E (f a)) :
    Exits B E (x >>= f) := by
  refine Triple.bind hx ?_ ?_
  · intro a s h
    exact hf a (h.1 a rfl) s trivial
  · intro e s h
    refine ⟨by simp, ?_⟩
    intro e' he'
    exact h.2 e' (congrArg Except.error (Except.error.inj he'))

/-- Handling: the handler runs on the exceptions of the program only. -/
theorem tryCatch
    {x : Prog ε σ α} {h : ε → Prog ε σ α}
    (hx : Exits A E x) (hh : ∀ e, E e → Exits A E' (h e)) :
    Exits A E' (tryCatchThe ε x h) := by
  refine Triple.tryCatch hx ?_ ?_
  · intro a s h
    exact ⟨h.1, by simp⟩
  · intro e s h
    exact hh e (h.2 e rfl) s trivial

/-- Iterating: no round throws anything else. -/
theorem forM
    {l : List β} {f : β → Prog ε σ PUnit}
    (hf : ∀ b ∈ l, Exits (fun _ => True) E (f b)) :
    Exits (fun _ => True) E (forM l f) := by
  induction l with
  | nil => exact pure trivial
  | cons b l ih =>
      rw [List.forM_cons]
      exact bind (hf b (by simp)) (fun _ _ => ih (fun c hc => hf c (by simp [hc])))

end Exits

end Effect
