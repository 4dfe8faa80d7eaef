import Goofy.Lib.Transition

/-!
# One question, one answer

An exchange hears a question in pieces, chooses one answer to what it heard, and says
that answer in pieces.  It can be broken off at any time.  Which answers belong to a
question is a parameter.

In every state that a run reaches, what was said is the beginning of one answer to what
was heard (`sound_of_run`).  A program refines an exchange when each of its steps is a
run of these events.
-/

namespace Exchange

open Transition

variable {α β : Type}

/-- What was heard and said; what is left to say, once an answer was chosen. -/
structure State (α β : Type) where
  heard : List α
  said : List β
  left : Option (List β)
  closed : Bool

/-- The events of an exchange. -/
inductive Event (α β : Type) where
  | hear (data : List α)
  | choose (answer : List β)
  | say (data : List β)
  | close

/-- Nothing was heard yet. -/
def fresh : State α β :=
  ⟨[], [], none, false⟩

/-- What an exchange that is not closed can do. -/
inductive Step (answers : List α → List β → Prop) (s : State α β) :
    Event α β → State α β → Prop
  | hear {data : List α}
      (hopen : s.closed = false)
      (hleft : s.left = none) :
      Step answers s (.hear data) { s with heard := s.heard ++ data }
  | choose {answer : List β}
      (hopen : s.closed = false)
      (hleft : s.left = none)
      (hanswer : answers s.heard answer) :
      Step answers s (.choose answer) { s with left := some answer }
  | say {data rest : List β}
      (hopen : s.closed = false)
      (hleft : s.left = some (data ++ rest)) :
      Step answers s (.say data) { s with said := s.said ++ data, left := some rest }
  | close
      (hopen : s.closed = false) :
      Step answers s .close { s with closed := true }

/-- The exchanges in which a question is answered as the relation allows. -/
def system (answers : List α → List β → Prop) : System (State α β) (Event α β) where
  init s := s = fresh
  step := Step answers

section Runs

variable {answers : List α → List β → Prop} {s t : State α β}

/-- Nothing is said before an answer is chosen; what was said and what is left are one
answer to what was heard. -/
structure Sound (answers : List α → List β → Prop) (s : State α β) : Prop where
  silent : s.left = none → s.said = []
  answered : ∀ rest, s.left = some rest → answers s.heard (s.said ++ rest)

theorem sound_fresh : Sound answers (fresh : State α β) :=
  ⟨fun _ => rfl, nofun⟩

theorem Sound.step
    {i : Event α β}
    (hs : Sound answers s)
    (hstep : Step answers s i t) :
    Sound answers t := by
  cases hstep with
  | hear hopen hleft =>
      refine ⟨hs.silent, ?_⟩
      intro rest hrest
      exact absurd (hleft.symm.trans hrest) nofun
  | choose hopen hleft hanswer =>
      refine ⟨nofun, ?_⟩
      intro rest hrest
      obtain rfl := Option.some.inj hrest
      simpa [hs.silent hleft] using hanswer
  | say hopen hleft =>
      refine ⟨nofun, ?_⟩
      intro rest hrest
      obtain rfl := Option.some.inj hrest
      simpa using hs.answered _ hleft
  | close hopen =>
      exact ⟨hs.silent, hs.answered⟩

/-- What was said in a run is the beginning of one answer to what was heard. -/
theorem sound_of_run
    {is : List (Event α β)}
    (hrun : Run (system answers) fresh is s) :
    Sound answers s :=
  hrun.invariant (fun _ _ _ => Sound.step) sound_fresh

/-- One event is a run. -/
theorem run_of_step
    {i : Event α β}
    (hstep : Step answers s i t) :
    Run (system answers) s [i] t :=
  .cons hstep (.nil t)

/-- Hear the rest of a question, choose the answer to it. -/
theorem run_ask
    {data : List α} {answer : List β}
    (hopen : s.closed = false)
    (hleft : s.left = none)
    (hanswer : answers (s.heard ++ data) answer) :
    Run (system answers) s [.hear data, .choose answer]
      { s with heard := s.heard ++ data, left := some answer } :=
  .cons (.hear hopen hleft) (run_of_step (.choose hopen hleft hanswer))

end Runs

end Exchange
