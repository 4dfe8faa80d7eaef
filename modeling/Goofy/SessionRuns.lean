import Mathlib.Order.SymmDiff
import Goofy.Session

/-!
# Runs of a session

In every state between callbacks a session is in one phase: it waits for its
reader or for its writer, it was dropped, or it was abandoned, that is, it is
alive and waits for nothing.  One lemma for each kind of callback says which
phase comes next (`callback_readable`, `callback_writable`, `callback_step`).

A session is dropped at most once and never runs afterwards
(`dropped_at_most_once`).  It is abandoned by a failing `event_add` of its
reader, and by nothing else (`live_session_waits`).
-/

namespace Goofy
namespace Session

open Effect Gopher

variable {sock : Nat}

/-- A session that was not dropped yet, and whose drop callback is bound to its
own socket. -/
structure Alive (sock : Nat) (s : Session) : Prop where
  dropId : s.dropId = sock
  drops : s.drops = []
  present : s.destroyed = false

/-- A live session without a writer, with its reader's event in a given state. -/
structure Reading (sock : Nat) (ev : Event) (s : Session) : Prop where
  alive : s.Alive sock
  reader : s.reader.evRead = ev
  writer : s.writer = none

/-- A live session that waits for its writer. -/
structure Writing (sock : Nat) (s : Session) : Prop where
  alive : s.Alive sock
  reader : s.reader.evRead = .freed
  writer : s.writePending

/-- A session that was dropped, once; nothing of it is left to run. -/
structure Dropped (sock : Nat) (s : Session) : Prop where
  drops : s.drops = [sock]
  reader : s.reader.evRead = .freed
  writer : s.writer = none

/-- The phases that a session is meant to be in. -/
inductive Settled (sock : Nat) (s : Session) : Prop
  | reading (h : s.Reading sock .pending)
  | writing (h : s.Writing sock)
  | dropped (h : s.Dropped sock)

/-- All phases: a session may also be left alive with an event that nobody waits
for. -/
inductive Phase (sock : Nat) (s : Session) : Prop
  | settled (h : s.Settled sock)
  | abandoned (h : s.Reading sock .idle)

/-- If `Reader::schedule` is called during a callback, its `event_add` works. -/
def ReaderAdds (s : Session) : Input → Prop
  | .readable res _ readAdd _ => s.reader.waits res → readAdd = none
  | _ => True

/-- What `event_add` answers to the writer during a callback. -/
def Input.writeAdd : Input → AddResult
  | .readable _ _ _ writeAdd => writeAdd
  | .writable _ writeAdd => writeAdd
  | _ => none

/-- The same input, but `event_add` works for the writer. -/
def Input.writeAddOk : Input → Input
  | .readable res serve readAdd _ => .readable res serve readAdd none
  | .writable res _ => .writable res none
  | i => i

section Closing

theorem Alive.withWriter {s : Session} (h : s.Alive sock) (writer : Option Writer) :
    Alive sock { s with writer } :=
  ⟨h.dropId, h.drops, h.present⟩

theorem Alive.withReader {s : Session} (h : s.Alive sock) (reader : Reader) :
    Alive sock { s with reader } :=
  ⟨h.dropId, h.drops, h.present⟩

/-- The drop callback is called once by `close`, and by nothing that the
destructor does. -/
theorem drops_close (s : Session) : s.close.drops = s.drops ++ [s.dropId] := by
  unfold close destroy drops
  rcases s.writer with _ | ⟨ev, b | m | f⟩ <;> simp

theorem Alive.close {s : Session} (h : s.Alive sock) : s.close.Dropped sock := by
  refine ⟨?_, rfl, rfl⟩
  rw [drops_close, h.drops, h.dropId]
  rfl

theorem Alive.giveUp {s : Session} (h : s.Alive sock) (r : Report) :
    (s.giveUp r).Dropped sock := by
  have halive : Alive sock { s with actions := s.actions ++ [.report r] } := by
    refine ⟨h.dropId, ?_, h.present⟩
    have hdrops := h.drops
    unfold Session.drops at hdrops ⊢
    simp [hdrops]
  exact halive.close

/-- The error is reported before the session is dropped. -/
theorem report_mem_giveUp (r : Report) (s : Session) :
    .report r ∈ (s.giveUp r).actions := by
  simp [giveUp, close, destroy]

/-- A session that its callback dropped is gone: no reader is put back. -/
theorem putReader_giveUp (r : Report) (reader : Reader) (s : Session) :
    putReader (.ok (), reader, s.giveUp r) = (.ok (), s.giveUp r) := by
  rfl

theorem putReader_alive (reader : Reader) {s : Session} (h : s.Alive sock) :
    putReader (.ok (), reader, s) = (.ok (), { s with reader }) := by
  simp [putReader, h.present]

theorem putWriter_alive (w : Writer) {s : Session} (h : s.Alive sock) :
    putWriter (.ok (), w, s) = (.ok (), { s with writer := some w }) := by
  simp [putWriter, h.present]

end Closing

section Line

variable (serve : Request → Except Exn Body)

/-- `got_line` starts a writer or throws; nothing else of the session changes. -/
theorem gotLine_cases (add : AddResult) (line : Bytes) (s : Session) :
    (∃ w : Writer, w.evWrite = .pending ∧
        gotLine (fun r => (serve r).mapError Fail.exn) add line s =
          (.ok false, { s with writer := some w })) ∨
      ∃ e writer, gotLine (fun r => (serve r).mapError Fail.exn) add line s =
        (.error (.exn e), { s with writer }) := by
  have hanswer : (∃ body, answerOf ((serve ⟨line⟩).mapError Fail.exn) = .ok body) ∨
      ∃ e, answerOf ((serve ⟨line⟩).mapError Fail.exn) = .error (.exn e) := by
    cases serve ⟨line⟩ with
    | ok body => exact .inl ⟨body, rfl⟩
    | error e =>
        cases e <;> first | exact .inl ⟨_, rfl⟩ | exact .inr ⟨_, rfl⟩
  unfold gotLine
  rcases hanswer with ⟨body, hbody⟩ | ⟨e, hthrew⟩
  · rw [hbody]
    cases add with
    | none => exact .inl ⟨⟨.pending, body.beforeWrite⟩, rfl, rfl⟩
    | some e => exact .inr ⟨_, some ⟨.idle, body.beforeWrite⟩, rfl⟩
  · rw [hthrew]
    exact .inr ⟨e, s.writer, rfl⟩

/-- `got_line` never asks for a second line. -/
theorem gotLine_returns (add : AddResult) (s : Session) (line : Bytes) :
    (∃ s', (readParams (fun r => (serve r).mapError Fail.exn) add).gotLine line s =
        (.ok false, s')) ∨
      ∃ e s', (readParams (fun r => (serve r).mapError Fail.exn) add).gotLine line s =
        (.error (.exn e), s') := by
  rcases gotLine_cases serve add line s with ⟨w, -, hline⟩ | ⟨e, writer, hline⟩
  · exact .inl ⟨_, hline⟩
  · exact .inr ⟨e, _, hline⟩

/-- When the writer's `event_add` fails, `got_line` does what it would have done
anyway, or throws the exception of the failure. -/
theorem gotLine_add_failed (e : Errno) (line : Bytes) (s : Session) :
    gotLine (fun r => (serve r).mapError Fail.exn) (some e) line s =
        gotLine (fun r => (serve r).mapError Fail.exn) none line s ∨
      ∃ s', gotLine (fun r => (serve r).mapError Fail.exn) (some e) line s =
        (.error (.exn (Writer.addFailure e)), s') := by
  unfold gotLine
  cases answerOf ((serve ⟨line⟩).mapError Fail.exn) with
  | error _ => exact .inl rfl
  | ok _ => exact .inr ⟨_, rfl⟩

end Line

section Step

/-- Only a reading session has its reader's event pending. -/
theorem Phase.reading
    {s : Session} (h : s.Phase sock) (hev : s.readPending) :
    s.Reading sock .pending := by
  unfold readPending at hev
  rcases h with (h | h | h) | h
  · exact h
  all_goals
    have hreader := h.reader
    simp [hev] at hreader

/-- Only a writing session has its writer's event pending. -/
theorem Phase.writing
    {s : Session} (h : s.Phase sock) (hev : s.writePending) :
    s.Writing sock := by
  obtain ⟨w, hw, hpending⟩ := hev
  rcases h with (h | h | h) | h
  case settled.writing => exact h
  all_goals
    have hwriter := h.writer
    simp [hw] at hwriter

/-- A readable callback: the session waits for more when its reader does, and is
dropped or answers otherwise. -/
theorem callback_readable
    {s : Session} (h : s.Reading sock .pending)
    (res : Except Errno Bytes) (serve : Request → Except Exn Body)
    (readAdd writeAdd : AddResult) :
    ∃ t, s.callback (.readable res serve readAdd writeAdd) = (.ok (), t) ∧
      (¬ s.reader.waits res ∧ t.Settled sock ∨
        s.reader.waits res ∧
          t.Reading sock (if readAdd = none then .pending else .idle)) := by
  have hfired : ({ s.reader with evRead := s.reader.evRead.fired } : Reader).evRead =
      .idle := by
    simp [h.reader, Event.fired]
  have hout := Reader.cbRead_outcome _ readAdd res s hfired (gotLine_returns serve writeAdd s)
  simp only [callback]
  generalize Reader.cbRead _ readAdd res _ s = out at hout ⊢
  cases hout with
  | eof hstop =>
      exact ⟨_, putReader_giveUp _ _ s, .inl ⟨hstop, .dropped (h.alive.giveUp _)⟩⟩
  | failed e hstop =>
      exact ⟨_, putReader_giveUp _ _ s, .inl ⟨hstop, .dropped (h.alive.giveUp _)⟩⟩
  | @more r hwaits hr =>
      exact ⟨_, putReader_alive _ h.alive,
        .inr ⟨hwaits, h.alive.withReader r, hr, h.writer⟩⟩
  | @refused r line e s' hstop hline =>
      rcases gotLine_cases serve writeAdd line s with ⟨w, -, hline'⟩ | ⟨e', writer, hline'⟩
      · simp [readParams, hline'] at hline
      · obtain rfl : { s with writer } = s' := (Prod.mk.inj (hline'.symm.trans hline)).2
        exact ⟨_, putReader_giveUp _ _ _,
          .inl ⟨hstop, .dropped ((h.alive.withWriter writer).giveUp _)⟩⟩
  | @answered r line s' hstop hr hline =>
      rcases gotLine_cases serve writeAdd line s with ⟨w, hw, hline'⟩ | ⟨e', writer, hline'⟩
      · obtain rfl : { s with writer := some w } = s' :=
          (Prod.mk.inj (hline'.symm.trans hline)).2
        have halive := h.alive.withWriter (some w)
        exact ⟨_, putReader_alive _ halive,
          .inl ⟨hstop, .writing ⟨halive.withReader r, hr, w, rfl, hw⟩⟩⟩
      · simp [readParams, hline'] at hline

/-- A writable callback: the session waits for its writer again, or is dropped. -/
theorem callback_writable
    {s : Session} (h : s.Writing sock)
    {res : Except Errno Nat} {writeAdd : AddResult}
    (hpossible : s.Possible (.writable res writeAdd)) :
    ∃ t, s.callback (.writable res writeAdd) = (.ok (), t) ∧ t.Settled sock := by
  obtain ⟨w, hwriter, hw, hsent⟩ := hpossible
  have hfired : ({ w with evWrite := w.evWrite.fired } : Writer).evWrite = .idle := by
    simp [hw, Event.fired]
  have hout := Writer.cbWrite_outcome writeParams writeAdd res s hfired hsent
  simp only [callback, hwriter]
  generalize Writer.cbWrite writeParams writeAdd res _ s = out at hout ⊢
  cases hout with
  | done => exact ⟨_, rfl, .dropped h.alive.close⟩
  | @more w' hw' hadd =>
      exact ⟨_, putWriter_alive _ h.alive,
        .writing ⟨h.alive.withWriter _, h.reader, w', rfl, hw'⟩⟩
  | failed e => exact ⟨_, rfl, .dropped (h.alive.giveUp _)⟩

/-- A writer that timed out closes its session. -/
theorem callback_writeTimeout {s : Session} {w : Writer} (hwriter : s.writer = some w) :
    s.callback .writeTimeout = (.ok (), s.giveUp .timedOut) := by
  simp only [callback, hwriter]
  rfl

/-- The callback of every possible event returns, and leaves the session in a
phase it is meant to be in unless the reader's `event_add` failed: that abandons
the session. -/
theorem callback_step
    {s : Session} (hphase : s.Phase sock)
    {i : Input} (hpossible : s.Possible i) :
    ∃ t, s.callback i = (.ok (), t) ∧
      (s.ReaderAdds i → t.Settled sock) ∧
      (¬ s.ReaderAdds i → t.Reading sock .idle) := by
  cases i with
  | readable res serve readAdd writeAdd =>
      obtain ⟨t, ht, hcases⟩ :=
        callback_readable (hphase.reading hpossible.1) res serve readAdd writeAdd
      refine ⟨t, ht, ?_⟩
      rcases hcases with ⟨hstop, hsettled⟩ | ⟨hwaits, hreading⟩
      · refine ⟨fun _ => hsettled, fun hfails => absurd ?_ hfails⟩
        exact fun hwaits => absurd hwaits hstop
      · constructor
        · intro hadds
          rw [if_pos (hadds hwaits)] at hreading
          exact .reading hreading
        · intro hfails
          rw [if_neg (fun hnone => hfails (fun _ => hnone))] at hreading
          exact hreading
  | readTimeout =>
      have h := hphase.reading hpossible
      exact ⟨_, rfl, fun _ => .dropped (h.alive.giveUp _), fun hfails => absurd trivial hfails⟩
  | writable res writeAdd =>
      obtain ⟨w, hw, hpending, -⟩ := id hpossible
      obtain ⟨t, ht, hsettled⟩ :=
        callback_writable (hphase.writing ⟨w, hw, hpending⟩) hpossible
      exact ⟨t, ht, fun _ => hsettled, fun hfails => absurd trivial hfails⟩
  | writeTimeout =>
      have h := hphase.writing hpossible
      obtain ⟨w, hw, -⟩ := hpossible
      exact ⟨s.giveUp .timedOut, callback_writeTimeout hw,
        fun _ => .dropped (h.alive.giveUp _), fun hfails => absurd trivial hfails⟩

end Step

section Runs

/-- A new session waits for its reader, unless `event_add` failed: no error is
thrown then. -/
theorem newSession_reading
    {add : AddResult} {s : Session}
    (hnew : newSession sock add = .ok s) :
    s.Reading sock (if add = none then .pending else .idle) := by
  cases add with
  | none =>
      obtain rfl := Except.ok.inj hnew
      exact ⟨⟨rfl, rfl, rfl⟩, rfl, rfl⟩
  | some e =>
      obtain rfl := Except.ok.inj hnew
      exact ⟨⟨rfl, rfl, rfl⟩, rfl, rfl⟩

theorem newSession_phase
    {add : AddResult} {s : Session}
    (hnew : newSession sock add = .ok s) :
    s.Phase sock := by
  have hreading := newSession_reading hnew
  by_cases hadd : add = none
  · rw [if_pos hadd] at hreading
    exact .settled (.reading hreading)
  · rw [if_neg hadd] at hreading
    exact .abandoned hreading

/-- A step leads from a phase to a phase: to one that the session is meant to be
in, unless the reader's `event_add` failed. -/
theorem step_cases
    {s t : Session} {i : Input}
    (hphase : s.Phase sock) (hstep : system.step s i t) :
    (s.ReaderAdds i ∧ t.Settled sock) ∨ (¬ s.ReaderAdds i ∧ t.Reading sock .idle) := by
  obtain ⟨hpossible, hcallback⟩ := hstep
  obtain ⟨t', ht', hsettled, habandoned⟩ := callback_step hphase hpossible
  obtain rfl : t' = t := (Prod.mk.inj (ht'.symm.trans hcallback)).2
  by_cases hadds : s.ReaderAdds i
  · exact .inl ⟨hadds, hsettled hadds⟩
  · exact .inr ⟨hadds, habandoned hadds⟩

theorem phase_of_step
    {s t : Session} {i : Input}
    (hphase : s.Phase sock) (hstep : system.step s i t) :
    t.Phase sock := by
  rcases step_cases hphase hstep with ⟨-, hsettled⟩ | ⟨-, habandoned⟩
  · exact .settled hsettled
  · exact .abandoned habandoned

theorem phase_of_run
    {add : AddResult} {s t : Session} {is : List Input}
    (hnew : newSession sock add = .ok s)
    (hrun : Transition.Run system s is t) :
    t.Phase sock :=
  hrun.invariant (fun _ _ _ => phase_of_step) (newSession_phase hnew)

/-- No callback aborts: whatever event of a session occurs, the session steps. -/
theorem step_of_possible
    {add : AddResult} {s t : Session} {is : List Input}
    (hnew : newSession sock add = .ok s)
    (hrun : Transition.Run system s is t)
    {i : Input} (hpossible : t.Possible i) :
    ∃ u, system.step t i u := by
  obtain ⟨u, hu, -, -⟩ := callback_step (phase_of_run hnew hrun) hpossible
  exact ⟨u, hpossible, hu⟩

/-- Nothing is possible when no event is pending. -/
theorem not_possible
    {s : Session} (hread : ¬ s.readPending) (hwrite : ¬ s.writePending) (i : Input) :
    ¬ s.Possible i := by
  intro hpossible
  cases i with
  | readable => exact hread hpossible.1
  | readTimeout => exact hread hpossible
  | writable =>
      obtain ⟨w, hw, hpending, -⟩ := hpossible
      exact hwrite ⟨w, hw, hpending⟩
  | writeTimeout => exact hwrite hpossible

theorem Reading.not_writePending {ev : Event} {s : Session} (h : s.Reading sock ev) :
    ¬ s.writePending := by
  rintro ⟨w, hw, -⟩
  simp [h.writer] at hw

theorem Writing.not_readPending {s : Session} (h : s.Writing sock) :
    ¬ s.readPending := by
  simp [readPending, h.reader]

theorem Dropped.not_possible {s : Session} (h : s.Dropped sock) (i : Input) :
    ¬ s.Possible i :=
  Session.not_possible (by simp [readPending, h.reader])
    (by simp [writePending, h.writer]) i

/-- A session as it is registered, for socket 7. -/
def accepted (ev : Event) : Session :=
  ⟨7, 7, ⟨List.replicate 258 0, 0, ev⟩, none, false, []⟩

/-- A request line that the map refuses. -/
def refusedLine : Input :=
  .readable (.ok (lit "x\n")) (fun r => .error (.lookupFailure r.selector)) none none

/-- The session that has begun to answer it with a menu. -/
def answering : Session :=
  ⟨7, 7, ⟨120 :: List.replicate 257 0, 0, .freed⟩,
    some ⟨.pending,
      .menu (errorMenu (lit "Lookup failure") (.lookupFailure (lit "x"))).beforeWrite⟩,
    false, []⟩

set_option maxRecDepth 4000 in
theorem step_refusedLine : system.step (accepted .pending) refusedLine answering := by
  refine ⟨⟨rfl, ?_⟩, rfl⟩
  intro data hdata
  obtain rfl : lit "x\n" = data := Except.ok.inj hdata
  simp [Reader.room, accepted, lit]

/-- In every run of a session, whatever the kernel, the map and `event_add`
answer, the drop callback is called at most once and with the socket of the
session; after that no event of the session occurs; and the events of its reader
and of its writer are never both pending. -/
theorem dropped_at_most_once
    {add : AddResult} {s t : Session} {is : List Input}
    (hnew : newSession sock add = .ok s)
    (hrun : Transition.Run system s is t) :
    (t.drops = [] ∨ t.drops = [sock]) ∧
      (t.drops ≠ [] → ∀ i, ¬ t.Possible i) ∧
      ¬ (t.readPending ∧ t.writePending) := by
  rcases phase_of_run hnew hrun with (h | h | h) | h
  · exact ⟨.inl h.alive.drops, fun hne => absurd h.alive.drops hne,
      fun hboth => h.not_writePending hboth.2⟩
  · exact ⟨.inl h.alive.drops, fun hne => absurd h.alive.drops hne,
      fun hboth => h.not_readPending hboth.1⟩
  · exact ⟨.inr h.drops, fun _ => h.not_possible, fun hboth => by
      simp [readPending, h.reader] at hboth⟩
  · exact ⟨.inl h.alive.drops, fun hne => absurd h.alive.drops hne,
      fun hboth => h.not_writePending hboth.2⟩

/-- A session whose client does not take the answer is dropped, for good. -/
theorem dropped_after_answer :
    (answering.giveUp .timedOut).drops = [7] ∧
      ∀ i, ¬ (answering.giveUp .timedOut).Possible i := by
  have hnew : newSession 7 none = .ok (accepted .pending) := rfl
  have htimeout : system.step answering .writeTimeout (answering.giveUp .timedOut) :=
    ⟨⟨_, rfl, rfl⟩, rfl⟩
  have hrun := Transition.Run.cons step_refusedLine (.cons htimeout (.nil _))
  refine ⟨rfl, (dropped_at_most_once hnew hrun).2.1 ?_⟩
  exact List.cons_ne_nil 7 []

/-- Of a session that was accepted and not dropped, exactly one event is pending. -/
def OnePending (s : Session) : Prop :=
  s.drops = [] → Xor s.readPending s.writePending

theorem Settled.onePending {s : Session} (h : s.Settled sock) : s.OnePending := by
  intro hdrops
  cases h with
  | reading h => exact .inl ⟨h.reader, h.not_writePending⟩
  | writing h => exact .inr ⟨h.writer, h.not_readPending⟩
  | dropped h => simp [h.drops] at hdrops

/-- An abandoned session is registered with nothing pending, for ever. -/
theorem Reading.not_onePending {s : Session} (h : s.Reading sock .idle) :
    ¬ s.OnePending := by
  intro hone
  rcases hone h.alive.drops with ⟨hread, -⟩ | ⟨hwrite, -⟩
  · simp [readPending, h.reader] at hread
  · exact h.not_writePending hwrite

/-- A readable callback whose writer cannot be waited for does what it would
have done anyway, or drops the session with the error. -/
theorem callback_readable_add_failed
    (s : Session)
    (res : Except Errno Bytes) (serve : Request → Except Exn Body)
    (readAdd : AddResult) (e : Errno) :
    s.callback (.readable res serve readAdd (some e)) =
        s.callback (.readable res serve readAdd none) ∨
      ∃ writer, s.callback (.readable res serve readAdd (some e)) =
        (.ok (), giveUp (.error (Writer.addFailure e)) { s with writer }) := by
  have hcases := Reader.cbRead_gotLine_failed
    (readParams (fun r => (serve r).mapError Fail.exn) none) readAdd res
    { s.reader with evRead := s.reader.evRead.fired } s (Writer.addFailure e)
    (gotLine (fun r => (serve r).mapError Fail.exn) (some e))
    (fun line => gotLine_add_failed serve e line s)
  rcases hcases with hsame | ⟨line, s', r', hline, hthrew⟩
  · exact .inl (congrArg putReader hsame)
  · right
    rcases gotLine_cases serve (some e) line s with ⟨w, -, hline'⟩ | ⟨e', writer, hline'⟩
    · simp [hline'] at hline
    · obtain rfl : s' = { s with writer } := (Prod.mk.inj (hline.symm.trans hline')).2
      exact ⟨writer, congrArg putReader hthrew⟩

/-- A writable callback whose writer cannot be waited for does what it would
have done anyway, or drops the session with the error. -/
theorem callback_writable_add_failed
    {s : Session} {res : Except Errno Nat} {e : Errno}
    (hpossible : s.Possible (.writable res (some e))) :
    s.callback (.writable res (some e)) = s.callback (.writable res none) ∨
      s.callback (.writable res (some e)) =
        (.ok (), giveUp (.error (Writer.addFailure e)) s) := by
  obtain ⟨w, hw, hpending, hsent⟩ := hpossible
  have hfired : ({ w with evWrite := w.evWrite.fired } : Writer).evWrite = .idle := by
    simp [hpending, Event.fired]
  simp only [callback, hw]
  rcases Writer.cbWrite_add_failed writeParams e res s hfired hsent with
    hsame | ⟨w', hthrew⟩
  · exact .inl (congrArg putWriter hsame)
  · exact .inr (congrArg putWriter hthrew)

/-- When the writer's `event_add` fails, the step is one that does not need it,
or the session is dropped with the error. -/
theorem step_of_writeAdd
    {s t : Session} {i : Input} {e : Errno}
    (hphase : s.Phase sock)
    (hstep : system.step s i t)
    (hfails : i.writeAdd = some e) :
    system.step s i.writeAddOk t ∨
      t.drops = [sock] ∧ .report (.error (Writer.addFailure e)) ∈ t.actions := by
  obtain ⟨hpossible, hcallback⟩ := hstep
  cases i with
  | readTimeout => simp [Input.writeAdd] at hfails
  | writeTimeout => simp [Input.writeAdd] at hfails
  | readable res serve readAdd writeAdd =>
      obtain rfl : writeAdd = some e := hfails
      have h := hphase.reading hpossible.1
      rcases callback_readable_add_failed s res serve readAdd e with hsame | ⟨writer, hgone⟩
      · exact .inl ⟨hpossible, hsame.symm.trans hcallback⟩
      · obtain rfl := (Prod.mk.inj (hgone.symm.trans hcallback)).2
        exact .inr ⟨((h.alive.withWriter writer).giveUp _).drops, report_mem_giveUp _ _⟩
  | writable res writeAdd =>
      obtain rfl : writeAdd = some e := hfails
      obtain ⟨w, hw, hpending, -⟩ := id hpossible
      have h := hphase.writing ⟨w, hw, hpending⟩
      rcases callback_writable_add_failed hpossible with hsame | hgone
      · exact .inl ⟨hpossible, hsame.symm.trans hcallback⟩
      · obtain rfl := (Prod.mk.inj (hgone.symm.trans hcallback)).2
        exact .inr ⟨(h.alive.giveUp _).drops, report_mem_giveUp _ _⟩

/-- In every run in which `event_add` works for the reader, a session that was
not dropped has exactly one pending event.  The next step keeps this exactly when
`event_add` works for the reader again; when it fails for the writer and was
needed, the session is dropped with the error. -/
theorem live_session_waits
    {s t : Session} {is : List Input}
    (hnew : newSession sock none = .ok s)
    (hrun : Transition.Run (system.restrict ReaderAdds) s is t) :
    t.OnePending ∧
      ∀ i u, system.step t i u →
        (u.OnePending ↔ t.ReaderAdds i) ∧
          ∀ e, i.writeAdd = some e →
            system.step t i.writeAddOk u ∨
              u.drops = [sock] ∧ .report (.error (Writer.addFailure e)) ∈ u.actions := by
  have hkeep : ∀ (s : Session) (i : Input) (t : Session), s.Settled sock →
      (system.restrict ReaderAdds).step s i t → t.Settled sock := by
    rintro s i t hs ⟨hadds, hstep⟩
    rcases step_cases (.settled hs) hstep with ⟨-, hsettled⟩ | ⟨hfails, -⟩
    · exact hsettled
    · exact absurd hadds hfails
  have hsettled : t.Settled sock :=
    hrun.invariant hkeep (.reading (newSession_reading hnew))
  refine ⟨hsettled.onePending, ?_⟩
  intro i u hstep
  refine ⟨?_, fun e hfails => step_of_writeAdd (.settled hsettled) hstep hfails⟩
  rcases step_cases (.settled hsettled) hstep with ⟨hadds, hnext⟩ | ⟨hfails, hnext⟩
  · exact ⟨fun _ => hadds, fun _ => hnext.onePending⟩
  · exact ⟨fun hone => absurd hone hnext.not_onePending, fun hadds => absurd hadds hfails⟩

/-- A session that answers waits for its writer alone. -/
theorem answering_waits : Xor answering.readPending answering.writePending := by
  have hnew : newSession 7 none = .ok (accepted .pending) := rfl
  have hadds : (accepted .pending).ReaderAdds refusedLine := fun _ => rfl
  have hrun : Transition.Run (system.restrict ReaderAdds) (accepted .pending)
      [refusedLine] answering :=
    .cons ⟨hadds, step_refusedLine⟩ (.nil _)
  exact (live_session_waits hnew hrun).1 rfl

/-- When `event_add` fails in the constructor, the session is registered, nobody
drops it, and no event of it can ever occur. -/
theorem accepted_without_event :
    newSession 7 (some 12) = .ok (accepted .idle) ∧
      ¬ (accepted .idle).OnePending ∧
      ∀ i, ¬ (accepted .idle).Possible i := by
  have hreading : (accepted .idle).Reading 7 .idle := ⟨⟨rfl, rfl, rfl⟩, rfl, rfl⟩
  refine ⟨rfl, hreading.not_onePending, not_possible ?_ hreading.not_writePending⟩
  intro hpending
  simp [readPending, hreading.reader] at hpending

end Runs

end Session
end Goofy
