import Goofy.Gopher.ProtoReader
import Goofy.Lib.Transition

/-!
# The life of a reader

A reader is started again and again on new sockets, and called back while its event is
pending.  `lifetime` is that system, for an owner whose answers are any function of what
it was told, and `stepCases_of_step` lists all that one step can do.

The last part asks when an end of file is told: a read that fills the buffer leaves no
room, the next one asks for zero bytes, and its answer looks like the end of the stream
(`eof_sound_iff`).
-/

namespace Goofy
namespace Gopher

open Transition

/-- The owner that writes down what it is told and answers a line as it likes. -/
def answering (answer : Bytes → List ReaderCall → Except Fail Bool) :
    ReadParams (List ReaderCall) where
  gotLine line calls := (answer line calls, calls ++ [.gotLine line])
  gotEof calls := calls ++ [.gotEof]
  gotTimeout calls := calls ++ [.gotTimeout]
  gotError e calls := calls ++ [.gotError e]

/-- What happens to a reader: it is started on a socket, or called back with the results
of `read` and `event_add`, or with a timeout. -/
inductive ReaderStep where
  | readFrom (add : AddResult)
  | readable (res : Except Errno Bytes) (add : AddResult)
  | timeout

namespace ReaderStep

/-- The bytes that `read` delivered. -/
def delivered : ReaderStep → Bytes
  | readable (.ok data) _ => data
  | _ => []

/-- The steps of one read: no start of another one. -/
def IsCallback : ReaderStep → Prop
  | readFrom _ => False
  | _ => True

end ReaderStep

/-- A reader at work: how its last call ended, the bytes received and the last result of
`event_add` since it was started, and what the owner was told. -/
structure Reading where
  outcome : Except Fail Unit
  reader : Reader
  received : Bytes
  added : AddResult
  calls : List ReaderCall

namespace Reading

/-- A new reader. -/
def create (buflen : Nat) : Reading :=
  ⟨.ok (), .create buflen, [], none, []⟩

/-- A reader after `read_from`; its owner's record starts again. -/
def reopen (add : AddResult) (r : Reader) : Reading :=
  match r.readFrom add with
  | .ok r' => ⟨.ok (), r', [], add, []⟩
  | .error f => ⟨.error f, r, [], none, []⟩

section System

variable (answer : Bytes → List ReaderCall → Except Fail Bool)

def fire (s : Reading) (i : ReaderStep) : Reading :=
  let fired : Reader := { s.reader with evRead := s.reader.evRead.fired }
  match i with
  | .readFrom add => { reopen add s.reader with calls := s.calls }
  | .readable res add =>
      match Reader.cbRead (answering answer) add res fired s.calls with
      | (outcome, reader, calls) =>
          ⟨outcome, reader, s.received ++ i.delivered, add, calls⟩
  | .timeout =>
      match Reader.cbReadTimeout (answering answer) fired s.calls with
      | (outcome, reader, calls) => ⟨outcome, reader, s.received, s.added, calls⟩

/-- When a step can happen: a free reader is started, a waiting one is called back, and
`read` delivers no more than it was asked for. -/
def Enabled (s : Reading) (i : ReaderStep) : Prop :=
  s.outcome = .ok () ∧
    match i with
    | .readFrom _ => s.reader.evRead = .freed
    | _ => s.reader.evRead = .pending ∧ i.delivered.length ≤ s.reader.room

/-- The life of a reader of lines of `buflen` bytes. -/
def lifetime (buflen : Nat) : System Reading ReaderStep where
  init s := s = create buflen
  step s i t := Enabled s i ∧ t = s.fire answer i

/-- One read of a reader: its callbacks only. -/
def oneRead (buflen : Nat) : System Reading ReaderStep :=
  (lifetime answer buflen).restrict (fun _ i => i.IsCallback)

end System

/-- The event after a call of `event_add`: its error is not looked at. -/
def scheduled : AddResult → Event
  | none => .pending
  | some _ => .idle

/-- The reader that received bytes and waits for more. -/
def waiting (r : Reader) (data : Bytes) (add : AddResult) : Reader :=
  { r.received data with evRead := scheduled add }

/-- The line that ends at a newline. -/
def lineAt (r : Reader) (data : Bytes) (i : Nat) : Bytes :=
  (r.received data).buffer.take (Reader.lineEnd (r.received data).buffer i)

/-- The reader that reported the line, with a NUL at its end. -/
def reported (r : Reader) (data : Bytes) (i : Nat) : Reader :=
  { r.received data with
    buffer := (r.received data).buffer.set (Reader.lineEnd (r.received data).buffer i) 0 }

/-- After a line was reported, by the answer of the owner.  When more is asked for, the
event that is scheduled was freed before. -/
def heard (s : Reading) (data : Bytes) (add : AddResult) (i : Nat) :
    Except Fail Bool → Reading
  | .ok again =>
      ⟨if again then .error .undefined else .ok (), (reported s.reader data i).finish,
        s.received ++ data, add, s.calls ++ [.gotLine (lineAt s.reader data i)]⟩
  | .error (.exn e) =>
      ⟨.ok (), (reported s.reader data i).finish, s.received ++ data, add,
        s.calls ++ [.gotLine (lineAt s.reader data i), .gotError e]⟩
  | .error f =>
      ⟨.error f, { reported s.reader data i with evRead := .idle }, s.received ++ data, add,
        s.calls ++ [.gotLine (lineAt s.reader data i)]⟩

/-- All that a step can do. -/
inductive StepCases (answer : Bytes → List ReaderCall → Except Fail Bool) (s : Reading) :
    ReaderStep → Reading → Prop
  | readFrom {add : AddResult} (hfree : s.reader.evRead = .freed) :
      StepCases answer s (.readFrom add)
        ⟨.ok (), { s.reader with evRead := scheduled add }, [], add, s.calls⟩
  | timeout :
      StepCases answer s .timeout
        ⟨.ok (), s.reader.finish, s.received, s.added, s.calls ++ [.gotTimeout]⟩
  | failed {errno : Errno} {add : AddResult} :
      StepCases answer s (.readable (.error errno) add)
        ⟨.ok (), s.reader.finish, s.received, add,
          s.calls ++ [.gotError (.ioError (lit "read") errno)]⟩
  | eof {add : AddResult} :
      StepCases answer s (.readable (.ok []) add)
        ⟨.ok (), s.reader.finish, s.received, add, s.calls ++ [.gotEof]⟩
  | more {data : Bytes} {add : AddResult} (hne : data ≠ [])
      (hnone : s.reader.newlineAt data = none) :
      StepCases answer s (.readable (.ok data) add)
        ⟨.ok (), waiting s.reader data add, s.received ++ data, add, s.calls⟩
  | line {data : Bytes} {add : AddResult} {i : Nat} (hne : data ≠ [])
      (hsome : s.reader.newlineAt data = some i) :
      StepCases answer s (.readable (.ok data) add)
        (s.heard data add i (answer (lineAt s.reader data i) s.calls))

section Steps

variable {answer : Bytes → List ReaderCall → Except Fail Bool} {s t : Reading}

theorem reopen_of_free
    (add : AddResult) {r : Reader} (hfree : r.evRead = .freed) :
    reopen add r = ⟨.ok (), { r with evRead := scheduled add }, [], add, []⟩ := by
  cases add with
  | none => simp [reopen, Reader.readFrom, hfree, Reader.schedule, scheduled]
  | some e => simp [reopen, Reader.readFrom, hfree, Reader.schedule, scheduled]

/-- A call that sees no newline waits for more, whatever `event_add` returns. -/
theorem readChunk_of_none
    {S : Type} (rp : ReadParams S) (add : AddResult) {r : Reader} {data : Bytes} (o : S)
    (hne : data ≠ []) (hnone : r.newlineAt data = none) :
    Reader.readChunk rp add (.ok data) { r with evRead := .idle } o =
      (.ok (), waiting r data add, o) := by
  have hlen : data.length ≠ 0 := by simpa using hne
  have hsame : ({ r with evRead := .idle } : Reader).newlineAt data = none := hnone
  simp only [Reader.readChunk, if_neg hlen, hsame]
  cases add with
  | none => rfl
  | some e => rfl

/-- A call that sees a newline reports the line; when the owner asks for more, the event
that is scheduled is freed before. -/
theorem readChunk_of_some
    {S : Type} (rp : ReadParams S) (add : AddResult) {r : Reader} {data : Bytes} {i : Nat}
    (o : S) (hne : data ≠ []) (hsome : r.newlineAt data = some i) :
    Reader.readChunk rp add (.ok data) { r with evRead := .idle } o =
      match rp.gotLine (lineAt r data i) o with
      | (.error f, o') => (.error f, { reported r data i with evRead := .idle }, o')
      | (.ok true, o') => (.error .undefined, (reported r data i).finish, o')
      | (.ok false, o') => (.ok (), (reported r data i).finish, o') := by
  have hlen : data.length ≠ 0 := by simpa using hne
  have hsame : ({ r with evRead := .idle } : Reader).newlineAt data = some i := hsome
  simp only [Reader.readChunk, if_neg hlen, hsame]
  have hreceived : ({ r with evRead := .idle } : Reader).received data =
      { r.received data with evRead := .idle } := rfl
  rcases hline : rp.gotLine (lineAt r data i) o with ⟨f | again, o'⟩
  · simp only [lineAt] at hline
    simp only [hreceived, hline]
    rfl
  · simp only [lineAt] at hline
    simp only [hreceived, hline]
    cases again with
    | false => rfl
    | true => rfl

/-- A call that delivers bytes: the search decides what happens. -/
theorem fire_data
    {data : Bytes} (add : AddResult)
    (hpending : s.reader.evRead = .pending) (hne : data ≠ []) :
    s.fire answer (.readable (.ok data) add) =
      match s.reader.newlineAt data with
      | none => ⟨.ok (), waiting s.reader data add, s.received ++ data, add, s.calls⟩
      | some i => s.heard data add i (answer (lineAt s.reader data i) s.calls) := by
  have hfired : s.reader.evRead.fired = .idle := by
    rw [hpending]
    rfl
  simp only [fire, Reader.cbRead, ReaderStep.delivered, hfired]
  cases hnewline : s.reader.newlineAt data with
  | none => rw [readChunk_of_none (answering answer) add s.calls hne hnewline]
  | some i =>
      rw [readChunk_of_some (answering answer) add s.calls hne hnewline]
      simp only [answering]
      rcases answer (lineAt s.reader data i) s.calls with f | again
      · cases f with
        | exn e =>
            simp only [List.append_assoc]
            rfl
        | assertion => rfl
        | undefined => rfl
        | hang => rfl
      · cases again with
        | false => rfl
        | true => rfl

/-- Every step is one of these. -/
theorem stepCases_of_step
    {buflen : Nat} {i : ReaderStep} (h : (lifetime answer buflen).step s i t) :
    StepCases answer s i t := by
  obtain ⟨⟨-, henabled⟩, rfl⟩ := h
  cases i with
  | readFrom add =>
      have hfree : s.reader.evRead = .freed := henabled
      simp only [fire, reopen_of_free add hfree]
      exact .readFrom hfree
  | timeout => exact .timeout
  | readable res add =>
      cases res with
      | error errno =>
          simp only [fire, Reader.cbRead, Reader.readChunk, ReaderStep.delivered,
            List.append_nil]
          exact .failed
      | ok data =>
          by_cases hnil : data = []
          · subst hnil
            simp only [fire, Reader.cbRead, Reader.readChunk, ReaderStep.delivered,
              List.append_nil, List.length_nil, if_true]
            exact .eof
          · rw [fire_data add henabled.1 hnil]
            cases hnewline : s.reader.newlineAt data with
            | none => exact .more hnil hnewline
            | some i => exact .line hnil hnewline

/-- A reader that reported a line waits for nothing. -/
theorem heard_not_pending
    (data : Bytes) (add : AddResult) (i : Nat) (reply : Except Fail Bool) :
    (s.heard data add i reply).reader.evRead ≠ .pending := by
  rcases reply with f | again
  · cases f with
    | exn e => exact nofun
    | assertion => exact nofun
    | undefined => exact nofun
    | hang => exact nofun
  · exact nofun

/-- The owner was told of the line first. -/
theorem heard_calls
    (data : Bytes) (add : AddResult) (i : Nat) (reply : Except Fail Bool) :
    ∃ later, (s.heard data add i reply).calls =
      s.calls ++ .gotLine (lineAt s.reader data i) :: later := by
  rcases reply with f | again
  · cases f with
    | exn e => exact ⟨[.gotError e], rfl⟩
    | assertion => exact ⟨[], rfl⟩
    | undefined => exact ⟨[], rfl⟩
    | hang => exact ⟨[], rfl⟩
  · exact ⟨[], rfl⟩

end Steps

section Invariant

variable {answer : Bytes → List ReaderCall → Except Fail Bool} {s t : Reading}
  {buflen : Nat}

/-- What holds of a reader all its life: the buffer keeps its size, the cursor stays in
it, at the beginning while the reader is free, and what lies before the cursor of a
waiting reader was received since it was started. -/
structure WellFormed (buflen : Nat) (s : Reading) : Prop where
  size : s.reader.buffer.length = buflen + 2
  cursor : s.reader.cursor ≤ s.reader.buffer.length
  free : s.reader.evRead = .freed → s.reader.cursor = 0
  waiting : s.reader.evRead = .pending → s.reader.buffer.take s.reader.cursor = s.received

theorem wellFormed_create (buflen : Nat) : WellFormed buflen (create buflen) := by
  refine ⟨?_, Nat.zero_le _, fun _ => rfl, fun _ => rfl⟩
  exact List.length_replicate

/-- A reader that has ended a read. -/
theorem WellFormed.finish
    (hs : WellFormed buflen s) {r : Reader} (hsize : r.buffer.length = s.reader.buffer.length)
    (outcome : Except Fail Unit) (received : Bytes) (added : AddResult)
    (calls : List ReaderCall) :
    WellFormed buflen ⟨outcome, r.finish, received, added, calls⟩ := by
  refine ⟨hsize.trans hs.size, Nat.zero_le _, fun _ => rfl, ?_⟩
  intro hpending
  simp [Reader.finish] at hpending

theorem length_reported
    {r : Reader} {data : Bytes} (i : Nat)
    (hfit : r.cursor + data.length ≤ r.buffer.length) :
    (reported r data i).buffer.length = r.buffer.length := by
  simp only [reported, List.length_set]
  exact Reader.length_received hfit

/-- A reader that reported a line is free, or its owner failed for good. -/
theorem WellFormed.heard
    (hs : WellFormed buflen s) {data : Bytes}
    (hfit : s.reader.cursor + data.length ≤ s.reader.buffer.length)
    (add : AddResult) (i : Nat) (reply : Except Fail Bool) :
    WellFormed buflen (s.heard data add i reply) := by
  have hlen := length_reported i hfit
  have hidle : ∀ f : Fail, WellFormed buflen
      ⟨.error f, { reported s.reader data i with evRead := .idle }, s.received ++ data, add,
        s.calls ++ [.gotLine (lineAt s.reader data i)]⟩ :=
    fun f => ⟨hlen.trans hs.size, hfit.trans_eq hlen.symm, nofun, nofun⟩
  rcases reply with f | again
  · cases f with
    | exn e => exact hs.finish hlen _ _ _ _
    | assertion => exact hidle _
    | undefined => exact hidle _
    | hang => exact hidle _
  · exact hs.finish hlen _ _ _ _

/-- A read that the loop delivers fits behind the cursor. -/
theorem WellFormed.fit
    (hs : WellFormed buflen s) {data : Bytes} {add : AddResult}
    (henabled : Enabled s (.readable (.ok data) add)) :
    s.reader.cursor + data.length ≤ s.reader.buffer.length := by
  have hroom : data.length ≤ s.reader.buffer.length - s.reader.cursor := henabled.2.2
  have hcursor := hs.cursor
  omega

theorem WellFormed.step
    {i : ReaderStep} (hs : WellFormed buflen s) (h : (lifetime answer buflen).step s i t) :
    WellFormed buflen t := by
  have henabled := h.1
  cases stepCases_of_step h with
  | readFrom hfree =>
      have hzero : s.reader.cursor = 0 := hs.free hfree
      refine ⟨hs.size, hs.cursor, fun _ => hzero, fun _ => ?_⟩
      simp only [hzero, List.take_zero]
  | timeout => exact hs.finish rfl _ _ _ _
  | failed => exact hs.finish rfl _ _ _ _
  | eof => exact hs.finish rfl _ _ _ _
  | line hne hsome => exact hs.heard (hs.fit henabled) _ _ _
  | @more data add hne hnone =>
      have hfit := hs.fit henabled
      have hlen := Reader.length_received hfit
      refine ⟨hlen.trans hs.size, hfit.trans_eq hlen.symm, ?_, ?_⟩
      · cases add with
        | none => exact nofun
        | some e => exact nofun
      · intro _
        have hpending := hs.waiting henabled.2.1
        show (s.reader.received data).buffer.take (s.reader.cursor + data.length) = _
        rw [Reader.take_received data hs.cursor, hpending]

end Invariant

section EndOfFile

variable {answer : Bytes → List ReaderCall → Except Fail Bool} {s t : Reading}
  {buflen : Nat}

/-- A reader that is going to be called back has room for a byte. -/
def RoomLeft (s : Reading) : Prop :=
  s.reader.evRead = .pending → s.reader.cursor < s.reader.buffer.length

/-- A scheduled reader has room, and an end of file is told only when a read that asked
for bytes returned none. -/
structure EofSound (answer : Bytes → List ReaderCall → Except Fail Bool) (buflen : Nat)
    (s : Reading) : Prop where
  room : RoomLeft s
  eof : ∀ i t, (lifetime answer buflen).step s i t → t.calls = s.calls ++ [.gotEof] →
    (∃ add, i = .readable (.ok []) add) ∧ 0 < s.reader.room

/-- The read takes all the room there is, and the reader is scheduled. -/
def Fills (s : Reading) : ReaderStep → Prop
  | .readable (.ok data) none => data.length = s.reader.room
  | _ => False

/-- With room there is no false end of file. -/
theorem eofSound_of_room
    (hroom : RoomLeft s) :
    EofSound answer buflen s := by
  refine ⟨hroom, ?_⟩
  intro i t h hcalls
  have henabled := h.1
  cases stepCases_of_step h with
  | @eof add => exact ⟨⟨add, rfl⟩, Nat.sub_pos_of_lt (hroom henabled.2.1)⟩
  | readFrom hfree => simp at hcalls
  | timeout => simp at hcalls
  | failed => simp at hcalls
  | more hne hnone => simp at hcalls
  | @line data add i hne hsome =>
      obtain ⟨later, htold⟩ := heard_calls (s := s) data add i
        (answer (lineAt s.reader data i) s.calls)
      rw [htold] at hcalls
      simp at hcalls

/-- The window of a read that takes all the room is empty. -/
theorem newlineAt_of_full
    {r : Reader} {data : Bytes} (hfull : data.length = r.room) :
    r.newlineAt data = none := by
  simp [Reader.newlineAt, hfull, memchr]

theorem not_fills_of_some
    {data : Bytes} {i : Nat} (hsome : s.reader.newlineAt data = some i) (add : AddResult) :
    ¬ Fills s (.readable (.ok data) add) := by
  cases add with
  | some e => exact id
  | none =>
      intro hfull
      rw [newlineAt_of_full hfull] at hsome
      cases hsome

theorem not_fills_nil
    (hroom : 0 < s.reader.room) (add : AddResult) :
    ¬ Fills s (.readable (.ok []) add) := by
  cases add with
  | some e => exact id
  | none => exact Nat.ne_of_lt hroom

/-- Only a read that takes all the room leaves a reader that waits without any. -/
theorem room_step_iff
    {i : ReaderStep} (hs : WellFormed buflen s)
    (hroom : RoomLeft s)
    (h : (lifetime answer buflen).step s i t) :
    RoomLeft t ↔ ¬ Fills s i := by
  have henabled := h.1
  cases stepCases_of_step h with
  | readFrom hfree =>
      refine ⟨fun _ => id, fun _ _ => ?_⟩
      have hsize := hs.size
      have hzero : s.reader.cursor = 0 := hs.free hfree
      show s.reader.cursor < s.reader.buffer.length
      omega
  | timeout => exact ⟨fun _ => id, fun _ => nofun⟩
  | failed => exact ⟨fun _ => id, fun _ => nofun⟩
  | @eof add =>
      have hlt : 0 < s.reader.room := Nat.sub_pos_of_lt (hroom henabled.2.1)
      exact ⟨fun _ => not_fills_nil hlt add, fun _ => nofun⟩
  | line hne hsome =>
      refine ⟨fun _ => not_fills_of_some hsome _, fun _ hpending => ?_⟩
      exact absurd hpending (heard_not_pending _ _ _ _)
  | @more data add hne hnone =>
      have hfit := hs.fit henabled
      have hlen := Reader.length_received hfit
      cases add with
      | some e => exact ⟨fun _ => id, fun _ => nofun⟩
      | none =>
          simp only [RoomLeft, waiting, Fills, Reader.room, hlen, scheduled, true_implies]
          simp only [Reader.received]
          omega

end EndOfFile

end Reading

open Reading

/-- In every run of a reader no read of which takes all the room, a scheduled reader has
room for a byte and an end of file is told only when the peer closed; and of the steps
that such a run can go on with, those that take all the room break this, and no others. -/
theorem eof_sound_iff
    (answer : Bytes → List ReaderCall → Except Fail Bool) (buflen : Nat) :
    ∀ is s, Run ((lifetime answer buflen).restrict (fun s i => ¬ Fills s i)) (create buflen) is s →
      EofSound answer buflen s ∧
        ∀ i t, (lifetime answer buflen).step s i t →
          (EofSound answer buflen t ↔ ¬ Fills s i) := by
  intro is s hrun
  have hstep : ∀ s i t, WellFormed buflen s ∧ RoomLeft s →
      ((lifetime answer buflen).restrict (fun s i => ¬ Fills s i)).step s i t →
        WellFormed buflen t ∧ RoomLeft t := by
    rintro s i t ⟨hs, hroom⟩ ⟨hfills, h⟩
    exact ⟨hs.step h, (room_step_iff hs hroom h).mpr hfills⟩
  have hinv := hrun.invariant hstep ⟨wellFormed_create buflen, nofun⟩
  refine ⟨eofSound_of_room hinv.2, fun i t h => ?_⟩
  have hiff := room_step_iff hinv.1 hinv.2 h
  exact ⟨fun ht => hiff.mp ht.room, fun hfills => eofSound_of_room (hiff.mpr hfills)⟩

/-- A reader that has received one byte of a line. -/
def startedLine : Reading :=
  (reopen none (.create 2)).fire (fun _ _ => .ok false) (.readable (.ok (lit "a")) none)

/-- The byte has left room for three more. -/
theorem eof_sound_startedLine :
    EofSound (fun _ _ => .ok false) 2 startedLine ∧
      ∀ i t, (lifetime (fun _ _ => .ok false) 2).step startedLine i t →
        (EofSound (fun _ _ => .ok false) 2 t ↔ ¬ Fills startedLine i) := by
  have hroom : ¬ Fills (reopen none (.create 2)) (.readable (.ok (lit "a")) none) := by
    show ¬ (lit "a").length = (reopen none (.create 2)).reader.room
    decide
  refine eof_sound_iff (fun _ _ => .ok false) 2
    [.readFrom none, .readable (.ok (lit "a")) none] startedLine
    (.cons ⟨id, ⟨rfl, rfl⟩, rfl⟩ (.cons ⟨hroom, ⟨rfl, rfl, ?_⟩, rfl⟩ (.nil _)))
  decide

/-- Four bytes without a newline fill a buffer for lines of two bytes; the peer sends on,
and the owner is told that it closed. -/
theorem full_buffer_told_as_eof :
    ∃ s t, Run (lifetime (fun _ _ => .ok false) 2) (create 2)
        [.readFrom none, .readable (.ok (lit "abcd")) none] s ∧
      s.reader.room = 0 ∧
      (lifetime (fun _ _ => .ok false) 2).step s (.readable (.ok []) none) t ∧
      t.calls = s.calls ++ [.gotEof] := by
  refine ⟨_, _, .cons ⟨⟨rfl, rfl⟩, rfl⟩ (.cons ⟨⟨rfl, rfl, ?_⟩, rfl⟩ (.nil _)), ?_,
    ⟨⟨?_, ?_, ?_⟩, rfl⟩, ?_⟩
  · decide
  · decide
  · decide
  · decide
  · decide
  · decide

end Gopher
end Goofy
