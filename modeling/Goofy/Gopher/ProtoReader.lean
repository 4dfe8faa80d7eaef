import Goofy.Os

/-!
# The line reader

The reading half of `gopher/proto.h` and `gopher/proto.cc`.  The buffer has room
for a line of `buflen` bytes and its CR LF.  Each `readChunk` call appends what
`read` returned and looks for a newline in a window that starts at the new
bytes; the window is as long as the room that the new bytes left, not as long
as the new bytes.

The second part is about line framing: on a fresh reader, the first newline of
a stream is seen by the call that receives it exactly when it lies in that
window (`framing_iff`).
-/

namespace Goofy
namespace Gopher

/-- What the owner of a reader wants to be told, over the owner's state. -/
structure ReadParams (S : Type) where
  gotLine : Bytes → S → Except Fail Bool × S
  gotEof : S → S
  gotTimeout : S → S
  gotError : Exn → S → S

structure Reader where
  buffer : Bytes
  cursor : Nat
  evRead : Event
deriving DecidableEq

/-- Write bytes over a buffer, from an index on. -/
def overwrite (buffer : Bytes) (start : Nat) (data : Bytes) : Bytes :=
  buffer.take start ++ data ++ buffer.drop (start + data.length)

namespace Reader

/-- The constructor: two more bytes than the longest line, for CR LF. -/
def create (buflen : Nat) : Reader :=
  ⟨List.replicate (buflen + 2) 0, 0, .freed⟩

/-- `Reader::schedule`: the error of a failed `event_add` is built, not thrown. -/
def schedule (add : AddResult) (r : Reader) : Except Fail Reader :=
  match r.evRead with
  | .freed => .error .undefined
  | _ =>
      match add with
      | none => .ok { r with evRead := .pending }
      | some _ => .ok r

/-- `Reader::end`. -/
def finish (r : Reader) : Reader :=
  { r with cursor := 0, evRead := .freed }

def readFrom (add : AddResult) (r : Reader) : Except Fail Reader :=
  if r.evRead ≠ .freed then
    .error (.exn (.ioError (lit "Reader::read_from of a busy reader") 0))
  else schedule add { r with evRead := .idle }

/-- How many bytes the next `read` may deliver. -/
def room (r : Reader) : Nat :=
  r.buffer.length - r.cursor

/-- The index where a line ends: at a CR directly before its LF, else at the LF. -/
def lineEnd (buffer : Bytes) (newline : Nat) : Nat :=
  if 0 < newline ∧ buffer[newline - 1]? = some CR then newline - 1 else newline

/-- The reader after `read` delivered some bytes. -/
def received (r : Reader) (data : Bytes) : Reader :=
  { r with
    buffer := overwrite r.buffer r.cursor data
    cursor := r.cursor + data.length }

/-- Where `read_chunk` sees a newline: it searches from the new bytes on, over
as many bytes as the room that they left. -/
def newlineAt (r : Reader) (data : Bytes) : Option Nat :=
  (memchr (((r.received data).buffer.drop r.cursor).take (r.room - data.length)) LF).map
    (fun i => r.cursor + i)

section Window

variable {r : Reader} {data : Bytes}

theorem length_received (hfit : r.cursor + data.length ≤ r.buffer.length) :
    (r.received data).buffer.length = r.buffer.length := by
  simp only [received, overwrite, List.length_append, List.length_take, List.length_drop]
  omega

theorem take_received (data : Bytes) (hcursor : r.cursor ≤ r.buffer.length) :
    (r.received data).buffer.take (r.cursor + data.length) =
      r.buffer.take r.cursor ++ data := by
  have hlen : (r.buffer.take r.cursor ++ data).length = r.cursor + data.length := by
    simp [hcursor]
  simp only [received, overwrite]
  rw [← hlen, List.take_left]

theorem drop_received (data : Bytes) (hcursor : r.cursor ≤ r.buffer.length) :
    (r.received data).buffer.drop r.cursor =
      data ++ r.buffer.drop (r.cursor + data.length) := by
  have hlen : (r.buffer.take r.cursor).length = r.cursor := List.length_take_of_le hcursor
  simp only [received, overwrite, List.append_assoc]
  rw [List.drop_append_of_le_length (Nat.le_of_eq hlen.symm),
    List.drop_eq_nil_of_le (Nat.le_of_eq hlen), List.nil_append]

/-- The window: the new bytes and the old ones behind them, cut to the room left. -/
theorem newlineAt_eq (data : Bytes) (hcursor : r.cursor ≤ r.buffer.length) :
    r.newlineAt data =
      (memchr ((data ++ r.buffer.drop (r.cursor + data.length)).take (r.room - data.length))
        LF).map (fun i => r.cursor + i) := by
  rw [newlineAt, drop_received data hcursor]

/-- The first newline of the new bytes is seen when it lies in the window. -/
theorem newlineAt_append_cons
    {before after : Bytes} (hcursor : r.cursor ≤ r.buffer.length) (hbefore : LF ∉ before) :
    r.newlineAt (before ++ LF :: after) =
      if before.length + (before ++ LF :: after).length < r.room then
        some (r.cursor + before.length)
      else none := by
  rw [newlineAt_eq _ hcursor]
  generalize hold : r.buffer.drop (r.cursor + (before ++ LF :: after).length) = old
  generalize hleft : r.room - (before ++ LF :: after).length = left
  by_cases hlt : before.length < left
  · have hsplit : ((before ++ LF :: after) ++ old).take left =
        before ++ LF :: (after ++ old).take (left - before.length - 1) := by
      rw [List.append_assoc, List.take_append, List.take_of_length_le (by omega)]
      obtain ⟨k, hk⟩ : ∃ k, left - before.length = k + 1 :=
        ⟨left - before.length - 1, by omega⟩
      rw [hk]
      simp
    rw [hsplit, memchr_append_cons LF hbefore, if_pos (by omega)]
    rfl
  · have hnone : memchr (((before ++ LF :: after) ++ old).take left) LF = none := by
      rw [memchr, List.findIdx?_eq_none_iff]
      intro b hb
      rw [List.append_assoc, List.take_append_of_le_length (by omega)] at hb
      simp only [beq_eq_false_iff_ne, ne_eq]
      rintro rfl
      exact hbefore (List.mem_of_mem_take hb)
    rw [hnone, if_neg (by omega)]
    rfl

/-- A newline of the old bytes in the window of a read of that many bytes. -/
def OldNewline (r : Reader) (size : Nat) : Prop :=
  ∃ i, r.cursor + size ≤ i ∧ i + size < r.buffer.length ∧ r.buffer[i]? = some LF

/-- Without a newline in the new bytes, the search sees one of the old bytes or none. -/
theorem newlineAt_eq_none_iff
    (hcursor : r.cursor ≤ r.buffer.length) (hdata : LF ∉ data) :
    r.newlineAt data = none ↔ ¬ r.OldNewline data.length := by
  rw [newlineAt_eq data hcursor, Option.map_eq_none_iff, memchr,
    List.findIdx?_eq_none_iff]
  have hmem : LF ∈ (data ++ r.buffer.drop (r.cursor + data.length)).take
      (r.room - data.length) ↔ r.OldNewline data.length := by
    have hnew : LF ∉ data.take (r.room - data.length) :=
      fun h => hdata (List.mem_of_mem_take h)
    rw [List.take_append, List.mem_append, or_iff_right hnew]
    simp only [List.mem_iff_getElem?, List.getElem?_take, List.getElem?_drop, OldNewline, room]
    constructor
    · rintro ⟨j, hj⟩
      split_ifs at hj with hlt
      exact ⟨r.cursor + data.length + j, by omega, by omega, hj⟩
    · rintro ⟨i, hle, hlt, hi⟩
      refine ⟨i - (r.cursor + data.length), ?_⟩
      rw [if_pos (by omega), Nat.add_sub_cancel' hle]
      exact hi
  rw [← hmem]
  constructor
  · intro hall h
    simpa using hall LF h
  · intro hnot b hb
    simp only [beq_eq_false_iff_ne, ne_eq]
    rintro rfl
    exact hnot hb

end Window

section Callback

variable {S : Type}

/-- The last statement of `read_chunk`: wait for more, or stop. -/
def proceed (again : Bool) (add : AddResult) (r : Reader) (s : S) :
    Except Fail Unit × Reader × S :=
  if again then
    match r.schedule add with
    | .ok r' => (.ok (), r', s)
    | .error f => (.error f, r, s)
  else (.ok (), r, s)

/-- `read_chunk`; `res` is what `read` returns. -/
def readChunk (rp : ReadParams S) (add : AddResult)
    (res : Except Errno Bytes) (r : Reader) (s : S) :
    Except Fail Unit × Reader × S :=
  match res with
  | .error e => (.error (.exn (.ioError (lit "read") e)), r, s)
  | .ok data =>
      if data.length = 0 then (.ok (), r.finish, rp.gotEof s)
      else
        let r' := r.received data
        match r.newlineAt data with
        | none => proceed true add r' s
        | some i =>
            let newline := lineEnd r'.buffer i
            let r'' : Reader := { r' with buffer := r'.buffer.set newline 0 }
            match rp.gotLine (r'.buffer.take newline) s with
            | (.error f, s') => (.error f, r'', s')
            | (.ok again, s') => proceed again add r''.finish s'

/-- `cb_read` on a readable socket. -/
def cbRead (rp : ReadParams S) (add : AddResult)
    (res : Except Errno Bytes) (r : Reader) (s : S) :
    Except Fail Unit × Reader × S :=
  match readChunk rp add res r s with
  | (.error (.exn e), r', s') => (.ok (), r'.finish, rp.gotError e s')
  | out => out

/-- `cb_read` on a timeout. -/
def cbReadTimeout (rp : ReadParams S) (r : Reader) (s : S) :
    Except Fail Unit × Reader × S :=
  (.ok (), r.finish, rp.gotTimeout s)

/-- The reader received bytes and saw no newline: it wants more. -/
def waits (res : Except Errno Bytes) (r : Reader) : Prop :=
  ∃ data, res = .ok data ∧ data ≠ [] ∧ r.newlineAt data = none

/-- What one readable callback can do, for an owner whose `got_line` asks for
no more or throws: give up at the end of the stream or on an error, wait for more
bytes, or stop after a line. -/
inductive Outcome (rp : ReadParams S) (add : AddResult) (waits : Prop) (s : S) :
    Except Fail Unit × Reader × S → Prop where
  | eof {r : Reader} (hstop : ¬ waits) : Outcome rp add waits s (.ok (), r, rp.gotEof s)
  | failed {r : Reader} (e : Exn) (hstop : ¬ waits) :
      Outcome rp add waits s (.ok (), r, rp.gotError e s)
  | more {r : Reader} (hwaits : waits)
      (hr : r.evRead = if add = none then .pending else .idle) :
      Outcome rp add waits s (.ok (), r, s)
  | refused {r : Reader} {line : Bytes} {e : Exn} {s' : S} (hstop : ¬ waits)
      (hline : rp.gotLine line s = (.error (.exn e), s')) :
      Outcome rp add waits s (.ok (), r, rp.gotError e s')
  | answered {r : Reader} {line : Bytes} {s' : S} (hstop : ¬ waits)
      (hr : r.evRead = .freed) (hline : rp.gotLine line s = (.ok false, s')) :
      Outcome rp add waits s (.ok (), r, s')

theorem cbRead_outcome
    (rp : ReadParams S) (add : AddResult) (res : Except Errno Bytes)
    {r : Reader} (s : S) (hr : r.evRead = .idle)
    (hgot : ∀ line, (∃ s', rp.gotLine line s = (.ok false, s')) ∨
      ∃ e s', rp.gotLine line s = (.error (.exn e), s')) :
    Outcome rp add (r.waits res) s (cbRead rp add res r s) := by
  unfold cbRead readChunk
  cases res with
  | error e =>
      exact .failed _ (by simp [waits])
  | ok data =>
      by_cases hlen : data.length = 0
      · simp only [if_pos hlen]
        exact .eof (by simp [waits, List.length_eq_zero_iff.mp hlen])
      · have hnil : data ≠ [] := by simpa using hlen
        have hidle : (r.received data).evRead = .idle := hr
        simp only [if_neg hlen]
        cases hnewline : r.newlineAt data with
        | none =>
            have hwaits : r.waits (.ok data) := ⟨data, rfl, hnil, hnewline⟩
            cases add with
            | none =>
                simp only [proceed, schedule, hidle, if_true]
                exact .more hwaits rfl
            | some e =>
                simp only [proceed, schedule, hidle, if_true]
                exact .more hwaits (by simpa using hidle)
        | some i =>
            have hstop : ¬ r.waits (.ok data) := by
              rintro ⟨d, hd, -, hnone⟩
              cases hd
              rw [hnewline] at hnone
              simp at hnone
            rcases hgot ((r.received data).buffer.take (lineEnd (r.received data).buffer i))
              with ⟨s', hline⟩ | ⟨e, s', hline⟩
            · simp only [hline]
              exact .answered hstop rfl hline
            · simp only [hline]
              exact .refused hstop hline

/-- When `got_line` does what another one does or throws, the callback does what
it does for the other one, or gives up with that exception. -/
theorem cbRead_gotLine_failed
    (rp : ReadParams S) (add : AddResult) (res : Except Errno Bytes)
    (r : Reader) (s : S) (e : Exn) (gotLine : Bytes → S → Except Fail Bool × S)
    (hline : ∀ line, gotLine line s = rp.gotLine line s ∨
      ∃ s', gotLine line s = (.error (.exn e), s')) :
    cbRead { rp with gotLine } add res r s = cbRead rp add res r s ∨
      ∃ line s' r', gotLine line s = (.error (.exn e), s') ∧
        cbRead { rp with gotLine } add res r s = (.ok (), r', rp.gotError e s') := by
  unfold cbRead readChunk
  cases res with
  | error _ => exact .inl rfl
  | ok data =>
      by_cases hlen : data.length = 0
      · left
        simp only [if_pos hlen]
      · simp only [if_neg hlen]
        cases r.newlineAt data with
        | none => exact .inl rfl
        | some i =>
            generalize hend : (r.received data).buffer.take
              (lineEnd (r.received data).buffer i) = line
            rcases hline line with hsame | ⟨s', hthrew⟩
            · left
              simp only [hend, hsame]
            · right
              simp only [hend, hthrew]
              exact ⟨line, s', _, hthrew, rfl⟩

/-- A callback whose owner is seen through a map does the same to the reader. -/
theorem cbRead_map
    {T : Type} (view : S → T) {rp : ReadParams S} {rp' : ReadParams T} (s : S)
    (hline : ∀ line, rp'.gotLine line (view s) =
      ((rp.gotLine line s).1, view (rp.gotLine line s).2))
    (heof : rp'.gotEof (view s) = view (rp.gotEof s))
    (herror : ∀ e s', rp'.gotError e (view s') = view (rp.gotError e s'))
    (add : AddResult) (res : Except Errno Bytes) (r : Reader) :
    cbRead rp' add res r (view s) =
      ((cbRead rp add res r s).1, (cbRead rp add res r s).2.1,
        view (cbRead rp add res r s).2.2) := by
  have hproceed : ∀ again r s', proceed again add r (view s') =
      ((proceed again add r s').1, (proceed again add r s').2.1,
        view (proceed again add r s').2.2) := by
    intro again r s'
    unfold proceed
    cases again with
    | false => rfl
    | true => cases r.schedule add <;> rfl
  have hchunk : readChunk rp' add res r (view s) =
      ((readChunk rp add res r s).1, (readChunk rp add res r s).2.1,
        view (readChunk rp add res r s).2.2) := by
    unfold readChunk
    cases res with
    | error e => rfl
    | ok data =>
        by_cases hlen : data.length = 0
        · simp only [if_pos hlen, heof]
        · simp only [if_neg hlen]
          cases r.newlineAt data with
          | none => exact hproceed _ _ _
          | some i =>
              simp only [hline]
              rcases rp.gotLine _ s with ⟨f | again, s'⟩
              · rfl
              · exact hproceed _ _ _
  unfold cbRead
  rw [hchunk]
  rcases readChunk rp add res r s with ⟨f | ok, r', s'⟩
  · cases f <;> simp only [herror]
  · rfl

end Callback

end Reader

section Framing

open Reader Delimited

/-- What a reader tells its owner. -/
inductive ReaderCall where
  | gotLine (line : Bytes)
  | gotEof
  | gotTimeout
  | gotError (e : Exn)
deriving DecidableEq

/-- An owner that writes down what it is told and answers every line alike. -/
def recorder (again : Bool) : ReadParams (List ReaderCall) where
  gotLine line s := (.ok again, s ++ [.gotLine line])
  gotEof s := s ++ [.gotEof]
  gotTimeout s := s ++ [.gotTimeout]
  gotError e s := s ++ [.gotError e]

/-- The calls made during one callback that delivers a chunk, and the reader after it. -/
def callsOf (again : Bool) (r : Reader) (chunk : Bytes) :
    List ReaderCall × Reader :=
  let out := cbRead (recorder again) none (.ok chunk) { r with evRead := r.evRead.fired } []
  (out.2.2, out.2.1)

/-- The calls made during each of a sequence of callbacks.  A reader whose event
is not pending is not called back. -/
def callsPerChunk (again : Bool) : Reader → List Bytes → List (List ReaderCall)
  | _, [] => []
  | r, chunk :: chunks =>
      if r.evRead = .pending then
        (callsOf again r chunk).1 ::
          callsPerChunk again (callsOf again r chunk).2 chunks
      else [] :: callsPerChunk again r chunks

/-- A cut of a stream that a reader with that much room can receive: every
`read` result has between one byte and the room left by those before it. -/
def Segmentation : Nat → List Bytes → Prop
  | _, [] => True
  | room, chunk :: chunks =>
      chunk ≠ [] ∧ chunk.length ≤ room ∧ Segmentation (room - chunk.length) chunks

/-- The first line of a stream: the bytes before the first LF, less one CR
directly before it. -/
def firstLine (stream : Bytes) : Bytes :=
  let line := upTo LF stream
  if line.getLast? = some CR then line.dropLast else line

/-- A started reader that has received `bytes` and nothing else. -/
def started (buflen : Nat) (bytes : Bytes) : Reader :=
  ⟨bytes ++ List.replicate (buflen + 2 - bytes.length) 0, bytes.length, .pending⟩

theorem readFrom_create (buflen : Nat) :
    (Reader.create buflen).readFrom none = .ok (started buflen []) := by
  rfl

/-- A chunk that fits extends what a started reader has received. -/
theorem received_started
    {buflen : Nat} {bytes chunk : Bytes}
    (hfit : bytes.length + chunk.length ≤ buflen + 2) :
    (started buflen bytes).received chunk = started buflen (bytes ++ chunk) := by
  have htake : (started buflen bytes).buffer.take bytes.length = bytes := by
    simp [started]
  have hdrop : (started buflen bytes).buffer.drop (bytes.length + chunk.length) =
      List.replicate (buflen + 2 - (bytes ++ chunk).length) 0 := by
    simp only [started, List.drop_append, List.drop_replicate, List.length_append]
    rw [List.drop_eq_nil_iff.mpr (by omega), List.nil_append]
    congr 1
    omega
  have hbuffer : overwrite (started buflen bytes).buffer bytes.length chunk =
      (started buflen (bytes ++ chunk)).buffer := by
    rw [overwrite, htake, hdrop]
    rfl
  have hcursor : (started buflen bytes).cursor = bytes.length := rfl
  rw [Reader.received, hcursor, hbuffer]
  simp [started]

theorem cursor_started_le (buflen : Nat) (bytes : Bytes) :
    (started buflen bytes).cursor ≤ (started buflen bytes).buffer.length := by
  simp only [started, List.length_append]
  exact Nat.le_add_right _ _

/-- Without a newline in the chunk there is none in the window. -/
theorem newlineAt_started_of_not_mem
    (buflen : Nat) (bytes : Bytes) {chunk : Bytes}
    (hchunk : LF ∉ chunk) :
    (started buflen bytes).newlineAt chunk = none := by
  rw [newlineAt_eq_none_iff (cursor_started_le buflen bytes) hchunk]
  rintro ⟨i, hle, -, hi⟩
  have hle : bytes.length + chunk.length ≤ i := hle
  simp only [started] at hi
  rw [List.getElem?_append_right (by omega), List.getElem?_replicate] at hi
  split_ifs at hi
  simp [LF] at hi

/-- The first newline of a chunk is seen when it lies in the window. -/
theorem newlineAt_started_of_mem
    {buflen : Nat} {bytes before after : Bytes}
    (hfit : bytes.length + (before ++ LF :: after).length ≤ buflen + 2)
    (hbefore : LF ∉ before) :
    (started buflen bytes).newlineAt (before ++ LF :: after) =
      if bytes.length + before.length + (before ++ LF :: after).length < buflen + 2 then
        some (bytes.length + before.length)
      else none := by
  have hroom : (started buflen bytes).room = buflen + 2 - bytes.length := by
    simp only [room, started, List.length_append, List.length_replicate]
    omega
  have hiff : before.length + (before ++ LF :: after).length < buflen + 2 - bytes.length ↔
      bytes.length + before.length + (before ++ LF :: after).length < buflen + 2 := by
    omega
  rw [newlineAt_append_cons (cursor_started_le buflen bytes) hbefore, hroom]
  simp only [hiff]
  rfl

/-- A call that sees no newline records nothing and waits for more. -/
theorem callsOf_started_of_none
    (again : Bool) {buflen : Nat} {bytes chunk : Bytes}
    (hne : chunk ≠ [])
    (hfit : bytes.length + chunk.length ≤ buflen + 2)
    (hnone : (started buflen bytes).newlineAt chunk = none) :
    callsOf again (started buflen bytes) chunk =
      ([], started buflen (bytes ++ chunk)) := by
  have hlen : chunk.length ≠ 0 := by simpa using hne
  have hreceived := received_started hfit
  have hchunk : readChunk (recorder again) none (.ok chunk)
      { started buflen bytes with evRead := .idle } [] =
        (.ok (), started buflen (bytes ++ chunk), []) := by
    have hnone' : ({ started buflen bytes with evRead := .idle } : Reader).newlineAt chunk =
        none := hnone
    have hreceived' : ({ started buflen bytes with evRead := .idle } : Reader).received chunk =
        { started buflen (bytes ++ chunk) with evRead := .idle } := by
      rw [← hreceived]
      rfl
    simp only [readChunk, if_neg hlen, hnone', hreceived']
    rfl
  simp only [callsOf, cbRead]
  have hfired : (started buflen bytes).evRead.fired = .idle := rfl
  rw [hfired, hchunk]

/-- A call that sees a newline reports the bytes before it and, if the owner
wants no more, frees the event. -/
theorem callsOf_started_of_some
    {buflen : Nat} {bytes chunk : Bytes} {i : Nat}
    (hne : chunk ≠ [])
    (hfit : bytes.length + chunk.length ≤ buflen + 2)
    (hsome : (started buflen bytes).newlineAt chunk = some i) :
    (callsOf false (started buflen bytes) chunk).1 =
        [.gotLine ((started buflen (bytes ++ chunk)).buffer.take
          (lineEnd (started buflen (bytes ++ chunk)).buffer i))] ∧
      (callsOf false (started buflen bytes) chunk).2.evRead = .freed := by
  have hlen : chunk.length ≠ 0 := by simpa using hne
  have hreceived := received_started hfit
  have hsome' : ({ started buflen bytes with evRead := .idle } : Reader).newlineAt chunk =
      some i := hsome
  have hreceived' : ({ started buflen bytes with evRead := .idle } : Reader).received chunk =
      { started buflen (bytes ++ chunk) with evRead := .idle } := by
    rw [← hreceived]
    rfl
  have hfired : (started buflen bytes).evRead.fired = .idle := rfl
  simp only [callsOf, cbRead, hfired, readChunk, if_neg hlen, hsome', hreceived']
  exact ⟨rfl, rfl⟩

/-- A line less the CR at its end. -/
def chopCR (line : Bytes) : Bytes :=
  if line.getLast? = some CR then line.dropLast else line

theorem firstLine_append_cons
    {line : Bytes} (hline : LF ∉ line) (rest : Bytes) :
    firstLine (line ++ LF :: rest) = chopCR line := by
  have hupTo : upTo LF (line ++ LF :: rest) = line := by
    rw [upTo_append_of_not_mem hline]
    simp [upTo]
  rw [firstLine, hupTo]
  rfl

/-- The bytes before a newline, less the CR directly before it. -/
theorem take_lineEnd_append (line tail : Bytes) :
    (line ++ tail).take (lineEnd (line ++ tail) line.length) = chopCR line := by
  cases hlen : line.length with
  | zero =>
      have hnil : line = [] := List.length_eq_zero_iff.mp hlen
      simp [hnil, lineEnd, chopCR]
  | succ n =>
      have hlast : (line ++ tail)[line.length - 1]? = line.getLast? := by
        rw [List.getElem?_append_left (by omega), List.getLast?_eq_getElem?]
      unfold lineEnd chopCR
      rw [← hlen, hlast]
      by_cases hcr : line.getLast? = some CR
      · rw [if_pos ⟨by omega, hcr⟩]
        simp [hcr, List.dropLast_eq_take, List.take_append_of_le_length]
      · rw [if_neg (fun h => hcr h.2)]
        simp [hcr]

/-- The reported bytes are the first line of the stream. -/
theorem take_lineEnd_started
    (buflen : Nat) {line : Bytes} (rest : Bytes) (hline : LF ∉ line) :
    (started buflen (line ++ LF :: rest)).buffer.take
        (lineEnd (started buflen (line ++ LF :: rest)).buffer line.length) =
      firstLine (line ++ LF :: rest) := by
  rw [firstLine_append_cons hline]
  simp only [started, List.append_assoc]
  exact take_lineEnd_append line _

/-- A freed reader is told nothing. -/
theorem callsPerChunk_of_freed
    (again : Bool) {r : Reader} (hr : r.evRead = .freed) (chunks : List Bytes) :
    callsPerChunk again r chunks = chunks.map (fun _ => []) := by
  induction chunks with
  | nil => rfl
  | cons chunk chunks ih => simp [callsPerChunk, hr, ih]

/-- Chunks without a newline are received silently. -/
theorem callsPerChunk_started_append
    (again : Bool) {buflen : Nat} (rest : List Bytes) :
    ∀ (early : List Bytes) (bytes : Bytes),
      bytes.length ≤ buflen + 2 →
      Segmentation (buflen + 2 - bytes.length) early →
      (∀ chunk ∈ early, LF ∉ chunk) →
      callsPerChunk again (started buflen bytes) (early ++ rest) =
        early.map (fun _ => []) ++
          callsPerChunk again (started buflen (bytes ++ early.flatten)) rest
  | [], bytes, _, _, _ => by simp
  | chunk :: early, bytes, hbytes, hseg, hLF => by
      obtain ⟨hne, hlen, hseg⟩ := hseg
      have hfit : bytes.length + chunk.length ≤ buflen + 2 := by omega
      have hnone := newlineAt_started_of_not_mem buflen bytes (hLF chunk (by simp))
      have hcalls := callsOf_started_of_none again hne hfit hnone
      have hseg' : Segmentation (buflen + 2 - (bytes ++ chunk).length) early := by
        rw [List.length_append, ← Nat.sub_sub]
        exact hseg
      have ih := callsPerChunk_started_append again rest early (bytes ++ chunk)
        (by simpa using hfit) hseg' (fun c hc => hLF c (by simp [hc]))
      have hpending : (started buflen bytes).evRead = .pending := rfl
      rw [List.cons_append, callsPerChunk, if_pos hpending, hcalls, ih]
      simp

/-- A segmentation bounds the bytes of each of its parts. -/
theorem segmentation_append_singleton :
    ∀ (early : List Bytes) (last : Bytes) (room : Nat),
      Segmentation room (early ++ [last]) →
      Segmentation room early ∧ last ≠ [] ∧ early.flatten.length + last.length ≤ room
  | [], last, room, hseg => by
      obtain ⟨hne, hlen, -⟩ := hseg
      exact ⟨trivial, hne, by simpa using hlen⟩
  | chunk :: early, last, room, hseg => by
      obtain ⟨hne, hlen, hseg⟩ := hseg
      obtain ⟨hearly, hlast, hle⟩ := segmentation_append_singleton early last _ hseg
      refine ⟨⟨hne, hlen, hearly⟩, hlast, ?_⟩
      simp only [List.flatten_cons, List.length_append]
      omega

/-- On a fresh reader, the first line of a stream is reported by the call that
receives its LF, once and complete, exactly when the index of the LF and the
size of the chunk that brings it together stay below the size of the buffer. -/
theorem framing_iff
    (buflen : Nat) (r : Reader)
    (early : List Bytes) (last : Bytes) (later : List Bytes)
    (hr : (Reader.create buflen).readFrom none = .ok r)
    (hseg : Segmentation (buflen + 2) (early ++ [last]))
    (hearly : ∀ chunk ∈ early, LF ∉ chunk)
    (hlast : LF ∈ last) :
    callsPerChunk false r (early ++ last :: later) =
        early.map (fun _ => []) ++
          [.gotLine (firstLine (early.flatten ++ last))] :: later.map (fun _ => [])
      ↔
    (upTo LF (early.flatten ++ last)).length + last.length < buflen + 2 := by
  obtain rfl : started buflen [] = r := by
    rw [readFrom_create] at hr
    exact Except.ok.inj hr
  obtain ⟨hsegEarly, hne, hfit⟩ := segmentation_append_singleton early last _ hseg
  obtain ⟨before, after, rfl, hbefore⟩ := List.eq_append_cons_of_mem hlast
  have hsilent : LF ∉ early.flatten := by
    intro h
    obtain ⟨chunk, hchunk, hmem⟩ := List.mem_flatten.mp h
    exact hearly chunk hchunk hmem
  have hline : LF ∉ early.flatten ++ before := by
    simp [hsilent, hbefore]
  have hindex : (upTo LF (early.flatten ++ (before ++ LF :: after))).length =
      early.flatten.length + before.length := by
    rw [← List.append_assoc, upTo_append_of_not_mem hline]
    simp [upTo]
  have hsplit := callsPerChunk_started_append false
    ((before ++ LF :: after) :: later) early [] (by simp) (by simpa using hsegEarly) hearly
  rw [List.nil_append] at hsplit
  have hnewline := newlineAt_started_of_mem hfit hbefore
  have hpending : (started buflen early.flatten).evRead = .pending := rfl
  rw [hsplit, callsPerChunk, if_pos hpending, List.append_cancel_left_eq, hindex]
  by_cases hlt : early.flatten.length + before.length +
      (before ++ LF :: after).length < buflen + 2
  · rw [if_pos hlt] at hnewline
    obtain ⟨hcalls, hfreed⟩ := callsOf_started_of_some hne hfit hnewline
    have hreport := take_lineEnd_started buflen after hline
    rw [List.append_assoc, List.length_append] at hreport
    rw [hcalls, callsPerChunk_of_freed false hfreed, hreport]
    simp only [hlt]
  · rw [if_neg hlt] at hnewline
    have hcalls := callsOf_started_of_none false hne hfit hnewline
    rw [hcalls]
    constructor
    · intro h
      simp at h
    · intro h
      exact absurd h hlt

/-- A line that arrives in two chunks, its CR and LF in the second one. -/
theorem framing_two_chunks :
    callsPerChunk false (started 8 []) [lit "ab", lit "c\r\n", lit "d"] =
        [[], [.gotLine (lit "abc")], []]
      ↔
    4 + 3 < 10 :=
  framing_iff 8 (started 8 []) [lit "ab"] (lit "c\r\n") [lit "d"] rfl
    ⟨by decide, by decide, by decide, by decide, trivial⟩ (by decide) (by decide)

/-- A selector of 130 bytes and its CR LF in one chunk, on a reader for lines of
256 bytes: the newline is outside the window, and no line is reported. -/
theorem framing_long_chunk :
    Segmentation (256 + 2) [List.replicate 130 65 ++ [CR, LF]] ∧
      (firstLine (List.replicate 130 65 ++ [CR, LF])).length ≤ 256 ∧
      callsPerChunk false (started 256 []) [List.replicate 130 65 ++ [CR, LF]] ≠
        [[.gotLine (firstLine (List.replicate 130 65 ++ [CR, LF]))]] := by
  refine ⟨⟨?_, ?_, trivial⟩, ?_, ?_⟩
  · simp
  · simp
  · decide +kernel
  · decide +kernel

end Framing

end Gopher
end Goofy
