import Goofy.Gopher.ReaderRuns

/-!
# A reader that is used again

The buffer is not cleared between two reads, and the search for a newline looks behind
the bytes just received.  The first part compares a read of a used reader with one of a
new reader (`reads_independent_iff`): old newlines decide whether they agree.  The second
part is about an owner that asks for more lines (`goes_on_iff`).
-/

namespace Goofy
namespace Gopher

open Delimited Transition

namespace Reader

/-- No old newline that a read could see: none behind the cursor, but for the first and
the last index of the buffer. -/
def Clean (r : Reader) : Prop :=
  ∀ i, 1 ≤ i → r.cursor ≤ i → i + 1 < r.buffer.length → r.buffer[i]? ≠ some LF

section Reused

variable {r r' : Reader} {data : Bytes}

theorem clean_create (buflen : Nat) : (Reader.create buflen).Clean := by
  intro i _ _ _ hi
  simp only [Reader.create] at hi
  rw [List.getElem?_replicate] at hi
  split_ifs at hi
  simp [LF] at hi

theorem Clean.not_oldNewline
    (hr : r.Clean) {size : Nat} (hsize : size ≠ 0) :
    ¬ r.OldNewline size := by
  rintro ⟨i, hle, hlt, hi⟩
  exact hr i (by omega) (by omega) (by omega) hi

/-- What lies behind the new bytes is old. -/
theorem getElem?_received
    (hcursor : r.cursor ≤ r.buffer.length) {i : Nat} (hi : r.cursor + data.length ≤ i) :
    (r.received data).buffer[i]? = r.buffer[i]? := by
  have hdrop := congrArg (fun l => l[i - r.cursor]?) (drop_received data hcursor)
  simp only [List.getElem?_drop] at hdrop
  rw [Nat.add_sub_cancel' (by omega), List.getElem?_append_right (by omega),
    List.getElem?_drop] at hdrop
  rw [hdrop]
  congr 1
  omega

theorem Clean.received
    (hr : r.Clean) (hfit : r.cursor + data.length ≤ r.buffer.length) :
    (r.received data).Clean := by
  intro i hpos hle hlt
  have hle : r.cursor + data.length ≤ i := hle
  rw [length_received hfit] at hlt
  rw [getElem?_received (by omega) hle]
  exact hr i hpos (by omega) hlt

/-- Two readers in the middle of the same read: they received the same bytes since it
began, and see no others. -/
structure SameRead (r r' : Reader) : Prop where
  size : r.buffer.length = r'.buffer.length
  cursor : r.cursor = r'.cursor
  cursor_le : r.cursor ≤ r.buffer.length
  read : r.buffer.take r.cursor = r'.buffer.take r'.cursor
  clean : r.Clean
  clean' : r'.Clean

theorem SameRead.symm (h : SameRead r r') : SameRead r' r :=
  ⟨h.size.symm, h.cursor.symm, by rw [← h.cursor, ← h.size]; exact h.cursor_le, h.read.symm,
    h.clean', h.clean⟩

theorem SameRead.room (h : SameRead r r') : r.room = r'.room := by
  rw [Reader.room, Reader.room, h.size, h.cursor]

theorem SameRead.take_received (h : SameRead r r') (data : Bytes) :
    (r.received data).buffer.take (r.cursor + data.length) =
      (r'.received data).buffer.take (r.cursor + data.length) := by
  rw [Reader.take_received data h.cursor_le, h.read,
    ← Reader.take_received data h.symm.cursor_le, h.cursor]

/-- The same read goes on with the same bytes. -/
theorem SameRead.received
    (h : SameRead r r') (hfit : r.cursor + data.length ≤ r.buffer.length) :
    SameRead (r.received data) (r'.received data) := by
  have hfit' : r'.cursor + data.length ≤ r'.buffer.length := by
    rw [← h.cursor, ← h.size]
    exact hfit
  refine ⟨?_, ?_, ?_, ?_, h.clean.received hfit, h.clean'.received hfit'⟩
  · rw [length_received hfit, length_received hfit', h.size]
  · simp only [Reader.received, h.cursor]
  · rw [length_received hfit]
    exact hfit
  · have hread := h.take_received data
    show (r.received data).buffer.take (r.cursor + data.length) =
      (r'.received data).buffer.take (r'.cursor + data.length)
    rw [hread, h.cursor]

/-- Both see the same newline, among the new bytes. -/
theorem SameRead.newlineAt
    (h : SameRead r r') (hne : data ≠ []) :
    r.newlineAt data = r'.newlineAt data ∧
      ∀ i, r.newlineAt data = some i → i < r.cursor + data.length := by
  have hlen : data.length ≠ 0 := by simpa using hne
  by_cases hLF : LF ∈ data
  · obtain ⟨before, after, rfl, hbefore⟩ := List.eq_append_cons_of_mem hLF
    rw [newlineAt_append_cons h.cursor_le hbefore,
      newlineAt_append_cons h.symm.cursor_le hbefore, ← h.room, ← h.cursor]
    refine ⟨rfl, fun i hi => ?_⟩
    split_ifs at hi
    simp only [Option.some.injEq] at hi
    simp only [List.length_append, List.length_cons]
    omega
  · have hnone := (newlineAt_eq_none_iff h.cursor_le hLF).mpr (h.clean.not_oldNewline hlen)
    have hnone' := (newlineAt_eq_none_iff h.symm.cursor_le hLF).mpr
      (h.clean'.not_oldNewline hlen)
    rw [hnone, hnone']
    exact ⟨rfl, nofun⟩

/-- Where a line ends depends on the bytes before its newline. -/
theorem lineEnd_congr
    {a b : Bytes} {n i : Nat} (h : a.take n = b.take n) (hi : i < n) :
    lineEnd a i = lineEnd b i := by
  have hat : a[i - 1]? = b[i - 1]? := by
    have hget := congrArg (fun l => l[i - 1]?) h
    simpa only [List.getElem?_take_of_lt (show i - 1 < n by omega)] using hget
  unfold lineEnd
  rw [hat]

theorem lineEnd_le (buffer : Bytes) (i : Nat) : lineEnd buffer i ≤ i := by
  unfold lineEnd
  split_ifs
  · exact Nat.sub_le i 1
  · exact Nat.le_refl i

/-- Both report the same line. -/
theorem SameRead.lineAt
    (h : SameRead r r') {i : Nat} (hi : i < r.cursor + data.length) :
    Reading.lineAt r data i = Reading.lineAt r' data i := by
  have htake := h.take_received data
  have hend := lineEnd_congr htake hi
  have hle := lineEnd_le (r'.received data).buffer i
  have hline := congrArg (List.take (lineEnd (r'.received data).buffer i)) htake
  unfold Reading.lineAt
  rw [hend]
  rw [List.take_take, List.take_take, Nat.min_eq_left (by omega)] at hline
  exact hline

end Reused

end Reader

namespace Reading

open Reader

section Independence

variable {answer : Bytes → List ReaderCall → Except Fail Bool} {buflen : Nat}
  {s s' t : Reading}

/-- A reader that can be called back has a pending event. -/
theorem Enabled.pending
    {i : ReaderStep} (h : Enabled s i) (hcallback : i.IsCallback) :
    s.reader.evRead = .pending := by
  cases i with
  | readFrom add => exact absurd hcallback id
  | readable res add => exact h.2.1
  | timeout => exact h.2.1

/-- Two readers whose owners know the same, and that go on alike. -/
structure Alike (s s' : Reading) : Prop where
  outcome : s.outcome = s'.outcome
  calls : s.calls = s'.calls
  event : s.reader.evRead = s'.reader.evRead
  waiting : s.reader.evRead = .pending → s.reader.SameRead s'.reader

theorem Alike.symm (h : Alike s s') : Alike s' s :=
  ⟨h.outcome.symm, h.calls.symm, h.event.symm,
    fun hpending => (h.waiting (h.event.trans hpending)).symm⟩

/-- The same answer to the same line. -/
theorem Alike.heard
    (h : Alike s s') {data : Bytes} {i : Nat}
    (hline : lineAt s.reader data i = lineAt s'.reader data i)
    (add : AddResult) (reply : Except Fail Bool) :
    Alike (s.heard data add i reply) (s'.heard data add i reply) := by
  refine ⟨?_, ?_, ?_, fun hpending => absurd hpending (heard_not_pending _ _ _ _)⟩
  · rcases reply with f | again
    · cases f <;> rfl
    · rfl
  · rcases reply with f | again
    · cases f <;> simp only [Reading.heard, h.calls, hline]
    · simp only [Reading.heard, h.calls, hline]
  · rcases reply with f | again
    · cases f <;> rfl
    · rfl

/-- A step of one read is possible for both, and leaves them alike. -/
theorem Alike.step
    {i : ReaderStep} (h : Alike s s') (hstep : (oneRead answer buflen).step s i t) :
    ∃ t', (oneRead answer buflen).step s' i t' ∧ Alike t t' := by
  obtain ⟨hcallback, henabled, rfl⟩ := hstep
  have hpending := henabled.pending hcallback
  have hpending' : s'.reader.evRead = .pending := h.event ▸ hpending
  have hsame := h.waiting hpending
  have henabled' : Enabled s' i := by
    refine ⟨h.outcome ▸ henabled.1, ?_⟩
    cases i with
    | readFrom add => exact absurd hcallback id
    | readable res add => exact ⟨hpending', hsame.room ▸ henabled.2.2⟩
    | timeout => exact ⟨hpending', hsame.room ▸ henabled.2.2⟩
  refine ⟨s'.fire answer i, ⟨hcallback, henabled', rfl⟩, ?_⟩
  cases i with
  | readFrom add => exact absurd hcallback id
  | timeout => exact ⟨rfl, congrArg (· ++ [ReaderCall.gotTimeout]) h.calls, rfl, nofun⟩
  | readable res add =>
      cases res with
      | error errno =>
          exact ⟨rfl, congrArg (· ++ [ReaderCall.gotError (.ioError (lit "read") errno)]) h.calls,
            rfl, nofun⟩
      | ok data =>
          by_cases hnil : data = []
          · subst hnil
            exact ⟨rfl, congrArg (· ++ [ReaderCall.gotEof]) h.calls, rfl, nofun⟩
          · obtain ⟨hnewline, hlt⟩ := hsame.newlineAt hnil
            rw [fire_data add hpending hnil, fire_data add hpending' hnil, ← hnewline]
            cases hseen : s.reader.newlineAt data with
            | none =>
                have hfit : s.reader.cursor + data.length ≤ s.reader.buffer.length := by
                  have hroom : data.length ≤ s.reader.buffer.length - s.reader.cursor :=
                    henabled.2.2
                  have hcursor := hsame.cursor_le
                  omega
                have hreceived := hsame.received hfit
                exact ⟨rfl, h.calls, rfl, fun _ => ⟨hreceived.size, hreceived.cursor,
                  hreceived.cursor_le, hreceived.read, hreceived.clean, hreceived.clean'⟩⟩
            | some i =>
                have hline := hsame.lineAt (hlt i hseen)
                simp only [← h.calls, ← hline]
                exact h.heard hline add _

/-- What the owner is told in a read, callback after callback. -/
def Tells (answer : Bytes → List ReaderCall → Except Fail Bool) (buflen : Nat)
    (s : Reading) (is : List ReaderStep) (calls : List ReaderCall) : Prop :=
  ∃ t, Run (oneRead answer buflen) s is t ∧ t.calls = calls

theorem Alike.tells
    (h : Alike s s') {is : List ReaderStep} {calls : List ReaderCall}
    (htells : Tells answer buflen s is calls) :
    Tells answer buflen s' is calls := by
  obtain ⟨t, hrun, hcalls⟩ := htells
  obtain ⟨t', hrun', ht⟩ := hrun.simulate (fun _ _ _ _ h hstep => h.step hstep) h
  exact ⟨t', hrun', ht.calls.symm.trans hcalls⟩

/-- A clean free reader begins a read like a new one. -/
theorem alike_reopen
    (hs : WellFormed buflen s) (hfree : s.reader.evRead = .freed)
    (hclean : s.reader.Clean) (add : AddResult) :
    Alike (reopen add s.reader) (reopen add (.create buflen)) := by
  have hzero : s.reader.cursor = 0 := hs.free hfree
  rw [reopen_of_free add hfree, reopen_of_free add rfl]
  refine ⟨rfl, rfl, rfl, fun _ => ⟨?_, hzero, hs.cursor, ?_, hclean, clean_create buflen⟩⟩
  · exact hs.size.trans List.length_replicate.symm
  · simp only [hzero, List.take_zero]
    rfl

/-- One byte that is no newline, at the beginning of a read. -/
def oneByte : ReaderStep :=
  .readable (.ok [0]) none

theorem step_oneByte
    (hs : WellFormed buflen s) (hfree : s.reader.evRead = .freed) :
    (oneRead answer buflen).step (reopen none s.reader) oneByte
      ((reopen none s.reader).fire answer oneByte) := by
  have hsize := hs.size
  have hzero := hs.free hfree
  rw [reopen_of_free none hfree]
  refine ⟨trivial, ⟨rfl, rfl, ?_⟩, rfl⟩
  show 1 ≤ s.reader.buffer.length - s.reader.cursor
  omega

/-- The owner is told of a line exactly when an old newline is seen. -/
theorem calls_oneByte_iff
    (answer : Bytes → List ReaderCall → Except Fail Bool)
    (hs : WellFormed buflen s) (hfree : s.reader.evRead = .freed) :
    ((reopen none s.reader).fire answer oneByte).calls = [] ↔ s.reader.Clean := by
  have hsize := hs.size
  have hzero := hs.free hfree
  have hLF : LF ∉ ([0] : Bytes) := by decide
  rw [reopen_of_free none hfree]
  have hnewline := newlineAt_eq_none_iff
    (r := { s.reader with evRead := scheduled none }) hs.cursor hLF
  have hclean : ¬ s.reader.OldNewline 1 ↔ s.reader.Clean := by
    constructor
    · intro hnone i hpos _ hlt hi
      exact hnone ⟨i, by omega, by omega, hi⟩
    · intro hclean
      exact hclean.not_oldNewline (by decide)
  rw [oneByte, fire_data none rfl (by simp)]
  generalize hseen : ({ s.reader with evRead := scheduled none } : Reader).newlineAt [0] = seen
    at hnewline ⊢
  cases seen with
  | none =>
      have hold := hnewline.mp rfl
      exact ⟨fun _ => hclean.mp hold, fun _ => rfl⟩
  | some i =>
      have hold : ¬ s.reader.Clean := fun h => nomatch hnewline.mpr (hclean.mpr h)
      refine ⟨fun hcalls => ?_, fun h => absurd h hold⟩
      obtain ⟨later, hheard⟩ := heard_calls
        (s := ⟨.ok (), { s.reader with evRead := scheduled none }, [], none, []⟩)
        [0] none i (answer (lineAt { s.reader with evRead := scheduled none } [0] i) [])
      rw [hheard] at hcalls
      simp at hcalls

/-- After the first byte the owner of a new reader knows nothing. -/
theorem tells_oneByte_iff
    (answer : Bytes → List ReaderCall → Except Fail Bool)
    (hs : WellFormed buflen s) (hfree : s.reader.evRead = .freed) :
    Tells answer buflen (reopen none s.reader) [oneByte] [] ↔ s.reader.Clean := by
  rw [← calls_oneByte_iff answer hs hfree]
  constructor
  · rintro ⟨t, hrun, hcalls⟩
    cases hrun with
    | cons hfirst hrest =>
        cases hrest
        rw [← hfirst.2.2]
        exact hcalls
  · intro hcalls
    exact ⟨_, .cons (step_oneByte hs hfree) (.nil _), hcalls⟩

end Independence

end Reading

open Reading

/-- A reader that has ended any number of reads and is started again tells its owner what
a new reader tells, in every run of the new read and for every owner, exactly when its
buffer holds no newline but at its first or its last index. -/
theorem reads_independent_iff
    (earlier : Bytes → List ReaderCall → Except Fail Bool) (buflen : Nat)
    (is : List ReaderStep) (s : Reading)
    (hrun : Run (lifetime earlier buflen) (create buflen) is s)
    (hfree : s.reader.evRead = .freed) :
    (∀ answer add js calls,
        Tells answer buflen (reopen add s.reader) js calls ↔
          Tells answer buflen (reopen add (.create buflen)) js calls)
      ↔
    s.reader.Clean := by
  have hs := hrun.invariant (fun _ _ _ hs h => WellFormed.step hs h) (wellFormed_create buflen)
  constructor
  · intro hall
    have hnew := (tells_oneByte_iff (fun _ _ => .ok false)
      (wellFormed_create buflen) rfl).mpr (Reader.clean_create buflen)
    exact (tells_oneByte_iff _ hs hfree).mp ((hall _ none [oneByte] []).mpr hnew)
  · intro hclean answer add js calls
    have halike := alike_reopen hs hfree hclean add
    exact ⟨halike.tells, halike.symm.tells⟩

/-- A reader that has ended a read with the line "foo". -/
def readFoo : Reading :=
  (reopen none (.create 8)).fire (fun _ _ => .ok false) (.readable (.ok (lit "foo\r\n")) none)

/-- The newline of the line is still in its buffer, so its next read is not independent. -/
theorem reads_independent_readFoo :
    ((∀ answer add js calls,
        Tells answer 8 (reopen add readFoo.reader) js calls ↔
          Tells answer 8 (reopen add (.create 8)) js calls)
      ↔
    readFoo.reader.Clean) ∧ ¬ readFoo.reader.Clean := by
  constructor
  · refine reads_independent_iff (fun _ _ => .ok false) 8
      [.readFrom none, .readable (.ok (lit "foo\r\n")) none] readFoo
      (.cons ⟨⟨rfl, rfl⟩, rfl⟩ (.cons ⟨⟨rfl, rfl, ?_⟩, rfl⟩ (.nil _))) ?_
    · decide
    · decide
  · intro hclean
    exact hclean 4 (by decide) (by decide) (by decide) (by decide)

/-- Two runs that differ in the line of their first read, "foo" in one and the empty line
in the other.  The first byte of the second read, "b", is told as a line of four bytes in
the one, three of them from the first read, and not told in the other. -/
theorem second_read_leaks :
    ∃ s s', Run (lifetime (fun _ _ => .ok false) 8) (create 8)
        [.readFrom none, .readable (.ok (lit "foo\r\n")) none] s ∧
      Run (lifetime (fun _ _ => .ok false) 8) (create 8)
        [.readFrom none, .readable (.ok (lit "\n")) none] s' ∧
      s.reader.evRead = .freed ∧ s'.reader.evRead = .freed ∧
      Tells (fun _ _ => .ok false) 8 (reopen none s.reader) [.readable (.ok (lit "b")) none]
        [.gotLine [98, 111, 111, 0]] ∧
      Tells (fun _ _ => .ok false) 8 (reopen none s'.reader) [.readable (.ok (lit "b")) none]
        [] := by
  refine ⟨_, _, .cons ⟨⟨rfl, rfl⟩, rfl⟩ (.cons ⟨⟨rfl, rfl, ?_⟩, rfl⟩ (.nil _)),
    .cons ⟨⟨rfl, rfl⟩, rfl⟩ (.cons ⟨⟨rfl, rfl, ?_⟩, rfl⟩ (.nil _)), ?_, ?_,
    ⟨_, .cons ⟨trivial, ⟨?_, ?_, ?_⟩, rfl⟩ (.nil _), ?_⟩,
    ⟨_, .cons ⟨trivial, ⟨?_, ?_, ?_⟩, rfl⟩ (.nil _), ?_⟩⟩
  all_goals decide

namespace Reading

/-- The owner that asks for more after each of the first `k` lines. -/
def asksFor (k : Nat) (_ : Bytes) (calls : List ReaderCall) : Except Fail Bool :=
  .ok (decide (calls.length < k))

/-- The complete lines of a stream, in order. -/
def completeLines (stream : Bytes) : List Bytes :=
  (stream.splitOn LF).dropLast.map chopCR

/-- The lines that were reported. -/
def linesOf (calls : List ReaderCall) : List Bytes :=
  calls.filterMap (fun call =>
    match call with
    | .gotLine line => some line
    | _ => none)

/-- The owner was told of an end, or answered a line with false. -/
def Ended (k : Nat) (calls : List ReaderCall) : Prop :=
  .gotEof ∈ calls ∨ .gotTimeout ∈ calls ∨ (∃ e, .gotError e ∈ calls) ∨
    k < (linesOf calls).length

/-- What is asked of a read whose owner wants more after the first `k` lines: the first
`k + 1` lines are reported, each once and in order; the reader is free exactly after the
end, and waits, if `event_add` did not fail, until then. -/
structure GoesOn (k : Nat) (s : Reading) : Prop where
  outcome : s.outcome = .ok ()
  lines : linesOf s.calls = (completeLines s.received).take (k + 1)
  free : s.reader.evRead = .freed ↔ Ended k s.calls
  waiting : s.reader.evRead = .pending ↔ ¬ Ended k s.calls ∧ s.added = none

/-- The reads that go wrong: one that brings a newline, unless the owner wants one line
only and the newline is in the window, and one that uncovers an old newline. -/
def Breaks (k : Nat) (s : Reading) : ReaderStep → Prop
  | .readable (.ok data) _ =>
      (LF ∈ data ∧ (0 < k ∨ s.reader.room ≤ (upTo LF data).length + data.length)) ∨
        (data ≠ [] ∧ LF ∉ data ∧ s.reader.OldNewline data.length)
  | _ => False

section Lines

theorem completeLines_of_not_mem
    {stream : Bytes} (h : LF ∉ stream) : completeLines stream = [] := by
  simp [completeLines, List.splitOn_eq_singleton h]

theorem completeLines_append_cons
    {line : Bytes} (hline : LF ∉ line) (rest : Bytes) :
    completeLines (line ++ LF :: rest) = chopCR line :: completeLines rest := by
  have hne : rest.splitOn LF ≠ [] := List.splitOn_ne_nil LF rest
  simp only [completeLines, List.splitOn_append_cons_self, List.splitOn_eq_singleton hline,
    List.singleton_append]
  rw [List.dropLast_cons_of_ne_nil hne, List.map_cons]

theorem upTo_append_cons {line : Bytes} (hline : LF ∉ line) (rest : Bytes) :
    upTo LF (line ++ LF :: rest) = line := by
  rw [upTo_append_of_not_mem hline]
  simp [upTo]

end Lines

section GoesOn

variable {k buflen : Nat} {s t : Reading}

/-- Nothing was told yet, and no line is complete. -/
def Quiet (s : Reading) : Prop :=
  s.reader.evRead = .pending → s.calls = [] ∧ LF ∉ s.received

/-- A read that ends before a line is complete. -/
theorem goesOn_of_end
    (r : Reader) {received : Bytes} (added : AddResult) {call : ReaderCall}
    (hreceived : LF ∉ received) (hcall : ∀ line, call ≠ .gotLine line) :
    GoesOn k ⟨.ok (), r.finish, received, added, [call]⟩ := by
  have hlines : linesOf [call] = [] := by
    cases call with
    | gotLine line => exact absurd rfl (hcall line)
    | gotEof => rfl
    | gotTimeout => rfl
    | gotError e => rfl
  have hended : Ended k [call] := by
    cases call with
    | gotLine line => exact absurd rfl (hcall line)
    | gotEof => exact .inl (by simp)
    | gotTimeout => exact .inr (.inl (by simp))
    | gotError e => exact .inr (.inr (.inl ⟨e, by simp⟩))
  refine ⟨rfl, ?_, ⟨fun _ => hended, fun _ => rfl⟩, ⟨nofun, fun h => absurd hended h.1⟩⟩
  rw [hlines, completeLines_of_not_mem hreceived, List.take_nil]

theorem not_ended_nil : ¬ Ended k [] := by
  simp [Ended, linesOf]

/-- A reader that waits for the end of its first line. -/
theorem goesOn_of_waiting
    {r : Reader} {received : Bytes} (added : AddResult)
    (hevent : r.evRead = scheduled added) (hreceived : LF ∉ received) :
    GoesOn k ⟨.ok (), r, received, added, []⟩ := by
  refine ⟨rfl, ?_, ?_, ?_⟩
  · rw [completeLines_of_not_mem hreceived]
    rfl
  · simp only [not_ended_nil, iff_false, hevent]
    cases added <;> exact nofun
  · simp only [not_ended_nil, not_false_eq_true, true_and, hevent]
    cases added with
    | none => simp [scheduled]
    | some e => simp [scheduled]

/-- A read that ends with its first line. -/
theorem goesOn_of_line
    (r : Reader) (added : AddResult) {line : Bytes} (hline : LF ∉ line) (rest : Bytes) :
    GoesOn 0 ⟨.ok (), r.finish, line ++ LF :: rest, added, [.gotLine (chopCR line)]⟩ := by
  have hended : Ended 0 [.gotLine (chopCR line)] :=
    .inr (.inr (.inr (by simp [linesOf])))
  refine ⟨rfl, ?_, ⟨fun _ => hended, fun _ => rfl⟩, ⟨nofun, fun h => absurd hended h.1⟩⟩
  rw [completeLines_append_cons hline, List.take_succ_cons, List.take_zero]
  rfl

/-- The line that a first newline completes is the first line of the bytes received. -/
theorem lineAt_eq
    {r : Reader} (before after : Bytes) (hcursor : r.cursor ≤ r.buffer.length) :
    lineAt r (before ++ LF :: after) (r.cursor + before.length) =
      chopCR (r.buffer.take r.cursor ++ before) := by
  have hlen : (r.buffer.take r.cursor ++ before).length = r.cursor + before.length := by
    rw [List.length_append, List.length_take_of_le hcursor]
  have hbuffer : (r.received (before ++ LF :: after)).buffer =
      (r.buffer.take r.cursor ++ before) ++
        (LF :: after ++ r.buffer.drop (r.cursor + (before ++ LF :: after).length)) := by
    simp only [Reader.received, overwrite, List.append_assoc]
  unfold lineAt
  rw [hbuffer, ← hlen]
  exact take_lineEnd_append _ _

/-- A call that sees no newline goes wrong exactly when it received one. -/
theorem goesOn_more_iff
    (hs : WellFormed buflen s) (hquiet : s.calls = [] ∧ LF ∉ s.received)
    {data : Bytes} (add : AddResult) (hne : data ≠ [])
    (hnone : s.reader.newlineAt data = none) :
    (GoesOn k ⟨.ok (), waiting s.reader data add, s.received ++ data, add, s.calls⟩ ↔
        ¬ Breaks k s (.readable (.ok data) add)) ∧
      (¬ Breaks k s (.readable (.ok data) add) → LF ∉ s.received ++ data) := by
  obtain ⟨hcalls, hreceived⟩ := hquiet
  by_cases hLF : LF ∈ data
  · obtain ⟨before, after, rfl, hbefore⟩ := List.eq_append_cons_of_mem hLF
    have hbreaks : Breaks k s (.readable (.ok (before ++ LF :: after)) add) := by
      rw [Reader.newlineAt_append_cons hs.cursor hbefore] at hnone
      refine .inl ⟨hLF, .inr ?_⟩
      rw [upTo_append_cons hbefore]
      split_ifs at hnone with hlt
      exact Nat.not_lt.mp hlt
    refine ⟨⟨fun hgoes => absurd hgoes.lines ?_, fun h => absurd hbreaks h⟩,
      fun h => absurd hbreaks h⟩
    have hline : LF ∉ s.received ++ before := by simp [hreceived, hbefore]
    simp only
    rw [hcalls, ← List.append_assoc, completeLines_append_cons hline, List.take_succ_cons]
    exact nofun
  · have hold := (Reader.newlineAt_eq_none_iff hs.cursor hLF).mp hnone
    have hall : LF ∉ s.received ++ data := by simp [hreceived, hLF]
    have hbreaks : ¬ Breaks k s (.readable (.ok data) add) := by
      rintro (⟨h, -⟩ | ⟨-, -, h⟩)
      · exact hLF h
      · exact hold h
    refine ⟨⟨fun _ => hbreaks, fun _ => ?_⟩, fun _ => hall⟩
    rw [hcalls]
    exact goesOn_of_waiting add rfl hall

/-- A call that sees a newline goes wrong, but for the first line of an owner that wants
one only. -/
theorem goesOn_line_iff
    (hs : WellFormed buflen s) (hquiet : s.calls = [] ∧ LF ∉ s.received)
    (hpending : s.reader.evRead = .pending)
    {data : Bytes} {i : Nat} (add : AddResult) (hne : data ≠ [])
    (hsome : s.reader.newlineAt data = some i) :
    GoesOn k (s.heard data add i (asksFor k (lineAt s.reader data i) s.calls)) ↔
      ¬ Breaks k s (.readable (.ok data) add) := by
  obtain ⟨hcalls, hreceived⟩ := hquiet
  by_cases hLF : LF ∈ data
  · obtain ⟨before, after, rfl, hbefore⟩ := List.eq_append_cons_of_mem hLF
    rw [Reader.newlineAt_append_cons hs.cursor hbefore] at hsome
    split_ifs at hsome with hlt
    obtain rfl : s.reader.cursor + before.length = i := by simpa using hsome
    have hline : LF ∉ s.received ++ before := by simp [hreceived, hbefore]
    have hbreaks : Breaks k s (.readable (.ok (before ++ LF :: after)) add) ↔ 0 < k := by
      refine ⟨?_, fun hk => .inl ⟨hLF, .inl hk⟩⟩
      rintro (⟨-, hk | hwindow⟩ | ⟨-, hnot, -⟩)
      · exact hk
      · rw [upTo_append_cons hbefore] at hwindow
        exact absurd hlt (Nat.not_lt.mpr hwindow)
      · exact absurd hLF hnot
    have hlineAt := lineAt_eq before after hs.cursor
    rw [hs.waiting hpending] at hlineAt
    rw [hbreaks]
    constructor
    · intro hgoes hk
      have houtcome := hgoes.outcome
      simp [asksFor, heard, hcalls, hk] at houtcome
    · intro hk
      obtain rfl : k = 0 := Nat.eq_zero_of_not_pos hk
      simp only [asksFor, heard, hcalls, hlineAt, List.nil_append, List.length_nil,
        Nat.lt_irrefl, decide_false, Bool.false_eq_true, if_false]
      rw [← List.append_assoc s.received before]
      exact goesOn_of_line _ add hline after
  · have hold : s.reader.OldNewline data.length := by
      by_contra hold
      rw [(Reader.newlineAt_eq_none_iff hs.cursor hLF).mpr hold] at hsome
      cases hsome
    have hall : LF ∉ s.received ++ data := by simp [hreceived, hLF]
    refine ⟨fun hgoes => ?_, fun h => absurd (.inr ⟨hne, hLF, hold⟩) h⟩
    obtain ⟨later, htold⟩ := heard_calls (s := s) data add i
      (asksFor k (lineAt s.reader data i) s.calls)
    have hlines := hgoes.lines
    rw [htold, hcalls] at hlines
    simp [asksFor, heard, completeLines_of_not_mem hall, linesOf] at hlines

theorem not_breaks_nil (add : AddResult) : ¬ Breaks k s (.readable (.ok []) add) := by
  simp [Breaks]

/-- One call: whether it goes wrong, and that nothing is told by a call that leaves the
reader waiting. -/
theorem goesOn_step_iff
    {i : ReaderStep} (hs : WellFormed buflen s) (hquiet : Quiet s)
    (h : (oneRead (asksFor k) buflen).step s i t) :
    (GoesOn k t ↔ ¬ Breaks k s i) ∧ (¬ Breaks k s i → Quiet t) := by
  obtain ⟨hcallback, hstep⟩ := h
  have henabled := hstep.1
  have hpending := henabled.pending hcallback
  have hnothing := hquiet hpending
  cases stepCases_of_step hstep with
  | readFrom hfree => exact absurd hcallback id
  | timeout =>
      rw [hnothing.1]
      exact ⟨⟨fun _ => id, fun _ => goesOn_of_end _ _ hnothing.2 (by simp)⟩, fun _ => nofun⟩
  | failed =>
      rw [hnothing.1]
      exact ⟨⟨fun _ => id, fun _ => goesOn_of_end _ _ hnothing.2 (by simp)⟩, fun _ => nofun⟩
  | @eof add =>
      rw [hnothing.1]
      exact ⟨⟨fun _ => not_breaks_nil add, fun _ => goesOn_of_end _ _ hnothing.2 (by simp)⟩,
        fun _ => nofun⟩
  | @more data add hne hnone =>
      obtain ⟨hiff, hline⟩ := goesOn_more_iff (k := k) hs hnothing add hne hnone
      exact ⟨hiff, fun hbreaks _ => ⟨hnothing.1, hline hbreaks⟩⟩
  | @line data add i hne hsome =>
      refine ⟨goesOn_line_iff hs hnothing hpending add hne hsome, fun _ hwaits => ?_⟩
      exact absurd hwaits (heard_not_pending _ _ _ _)

end GoesOn

end Reading

/-- A used reader is started for an owner that asks for more after each of the first `k`
lines.  In every run of the read without a call that breaks it, the lines are reported as
the owner asks; and of the calls that such a run can go on with, those that break it
report otherwise, and no others. -/
theorem goes_on_iff
    (earlier : Bytes → List ReaderCall → Except Fail Bool) (buflen k : Nat)
    (is : List ReaderStep) (s : Reading) (add : AddResult)
    (hrun : Run (lifetime earlier buflen) (create buflen) is s)
    (hfree : s.reader.evRead = .freed) :
    ∀ js t, Run ((oneRead (asksFor k) buflen).restrict (fun s i => ¬ Breaks k s i))
        (reopen add s.reader) js t →
      GoesOn k t ∧
        ∀ i u, (oneRead (asksFor k) buflen).step t i u → (GoesOn k u ↔ ¬ Breaks k t i) := by
  intro js t hread
  have hs := hrun.invariant (fun _ _ _ hs h => WellFormed.step hs h) (wellFormed_create buflen)
  have hzero : s.reader.cursor = 0 := hs.free hfree
  have hstart : WellFormed buflen (reopen add s.reader) ∧ Quiet (reopen add s.reader) ∧
      GoesOn k (reopen add s.reader) := by
    rw [reopen_of_free add hfree]
    refine ⟨⟨hs.size, hs.cursor, fun _ => hzero, fun _ => ?_⟩, fun _ => ⟨rfl, by simp⟩,
      goesOn_of_waiting add rfl (by simp)⟩
    simp only [hzero, List.take_zero]
  have hstep : ∀ s i t, WellFormed buflen s ∧ Quiet s ∧ GoesOn k s →
      ((oneRead (asksFor k) buflen).restrict (fun s i => ¬ Breaks k s i)).step s i t →
        WellFormed buflen t ∧ Quiet t ∧ GoesOn k t := by
    rintro s i t ⟨hs, hquiet, -⟩ ⟨hbreaks, h⟩
    obtain ⟨hiff, hnext⟩ := goesOn_step_iff hs hquiet h
    exact ⟨hs.step h.2, hnext hbreaks, hiff.mpr hbreaks⟩
  obtain ⟨ht, hquiet, hgoes⟩ := hread.invariant hstep hstart
  exact ⟨hgoes, fun i u h => (goesOn_step_iff ht hquiet h).1⟩

/-- A new reader that has received a part of its first line. -/
theorem goes_on_new :
    ∃ t, Run ((oneRead (asksFor 1) 8).restrict (fun s i => ¬ Breaks 1 s i))
        (reopen none (create 8).reader) [.readable (.ok (lit "ab")) none] t ∧
      GoesOn 1 t ∧
        ∀ i u, (oneRead (asksFor 1) 8).step t i u → (GoesOn 1 u ↔ ¬ Breaks 1 t i) := by
  have hrun : Run ((oneRead (asksFor 1) 8).restrict (fun s i => ¬ Breaks 1 s i))
      (reopen none (create 8).reader) [.readable (.ok (lit "ab")) none]
      ((reopen none (create 8).reader).fire (asksFor 1) (.readable (.ok (lit "ab")) none)) := by
    refine .cons ⟨?_, trivial, ⟨rfl, rfl, ?_⟩, rfl⟩ (.nil _)
    · rintro (⟨hLF, -⟩ | ⟨-, -, hold⟩)
      · exact absurd hLF (by decide)
      · exact (Reader.clean_create 8).not_oldNewline (by decide) hold
    · decide
  exact ⟨_, hrun, goes_on_iff (fun _ _ => .ok false) 8 1 [] (create 8) none (.nil _) rfl _ _ hrun⟩

/-- The first of two lines, for an owner that wants both: the event is scheduled after it
was freed. -/
theorem second_line_undefined :
    ∃ t, Run (oneRead (asksFor 1) 8) (reopen none (.create 8))
        [.readable (.ok (lit "a\nb\n")) none] t ∧
      t.calls = [.gotLine (lit "a")] ∧ t.outcome = .error .undefined ∧
      t.reader.evRead = .freed := by
  refine ⟨_, .cons ⟨trivial, ⟨rfl, rfl, ?_⟩, rfl⟩ (.nil _), ?_, ?_, ?_⟩
  · decide
  · decide
  · decide
  · decide

end Gopher
end Goofy
