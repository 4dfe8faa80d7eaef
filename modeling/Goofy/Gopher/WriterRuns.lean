import Goofy.Gopher.Delivery
import Mathlib.Data.List.TakeDrop

/-!
# Runs of the writers

Every writer is called back while its event is pending: with a writable socket and
what `write` or `sendfile` returns there, or with a timeout.  A file is sent exactly
once (`file_sent_once`): the two counters of its writer agree, and success is told in
the call that leaves no byte.  The second part asks whether each call makes progress
or ends the write (`progresses_iff`).
-/

namespace Goofy
namespace Gopher

open Effect Transition

/-- A regular file: its size is an `off_t`. -/
structure RegularFile where
  bytes : Bytes
  size_lt : bytes.length < 2 ^ 63

namespace RegularFile

def size (file : RegularFile) : Nat :=
  file.bytes.length

theorem size_lt_size_t (file : RegularFile) : file.size < 2 ^ 64 := by
  have hsize := file.size_lt
  unfold size
  omega

end RegularFile

/-- What a writer is made for: a buffer, a menu, or a file behind a descriptor. -/
inductive Job where
  | bytes (buffer : Bytes)
  | menu (buffer : Bytes)
  | file (fd : Nat) (content : RegularFile)

namespace Job

/-- The writer of a job, as its constructor leaves it. -/
def body : Job → Body
  | bytes buffer => .bytes { buffer }
  | menu buffer => .menu ⟨{ buffer }⟩
  | .file fd content => .file ⟨fd, 0, content.size⟩

/-- The bytes behind the descriptor. -/
def contents : Job → Bytes
  | .file _ content => content.bytes
  | _ => []

@[simp]
theorem contents_file (fd : Nat) (content : RegularFile) :
    (Job.file fd content).contents = content.bytes := by
  rfl

end Job

/-- One callback of a waiting writer: the results of the system call and of
`event_add` on a writable socket, or a timeout. -/
inductive WriteEvent where
  | writable (res : Except Errno Nat) (add : AddResult)
  | timeout

/-- How many bytes the kernel took in a callback. -/
def WriteEvent.taken : WriteEvent → Nat
  | writable (.ok sent) _ => sent
  | _ => 0

namespace Writer

section Settled

variable {S : Type}

/-- How a call ends that got past its system call. -/
def settled (wp : WriteParams S) (add : AddResult) (again : Bool)
    (body : Body) (s : S) : Except Fail Unit × Writer × S :=
  match again, add with
  | false, _ => (.ok (), ⟨.idle, body⟩, wp.gotSuccess s)
  | true, none => (.ok (), ⟨.pending, body⟩, s)
  | true, some e => (.ok (), ⟨.freed, body⟩, wp.gotError (addFailure e) s)

theorem cbWrite_of_proceed
    (wp : WriteParams S) (add : AddResult) (res : Except Errno Nat)
    {again : Bool} {body : Body} {w : Writer} (s : S)
    (hw : w.evWrite = .idle)
    (hchunk : writeChunk wp add res w s = proceed wp add again { w with body } s) :
    cbWrite wp add res w s = settled wp add again body s := by
  have hidle : ({ w with body } : Writer).evWrite = .idle := hw
  unfold cbWrite
  rw [hchunk]
  cases again with
  | false => simp [proceed, settled, hw]
  | true =>
      simp only [proceed, if_true, schedule_idle add hidle]
      cases add with
      | none => rfl
      | some e => rfl

/-- A system call that failed ends the write. -/
theorem cbWrite_error
    (wp : WriteParams S) (add : AddResult) (errno : Errno)
    (w : Writer) (s : S) :
    ∃ e, cbWrite wp add (.error errno) w s =
      (.ok (), w.finish, wp.gotError e s) := by
  unfold cbWrite writeChunk
  cases w.body with
  | bytes b => exact ⟨_, rfl⟩
  | menu m => exact ⟨_, rfl⟩
  | file f => exact ⟨_, rfl⟩

/-- The counters of a file writer move together. -/
theorem cbWrite_file
    (wp : WriteParams S) (add : AddResult) {f : FileWriter} {sent : Nat}
    {w : Writer} (s : S)
    (hw : w.evWrite = .idle) (hbody : w.body = .file f)
    (hsent : sent ≤ f.toSend) (hsize : f.toSend < 2 ^ 64) :
    cbWrite wp add (.ok sent) w s =
      settled wp add (decide (sent < f.toSend))
        (.file { f with offset := f.offset + sent, toSend := f.toSend - sent }) s := by
  have hsub : Util.sizeSub f.toSend sent = f.toSend - sent :=
    Util.sizeSub_of_le hsent hsize
  have hagain : (f.toSend - sent > 0) = (sent < f.toSend) := by
    simp only [gt_iff_lt, Nat.sub_pos_iff_lt]
  refine cbWrite_of_proceed wp add (.ok sent) s hw ?_
  simp only [writeChunk, hbody, writeChunkFile, hsub, hagain]

/-- The cursor of a bytes writer moves, modulo its width. -/
theorem writeChunkBytes_ok
    (wp : WriteParams S) (add : AddResult) (set : BytesWriter → Body)
    {b : BytesWriter} {sent : Nat} (w : Writer) (s : S)
    (hpos : sent ≠ 0) (hsent : sent ≤ b.buffer.length - b.cursor.toNat) :
    ∃ cursor, cursor.toNat = (b.cursor.toNat + sent) % 2 ^ 32 ∧
      cursor.toNat ≤ b.buffer.length ∧
      writeChunkBytes wp add (.ok sent) set b w s =
        proceed wp add (decide (cursor.toNat < b.buffer.length))
          { w with body := set { b with cursor } } s := by
  have hle := cursor_add_le hsent hpos
  have hnat : (b.cursor + UInt32.ofNat sent).toNat = (b.cursor.toNat + sent) % 2 ^ 32 := by
    simp [UInt32.toNat_add, UInt32.toNat_ofNat']
  refine ⟨b.cursor + UInt32.ofNat sent, hnat, hle, ?_⟩
  simp only [writeChunkBytes, if_neg hpos]
  generalize b.cursor + UInt32.ofNat sent = cursor at hle ⊢
  by_cases hlt : cursor.toNat < b.buffer.length
  · simp [hlt]
  · have heq : cursor.toNat = b.buffer.length := by omega
    simp [heq]

end Settled

end Writer

namespace Delivery

/-- The bytes that a writer offers to the kernel. -/
def source (contents : Bytes) (w : Writer) : Bytes :=
  match w.body with
  | .bytes b => b.buffer.drop b.cursor.toNat
  | .menu m => m.buffer.drop m.cursor.toNat
  | .file f => (contents.drop f.offset).take f.toSend

/-- After `write_to`. -/
def begin (add : AddResult) (job : Job) : Delivery :=
  match Writer.writeTo add (.create job.body) with
  | (outcome, writer) => ⟨outcome, writer, [], []⟩

/-- One callback; the kernel takes the first of the bytes offered. -/
def fire (contents : Bytes) (s : Delivery) (i : WriteEvent) : Delivery :=
  let fired : Writer := { s.writer with evWrite := s.writer.evWrite.fired }
  let out :=
    match i with
    | .writable res add => Writer.cbWrite tellAll add res fired s.told
    | .timeout => Writer.cbWriteTimeout tellAll fired s.told
  ⟨out.1, out.2.1, s.wire ++ (source contents s.writer).take i.taken, out.2.2⟩

/-- The runs of a job: a waiting writer is called back, and the kernel takes no more
than the writer asks for. -/
def runs (job : Job) : System Delivery WriteEvent where
  init s := ∃ add, s = begin add job
  step s i t :=
    s.outcome = .ok () ∧ s.writer.evWrite = .pending ∧
      i.taken ≤ s.writer.asked ∧ t = s.fire job.contents i

/-- How the kernel's count moves a body, and whether bytes remain then. -/
inductive Advances (sent : Nat) : Body → Bool → Body → Prop
  | file {f : FileWriter} :
      Advances sent (.file f) (decide (sent < f.toSend))
        (.file { f with offset := f.offset + sent, toSend := f.toSend - sent })
  | bytes {b : BytesWriter} {cursor : UInt32}
      (hpos : sent ≠ 0)
      (hcursor : cursor.toNat = (b.cursor.toNat + sent) % 2 ^ 32)
      (hle : cursor.toNat ≤ b.buffer.length) :
      Advances sent (.bytes b) (decide (cursor.toNat < b.buffer.length))
        (.bytes { b with cursor })
  | menu {m : MenuWriter} {cursor : UInt32}
      (hpos : sent ≠ 0)
      (hcursor : cursor.toNat = (m.cursor.toNat + sent) % 2 ^ 32)
      (hle : cursor.toNat ≤ m.buffer.length) :
      Advances sent (.menu m) (decide (cursor.toNat < m.buffer.length))
        (.menu ⟨{ m.toBytesWriter with cursor }⟩)

/-- All that a callback can do. -/
inductive Fires (contents : Bytes) (s : Delivery) : WriteEvent → Delivery → Prop
  | timeout :
      Fires contents s .timeout
        ⟨.ok (), ⟨.freed, s.writer.body⟩, s.wire, s.told ++ [.timeout]⟩
  | failed {errno : Errno} {add : AddResult} (e : Exn) :
      Fires contents s (.writable (.error errno) add)
        ⟨.ok (), ⟨.freed, s.writer.body⟩, s.wire, s.told ++ [.error e]⟩
  | refused {add : AddResult} (e : Exn) (hbody : ∀ f, s.writer.body ≠ .file f) :
      Fires contents s (.writable (.ok 0) add)
        ⟨.ok (), ⟨.freed, s.writer.body⟩, s.wire, s.told ++ [.error e]⟩
  | done {sent : Nat} {add : AddResult} {body : Body}
      (hbody : Advances sent s.writer.body false body) :
      Fires contents s (.writable (.ok sent) add)
        ⟨.ok (), ⟨.idle, body⟩, s.wire ++ (source contents s.writer).take sent,
          s.told ++ [.success]⟩
  | more {sent : Nat} {body : Body}
      (hbody : Advances sent s.writer.body true body) :
      Fires contents s (.writable (.ok sent) none)
        ⟨.ok (), ⟨.pending, body⟩, s.wire ++ (source contents s.writer).take sent, s.told⟩
  | unscheduled {sent : Nat} {errno : Errno} {body : Body}
      (hbody : Advances sent s.writer.body true body) :
      Fires contents s (.writable (.ok sent) (some errno))
        ⟨.ok (), ⟨.freed, body⟩, s.wire ++ (source contents s.writer).take sent,
          s.told ++ [.error (Writer.addFailure errno)]⟩

/-- The bytes left of a file are counted by a `size_t`. -/
def Sized (w : Writer) : Prop :=
  ∀ f, w.body = .file f → f.toSend < 2 ^ 64

section Firing

variable {contents : Bytes} {s : Delivery}

/-- A call that got past its system call. -/
theorem fires_of_settled
    {sent : Nat} {add : AddResult} {again : Bool} {body : Body}
    (hcall : Writer.cbWrite tellAll add (.ok sent) ⟨s.writer.evWrite.fired, s.writer.body⟩
      s.told = Writer.settled tellAll add again body s.told)
    (hbody : Advances sent s.writer.body again body) :
    Fires contents s (.writable (.ok sent) add)
      (s.fire contents (.writable (.ok sent) add)) := by
  simp only [fire, hcall, WriteEvent.taken]
  cases again with
  | false => exact .done hbody
  | true =>
      cases add with
      | none => exact .more hbody
      | some errno => exact .unscheduled hbody

/-- A writable callback of a bytes writer or a menu writer. -/
theorem fires_bytes
    (set : BytesWriter → Body) {b : BytesWriter} {sent : Nat} (add : AddResult)
    (hidle : s.writer.evWrite.fired = .idle)
    (hfile : ∀ f, s.writer.body ≠ .file f)
    (hchunk : ∀ w : Writer, w.body = s.writer.body →
      Writer.writeChunk tellAll add (.ok sent) w s.told =
        Writer.writeChunkBytes tellAll add (.ok sent) set b w s.told)
    (hadvances : ∀ cursor : UInt32, sent ≠ 0 →
      cursor.toNat = (b.cursor.toNat + sent) % 2 ^ 32 →
      cursor.toNat ≤ b.buffer.length →
      Advances sent s.writer.body (decide (cursor.toNat < b.buffer.length))
        (set { b with cursor }))
    (hsent : sent ≤ b.buffer.length - b.cursor.toNat) :
    Fires contents s (.writable (.ok sent) add)
      (s.fire contents (.writable (.ok sent) add)) := by
  by_cases hzero : sent = 0
  · subst hzero
    have hcall : Writer.cbWrite tellAll add (.ok 0)
        ⟨s.writer.evWrite.fired, s.writer.body⟩ s.told =
          (.ok (), ⟨.freed, s.writer.body⟩,
            s.told ++ [.error (.ioError (lit "wrote 0 bytes") 0)]) := by
      unfold Writer.cbWrite
      rw [hchunk ⟨s.writer.evWrite.fired, s.writer.body⟩ rfl]
      rfl
    simp only [fire, hcall, WriteEvent.taken, List.take_zero, List.append_nil]
    exact .refused _ hfile
  · obtain ⟨cursor, hcursor, hle, heq⟩ := Writer.writeChunkBytes_ok tellAll add set
      ⟨s.writer.evWrite.fired, s.writer.body⟩ s.told hzero hsent
    have hcall := Writer.cbWrite_of_proceed tellAll add (.ok sent)
      (w := ⟨s.writer.evWrite.fired, s.writer.body⟩) s.told hidle
      ((hchunk ⟨s.writer.evWrite.fired, s.writer.body⟩ rfl).trans heq)
    exact fires_of_settled hcall (hadvances cursor hzero hcursor hle)

/-- Every step of a run is one of these. -/
theorem fires_of_step
    {job : Job} {i : WriteEvent} {t : Delivery} (hsize : Sized s.writer)
    (h : (runs job).step s i t) :
    Fires job.contents s i t := by
  obtain ⟨-, hpending, htaken, rfl⟩ := h
  have hidle : s.writer.evWrite.fired = .idle := by
    rw [hpending]
    rfl
  cases i with
  | timeout =>
      simp only [fire, Writer.cbWriteTimeout, WriteEvent.taken, List.take_zero,
        List.append_nil]
      exact .timeout
  | writable res add =>
      cases res with
      | error errno =>
          obtain ⟨e, hcall⟩ := Writer.cbWrite_error tellAll add errno
            ⟨s.writer.evWrite.fired, s.writer.body⟩ s.told
          simp only [fire, hcall, WriteEvent.taken, List.take_zero, List.append_nil]
          exact .failed e
      | ok sent =>
          simp only [WriteEvent.taken, Writer.asked] at htaken
          cases hbody : s.writer.body with
          | bytes b =>
              rw [hbody] at htaken
              refine fires_bytes .bytes add hidle (by simp [hbody]) ?_ ?_ htaken
              · intro w hw
                simp only [Writer.writeChunk, hw, hbody]
              · intro cursor hpos hcursor hle
                rw [hbody]
                exact .bytes hpos hcursor hle
          | menu m =>
              rw [hbody] at htaken
              refine fires_bytes (fun b => .menu ⟨b⟩) add hidle (by simp [hbody]) ?_ ?_ htaken
              · intro w hw
                simp only [Writer.writeChunk, hw, hbody]
              · intro cursor hpos hcursor hle
                rw [hbody]
                exact .menu hpos hcursor hle
          | file f =>
              rw [hbody] at htaken
              have hcall := Writer.cbWrite_file tellAll add
                (w := ⟨s.writer.evWrite.fired, s.writer.body⟩) s.told
                hidle hbody htaken (hsize f hbody)
              exact fires_of_settled hcall (by rw [hbody]; exact .file)

end Firing

section File

variable {fd : Nat} {content : RegularFile}

/-- What is asked of a file on its way: the counters of its writer agree, the bytes sent
are those before the offset, and the owner is told once at most, and last. -/
structure SentOnce (fd : Nat) (content : RegularFile) (s : Delivery) : Prop where
  counters : ∃ f, s.writer.body = .file f ∧ f.fdesc = fd ∧
    f.offset + f.toSend = content.size ∧ s.wire = content.bytes.take f.offset
  told : s.told.length ≤ 1
  waiting : s.writer.evWrite = .pending → s.told = []

/-- In this call the owner is told of a success. -/
def Succeeds (s t : Delivery) : Prop :=
  t.told = s.told ++ [.success]

/-- `sendfile` returned a count in this call, and no byte is left after it. -/
def AllSent (content : RegularFile) (i : WriteEvent) (t : Delivery) : Prop :=
  (∃ sent add, i = .writable (.ok sent) add) ∧ t.wire = content.bytes

theorem SentOnce.sized {s : Delivery} (hs : SentOnce fd content s) : Sized s.writer := by
  intro f hf
  obtain ⟨f', hbody, -, hsum, -⟩ := hs.counters
  obtain rfl : f' = f := Body.file.inj (hbody.symm.trans hf)
  have hlt := content.size_lt_size_t
  omega

theorem sentOnce_begin
    (fd : Nat) (content : RegularFile) (add : AddResult) :
    SentOnce fd content (begin add (.file fd content)) := by
  have hsum : (0 : Nat) + content.size = content.size := Nat.zero_add _
  cases add with
  | none => exact ⟨⟨_, rfl, rfl, hsum, rfl⟩, Nat.zero_le _, fun _ => rfl⟩
  | some e => exact ⟨⟨_, rfl, rfl, hsum, rfl⟩, Nat.zero_le _, fun _ => rfl⟩

/-- A count that the kernel returned moves both counters, and its bytes follow those
sent before; none is left exactly when the file is not to be written again. -/
theorem SentOnce.advances
    {s : Delivery} (hs : SentOnce fd content s)
    {sent : Nat} {again : Bool} {body : Body}
    (hbody : Advances sent s.writer.body again body)
    (hsent : sent ≤ s.writer.asked) :
    ∃ f, body = .file f ∧ f.fdesc = fd ∧ f.offset + f.toSend = content.size ∧
      s.wire ++ (source content.bytes s.writer).take sent = content.bytes.take f.offset ∧
      (again = false ↔
        s.wire ++ (source content.bytes s.writer).take sent = content.bytes) := by
  obtain ⟨f, hfile, hfd, hsum, hwire⟩ := hs.counters
  have hasked : sent ≤ f.toSend := by simpa [Writer.asked, hfile] using hsent
  have hnext : s.wire ++ (source content.bytes s.writer).take sent =
      content.bytes.take (f.offset + sent) := by
    simp only [source, hfile]
    rw [List.take_take, Nat.min_eq_left hasked, hwire, ← List.take_add]
  have hall : content.bytes.take (f.offset + sent) = content.bytes ↔
      content.size ≤ f.offset + sent := by
    rw [List.take_eq_self_iff, RegularFile.size]
  rw [hfile] at hbody
  cases hbody
  refine ⟨_, rfl, hfd, ?_, hnext, ?_⟩
  · show f.offset + sent + (f.toSend - sent) = content.size
    omega
  · rw [hnext, hall, decide_eq_false_iff_not]
    omega

/-- One call keeps all of this, and success is told exactly when no byte is left. -/
theorem SentOnce.step
    {s t : Delivery} {i : WriteEvent} (hs : SentOnce fd content s)
    (h : (runs (.file fd content)).step s i t) :
    SentOnce fd content t ∧ (Succeeds s t ↔ AllSent content i t) := by
  have htold : s.told = [] := hs.waiting h.2.1
  have htaken := h.2.2.1
  have hcounters := hs.counters
  cases fires_of_step hs.sized h with
  | timeout =>
      refine ⟨⟨hcounters, by simp [htold], by simp⟩, ?_⟩
      simp [Succeeds, AllSent]
  | failed e =>
      refine ⟨⟨hcounters, by simp [htold], by simp⟩, ?_⟩
      simp [Succeeds, AllSent]
  | refused e hbody =>
      obtain ⟨f, hfile, -⟩ := hcounters
      exact absurd hfile (hbody f)
  | done hbody =>
      obtain ⟨f, hfile, hfd, hsum, hwire, hall⟩ := hs.advances hbody htaken
      refine ⟨⟨⟨f, hfile, hfd, hsum, hwire⟩, by simp [htold], by simp⟩, ?_⟩
      simpa [Succeeds, AllSent] using hall
  | more hbody =>
      obtain ⟨f, hfile, hfd, hsum, hwire, hall⟩ := hs.advances hbody htaken
      refine ⟨⟨⟨f, hfile, hfd, hsum, hwire⟩, by simp [htold], fun _ => htold⟩, ?_⟩
      simpa [Succeeds, AllSent] using hall
  | unscheduled hbody =>
      obtain ⟨f, hfile, hfd, hsum, hwire, hall⟩ := hs.advances hbody htaken
      refine ⟨⟨⟨f, hfile, hfd, hsum, hwire⟩, by simp [htold], by simp⟩, ?_⟩
      simpa [Succeeds, AllSent] using hall

end File

end Delivery

section SentOnce

open Delivery

/-- A file is sent once.  In every run of its writer, over every sequence of results of
`sendfile` and `event_add`, the counters add up to the size that `fstat` gave, the bytes
sent are the file's from its beginning to the offset, and the owner is told at most once;
it is told of a success in the call that leaves no byte, and in no other. -/
theorem file_sent_once
    {ω : Type} (os : Os ω) (fd : Nat) (content : RegularFile) (w w' : ω)
    (hfstat : os.fstat fd w = (.ok content.size, w')) :
    ∃ f, Prog.exec (FileWriter.create os fd) w = (.ok f, w') ∧
      (Job.file fd content).body = .file f ∧
      ∀ add is s, Run (runs (.file fd content)) (begin add (.file fd content)) is s →
        SentOnce fd content s ∧
        ∀ i t, (runs (.file fd content)).step s i t →
          (Succeeds s t ↔ AllSent content i t) := by
  refine ⟨⟨fd, 0, content.size⟩, FileWriter.exec_create os hfstat, rfl, ?_⟩
  intro add is s hrun
  have hs : SentOnce fd content s :=
    hrun.invariant (fun _ _ _ hs h => (hs.step h).1) (sentOnce_begin fd content add)
  exact ⟨hs, fun i t h => (hs.step h).2⟩

/-- A file of three bytes, behind the descriptor 7. -/
theorem file_sent_once_abc :
    let fs : FileSys := {
      stat := fun _ => .error ENOENT
      magicFile := fun _ => none
      opendir := fun _ => .error ENOENT
      openFile := fun _ => .ok 7
      fstat := fun _ => .ok 3
      fopen := fun _ => .error ENOENT }
    let content : RegularFile := ⟨lit "abc", by decide⟩
    ∃ f, Prog.exec (FileWriter.create fs.os 7) () = (.ok f, ()) ∧
      (Job.file 7 content).body = .file f ∧
      ∀ add is s, Run (runs (.file 7 content)) (begin add (.file 7 content)) is s →
        SentOnce 7 content s ∧
        ∀ i t, (runs (.file 7 content)).step s i t →
          (Succeeds s t ↔ AllSent content i t) :=
  file_sent_once _ 7 ⟨lit "abc", by decide⟩ () () rfl

end SentOnce

namespace Delivery

/-- A step makes progress: when the writer waits again, fewer bytes are left than
before, and when the kernel took none of the bytes that are left, the write is over and
the owner is told of an error. -/
structure Progresses (s : Delivery) (i : WriteEvent) (t : Delivery) : Prop where
  decreases : t.writer.evWrite = .pending → t.writer.asked < s.writer.asked
  ends : (∃ add, i = .writable (.ok 0) add) → 0 < s.writer.asked →
    t.writer.evWrite = .freed ∧ ∃ e, t.told = s.told ++ [.error e]

/-- A count that takes the cursor past its width, to a place it has been at. -/
def Wraps (cursor : UInt32) (sent : Nat) : Prop :=
  sent ≠ 0 ∧ (cursor.toNat + sent) % 2 ^ 32 ≤ cursor.toNat

/-- The calls that wait again and have got nowhere: `sendfile` took nothing of the bytes
left, or the cursor of a buffer wraps. -/
def Stalls (w : Writer) : WriteEvent → Prop
  | .writable (.ok sent) none =>
      match w.body with
      | .bytes b => Wraps b.cursor sent
      | .menu m => Wraps m.cursor sent
      | .file f => sent = 0 ∧ 0 < f.toSend
  | _ => False

section Progress

variable {s t : Delivery} {sent : Nat} {body : Body}

theorem sized_begin (add : AddResult) (job : Job) : Sized (begin add job).writer := by
  intro f hf
  cases job with
  | bytes buffer => cases add <;> simp [begin, Writer.writeTo, Writer.create, Job.body,
      Body.beforeWrite, Writer.schedule] at hf
  | menu buffer => cases add <;> simp [begin, Writer.writeTo, Writer.create, Job.body,
      Body.beforeWrite, Writer.schedule] at hf
  | file fd content =>
      exact (sentOnce_begin fd content add).sized f hf

theorem Advances.sized
    {again : Bool} {event : Event} (hbody : Advances sent s.writer.body again body)
    (hs : Sized s.writer) :
    Sized ⟨event, body⟩ := by
  intro f hf
  generalize hbefore : s.writer.body = before at hbody
  cases hbody with
  | bytes => simp at hf
  | menu => simp at hf
  | @file f' =>
      have hlt := hs f' hbefore
      obtain rfl := Body.file.inj hf
      show f'.toSend - sent < 2 ^ 64
      omega

theorem Sized.step
    {job : Job} {i : WriteEvent} (hs : Sized s.writer) (h : (runs job).step s i t) :
    Sized t.writer := by
  cases fires_of_step hs h with
  | timeout => exact hs
  | failed e => exact hs
  | refused e hbody => exact hs
  | done hbody => exact hbody.sized hs
  | more hbody => exact hbody.sized hs
  | unscheduled hbody => exact hbody.sized hs

/-- A call that waits again has fewer bytes left exactly when it does not stall. -/
theorem Advances.asked_lt_iff
    (hbody : Advances sent s.writer.body true body) (hsent : sent ≤ s.writer.asked) :
    (⟨.pending, body⟩ : Writer).asked < s.writer.asked ↔
      ¬ Stalls s.writer (.writable (.ok sent) none) := by
  unfold Stalls
  unfold Writer.asked at hsent ⊢
  generalize s.writer.body = before at hsent hbody ⊢
  generalize hagain : true = again at hbody
  cases hbody with
  | @file f =>
      have hlt : sent < f.toSend := of_decide_eq_true hagain.symm
      have hiff : f.toSend - sent < f.toSend ↔ ¬ (sent = 0 ∧ 0 < f.toSend) := by omega
      exact hiff
  | @bytes b cursor hpos hcursor hle =>
      have hlt : cursor.toNat < b.buffer.length := of_decide_eq_true hagain.symm
      have hiff : b.buffer.length - cursor.toNat < b.buffer.length - b.cursor.toNat ↔
          ¬ Wraps b.cursor sent := by
        rw [Wraps, ← hcursor]
        omega
      exact hiff
  | @menu m cursor hpos hcursor hle =>
      have hlt : cursor.toNat < m.buffer.length := of_decide_eq_true hagain.symm
      have hiff : m.buffer.length - cursor.toNat < m.buffer.length - m.cursor.toNat ↔
          ¬ Wraps m.cursor sent := by
        rw [Wraps, ← hcursor]
        omega
      exact hiff

/-- A call that took nothing waits again only for a file with bytes left. -/
theorem Advances.stalls_of_zero
    (hbody : Advances 0 s.writer.body true body) :
    Stalls s.writer (.writable (.ok 0) none) := by
  unfold Stalls
  generalize s.writer.body = before at hbody ⊢
  generalize hagain : true = again at hbody
  cases hbody with
  | @file f => exact ⟨rfl, of_decide_eq_true hagain.symm⟩
  | bytes hpos => exact absurd rfl hpos
  | menu hpos => exact absurd rfl hpos

/-- A call that leaves nothing to send does not stall. -/
theorem Advances.not_stalls
    (hbody : Advances sent s.writer.body false body) (hsent : sent ≤ s.writer.asked)
    (add : AddResult) :
    ¬ Stalls s.writer (.writable (.ok sent) add) := by
  cases add with
  | some errno => exact id
  | none =>
      unfold Stalls
      unfold Writer.asked at hsent
      generalize s.writer.body = before at hsent hbody ⊢
      generalize hagain : false = again at hbody
      cases hbody with
      | @file f =>
          have hge : ¬ sent < f.toSend := of_decide_eq_false hagain.symm
          rintro ⟨hzero, hpos⟩
          omega
      | @bytes b cursor hpos hcursor hle =>
          have hge : ¬ cursor.toNat < b.buffer.length := of_decide_eq_false hagain.symm
          rintro ⟨-, hwraps⟩
          rw [← hcursor] at hwraps
          have hroom : sent ≤ b.buffer.length - b.cursor.toNat := hsent
          omega
      | @menu m cursor hpos hcursor hle =>
          have hge : ¬ cursor.toNat < m.buffer.length := of_decide_eq_false hagain.symm
          rintro ⟨-, hwraps⟩
          rw [← hcursor] at hwraps
          have hroom : sent ≤ m.buffer.length - m.cursor.toNat := hsent
          omega

/-- A call that took nothing and succeeds had nothing left to send. -/
theorem Advances.asked_of_zero
    (hbody : Advances 0 s.writer.body false body) :
    s.writer.asked = 0 := by
  unfold Writer.asked
  generalize s.writer.body = before at hbody ⊢
  generalize hagain : false = again at hbody
  cases hbody with
  | @file f => exact Nat.eq_zero_of_not_pos (of_decide_eq_false hagain.symm)
  | bytes hpos => exact absurd rfl hpos
  | menu hpos => exact absurd rfl hpos

/-- One call makes progress exactly when it does not stall. -/
theorem progresses_step_iff
    {job : Job} {i : WriteEvent} (hs : Sized s.writer) (h : (runs job).step s i t) :
    Progresses s i t ↔ ¬ Stalls s.writer i := by
  have htaken := h.2.2.1
  cases fires_of_step hs h with
  | timeout => exact ⟨fun _ => id, fun _ => ⟨by simp, by simp⟩⟩
  | failed e => exact ⟨fun _ => id, fun _ => ⟨by simp, by simp⟩⟩
  | @refused add e hbody =>
      have hstalls : ¬ Stalls s.writer (.writable (.ok 0) add) := by
        unfold Stalls
        cases add with
        | some errno => exact id
        | none =>
            cases hfile : s.writer.body with
            | bytes b => exact fun hwraps => hwraps.1 rfl
            | menu m => exact fun hwraps => hwraps.1 rfl
            | file f => exact absurd hfile (hbody f)
      exact ⟨fun _ => hstalls, fun _ => ⟨by simp, fun _ _ => ⟨rfl, e, rfl⟩⟩⟩
  | @done sent add body hbody =>
      refine ⟨fun _ => hbody.not_stalls htaken add, fun _ => ⟨by simp, ?_⟩⟩
      rintro ⟨_, hzero⟩ hleft
      cases hzero
      exact absurd hbody.asked_of_zero (Nat.ne_of_gt hleft)
  | @more sent body hbody =>
      have hlt := hbody.asked_lt_iff htaken
      refine ⟨fun hprogress => hlt.mp (hprogress.decreases rfl), ?_⟩
      refine fun hstalls => ⟨fun _ => hlt.mpr hstalls, ?_⟩
      rintro ⟨_, hzero⟩ -
      cases hzero
      exact absurd hbody.stalls_of_zero hstalls
  | @unscheduled sent errno body hbody =>
      exact ⟨fun _ => id, fun _ => ⟨by simp, fun _ _ => ⟨rfl, _, rfl⟩⟩⟩

/-- The calls that a waiting writer can still make: one for each byte, and the last. -/
def left (s : Delivery) : Nat :=
  if s.writer.evWrite = .pending then s.writer.asked + 1 else 0

/-- A call without a stall leaves fewer calls to make. -/
theorem left_step
    {job : Job} {i : WriteEvent} (hs : Sized s.writer) (h : (runs job).step s i t)
    (hstalls : ¬ Stalls s.writer i) :
    left t < left s := by
  have hpending : s.writer.evWrite = .pending := h.2.1
  have hprogress := (progresses_step_iff hs h).mpr hstalls
  unfold left
  rw [if_pos hpending]
  by_cases ht : t.writer.evWrite = .pending
  · rw [if_pos ht]
    have hlt := hprogress.decreases ht
    omega
  · rw [if_neg ht]
    omega

end Progress

end Delivery

open Delivery

/-- In every run of a writer, a call makes progress or ends the write exactly when it
does not stall; and a run without a stall is over after as many calls as there are
bytes, and one. -/
theorem progresses_iff (job : Job) (add : AddResult) :
    (∀ is s, Run (runs job) (begin add job) is s →
        ∀ i t, (runs job).step s i t → (Progresses s i t ↔ ¬ Stalls s.writer i)) ∧
      ∀ is s, Run ((runs job).restrict (fun s i => ¬ Stalls s.writer i)) (begin add job) is s →
        is.length ≤ (begin add job).writer.asked + 1 := by
  have hbegin := sized_begin add job
  constructor
  · intro is s hrun i t h
    have hs : Sized s.writer :=
      hrun.invariant (fun (s : Delivery) _ _ (hs : Sized s.writer) h => hs.step h) hbegin
    exact progresses_step_iff hs h
  · intro is s hrun
    have hstep : ∀ (s : Delivery) i t, Sized s.writer →
        ((runs job).restrict (fun s i => ¬ Stalls s.writer i)).step s i t →
          Sized t.writer ∧ left t < left s :=
      fun _ _ _ hs h => ⟨hs.step h.2, left_step hs h.2 h.1⟩
    have hlength := hrun.length_le hstep hbegin
    have hleft : left (begin add job) ≤ (begin add job).writer.asked + 1 := by
      unfold left
      split_ifs
      · exact Nat.le_refl _
      · exact Nat.zero_le _
    omega

/-- One byte of a file, cut off while the writer waits: `sendfile` takes nothing, and
the run goes on for ever. -/
theorem cut_file_sent_for_ever :
    ¬ ∃ bound, ∀ is s,
      Run (runs (.file 7 ⟨lit "a", by decide⟩)) (begin none (.file 7 ⟨lit "a", by decide⟩)) is s →
        is.length ≤ bound := by
  rintro ⟨bound, hbound⟩
  have hstays : (runs (.file 7 ⟨lit "a", by decide⟩)).step
      (begin none (.file 7 ⟨lit "a", by decide⟩)) (.writable (.ok 0) none)
      (begin none (.file 7 ⟨lit "a", by decide⟩)) :=
    ⟨rfl, rfl, Nat.zero_le _, rfl⟩
  have hrun : ∀ n, Run (runs (.file 7 ⟨lit "a", by decide⟩))
      (begin none (.file 7 ⟨lit "a", by decide⟩))
      (List.replicate n (.writable (.ok 0) none))
      (begin none (.file 7 ⟨lit "a", by decide⟩)) := by
    intro n
    induction n with
    | zero => exact .nil _
    | succ n ih => exact .cons hstays ih
  have hlength := hbound _ _ (hrun (bound + 1))
  rw [List.length_replicate] at hlength
  omega

end Gopher
end Goofy
