import Goofy.Gopher.NodeTypes
import Goofy.Util.Str
import Goofy.Rfc1436

/-!
# Writers

The writing half of `gopher/proto.h` and `gopher/proto.cc`.  A writer is an
event and a body: bytes to be written, a menu (bytes with a closing line), or
an open file.  `writeTo` starts a writer, `cbWrite` is the callback of its event.

The last part relates the menus that `MenuWriter` builds to the grammar of
RFC 1436: encoding a sequence of entries is undone by decoding.
-/

namespace Goofy
namespace Gopher

open Effect

structure BytesWriter where
  buffer : Bytes := []
  cursor : UInt32 := 0

namespace BytesWriter

/-- `append(const char*, size_t)`. -/
def append (w : BytesWriter) (bytes : Bytes) (len : Nat) : BytesWriter :=
  { w with buffer := w.buffer ++ bytes.take len }

/-- `append(const std::string&)`. -/
def appendString (w : BytesWriter) (string : Bytes) : BytesWriter :=
  { w with buffer := w.buffer ++ string }

/-- `append(const char&)`. -/
def appendByte (w : BytesWriter) (byte : Byte) : BytesWriter :=
  { w with buffer := w.buffer ++ [byte] }

end BytesWriter

structure MenuWriter extends BytesWriter

namespace MenuWriter

def node (w : MenuWriter) (info : NodeInfo) : MenuWriter :=
  ⟨((((((((w.toBytesWriter.appendByte info.type).appendString
    info.displayName).appendByte TAB).appendString
    info.selector).appendByte TAB).appendString
    info.host).appendByte TAB).appendString
    (toDecimal info.port.toNat)).appendByte CR |>.appendByte LF⟩

/-- The line of a message: its type, the text (a zero length means "measure
it") and a fixed end. -/
def message (type : NodeType) (eol : Bytes) (w : MenuWriter)
    (msg : Bytes) (len : Nat) : MenuWriter :=
  ⟨((w.toBytesWriter.appendByte type.code).append msg
    (if len > 0 then len else (cStr msg).length)).append eol eol.length⟩

/-- `text(const char*, size_t)`. -/
def text (w : MenuWriter) (msg : Bytes) (len : Nat) : MenuWriter :=
  message .info (lit "\t\tinfo.host\t1\r\n") w msg len

/-- `text(const std::string&)`. -/
def textString (w : MenuWriter) (msg : Bytes) : MenuWriter :=
  w.text msg msg.length

/-- `error(const char*, size_t)`. -/
def error (w : MenuWriter) (msg : Bytes) (len : Nat) : MenuWriter :=
  message .error (lit "\t\terror.host\t1\r\n") w msg len

/-- `error(const std::string&)`. -/
def errorString (w : MenuWriter) (msg : Bytes) : MenuWriter :=
  w.error msg msg.length

/-- Closes the menu. -/
def beforeWrite (w : MenuWriter) : MenuWriter :=
  ⟨w.toBytesWriter.append (lit ".\r\n") 3⟩

end MenuWriter

structure FileWriter where
  fdesc : Nat
  offset : Nat
  toSend : Nat

/-- The constructor of `FileWriter`: the size is that of the file now. -/
def FileWriter.create {ω : Type} (os : Os ω) (fd : Nat) : Prog ω FileWriter := do
  let size ← sysCall (lit "fstat") (os.fstat fd)
  pure ⟨fd, 0, size⟩

/-- The constructor of a file writer, when `fstat` answers with the size. -/
theorem FileWriter.exec_create
    {ω : Type} (os : Os ω) {fd n : Nat} {w w' : ω}
    (hfstat : os.fstat fd w = (.ok n, w')) :
    Prog.exec (FileWriter.create os fd) w = (.ok ⟨fd, 0, n⟩, w') := by
  have hcall := exec_sysCallWith_ok (Exn.ioError (lit "fstat")) hfstat
  unfold FileWriter.create sysCall
  rw [Prog.exec_bind_ok hcall]
  rfl

/-- Without a size there is no writer. -/
theorem FileWriter.exec_create_error
    {ω : Type} (os : Os ω) {fd : Nat} {e : Errno} {w w' : ω}
    (hfstat : os.fstat fd w = (.error e, w')) :
    Prog.exec (FileWriter.create os fd) w = (.error (.exn (.ioError (lit "fstat") e)), w') := by
  have hcall := exec_sysCallWith_error (Exn.ioError (lit "fstat")) hfstat
  unfold FileWriter.create sysCall
  rw [Prog.exec_bind_error hcall]

/-- The classes derived from `Writer`. -/
inductive Body where
  | bytes (w : BytesWriter)
  | menu (w : MenuWriter)
  | file (w : FileWriter)

structure Writer where
  evWrite : Event
  body : Body

/-- What the owner of a writer wants to be told, over the owner's state. -/
structure WriteParams (S : Type) where
  gotSuccess : S → S
  gotError : Exn → S → S
  gotTimeout : S → S

namespace Body

/-- The virtual `before_write`. -/
def beforeWrite : Body → Body
  | bytes w => bytes w
  | menu w => menu w.beforeWrite
  | file w => file w

end Body

namespace Writer

/-- A new writer: its event is not allocated yet. -/
def create (body : Body) : Writer :=
  ⟨.freed, body⟩

def schedule (add : AddResult) (w : Writer) : Except Fail Writer :=
  match w.evWrite with
  | .freed => .error .undefined
  | _ =>
      match add with
      | none => .ok { w with evWrite := .pending }
      | some e => .error (.exn (.ioError (lit "event_add (EV_READ|EV_TIMEOUT)") e))

/-- `Writer::end`. -/
def finish (w : Writer) : Writer :=
  { w with evWrite := .freed }

/-- `write_to`, up to the result of `schedule`: an exception leaves the prepared
writer behind. -/
def writeTo (add : AddResult) (w : Writer) : Except Fail Unit × Writer :=
  if w.evWrite ≠ .freed then (.error .assertion, w)
  else
    let prepared : Writer := ⟨.idle, w.body.beforeWrite⟩
    match prepared.schedule add with
    | .ok w' => (.ok (), w')
    | .error f => (.error f, prepared)

section Callback

variable {S : Type}

/-- What follows a partial or complete write: wait again, or report success. -/
def proceed (wp : WriteParams S) (add : AddResult) (again : Bool)
    (w : Writer) (s : S) : Except Fail Unit × Writer × S :=
  if again then
    match w.schedule add with
    | .ok w' => (.ok (), w', s)
    | .error f => (.error f, w, s)
  else (.ok (), w, wp.gotSuccess s)

/-- `BytesWriter::write_chunk`; `res` is what `write` returns. -/
def writeChunkBytes (wp : WriteParams S) (add : AddResult)
    (res : Except Errno Nat) (set : BytesWriter → Body) (b : BytesWriter)
    (w : Writer) (s : S) : Except Fail Unit × Writer × S :=
  match res with
  | .error e => (.error (.exn (.ioError (lit "write") e)), w, s)
  | .ok sent =>
      if sent = 0 then
        (.error (.exn (.ioError (lit "wrote 0 bytes") 0)), w, s)
      else
        let b' : BytesWriter := { b with cursor := b.cursor + UInt32.ofNat sent }
        let w' : Writer := { w with body := set b' }
        if b'.cursor.toNat < b.buffer.length then proceed wp add true w' s
        else if b'.cursor.toNat = b.buffer.length then proceed wp add false w' s
        else (.error .assertion, w', s)

/-- `FileWriter::write_chunk`; `res` is what `sendfile` returns. -/
def writeChunkFile (wp : WriteParams S) (add : AddResult)
    (res : Except Errno Nat) (f : FileWriter)
    (w : Writer) (s : S) : Except Fail Unit × Writer × S :=
  match res with
  | .error e => (.error (.exn (.ioError (lit "sendfile") e)), w, s)
  | .ok sent =>
      let f' : FileWriter :=
        { f with offset := f.offset + sent, toSend := Util.sizeSub f.toSend sent }
      proceed wp add (decide (f'.toSend > 0)) { w with body := .file f' } s

/-- The virtual `write_chunk`. -/
def writeChunk (wp : WriteParams S) (add : AddResult)
    (res : Except Errno Nat) (w : Writer) (s : S) :
    Except Fail Unit × Writer × S :=
  match w.body with
  | .bytes b => writeChunkBytes wp add res .bytes b w s
  | .menu m => writeChunkBytes wp add res (fun b => .menu ⟨b⟩) m.toBytesWriter w s
  | .file f => writeChunkFile wp add res f w s

/-- `cb_write` on a writable socket. -/
def cbWrite (wp : WriteParams S) (add : AddResult)
    (res : Except Errno Nat) (w : Writer) (s : S) :
    Except Fail Unit × Writer × S :=
  match writeChunk wp add res w s with
  | (.error (.exn e), w', s') => (.ok (), w'.finish, wp.gotError e s')
  | out => out

/-- `cb_write` on a timeout. -/
def cbWriteTimeout (wp : WriteParams S) (w : Writer) (s : S) :
    Except Fail Unit × Writer × S :=
  (.ok (), w.finish, wp.gotTimeout s)

end Callback

/-- How many bytes the writer asks the kernel to take in its next call. -/
def asked (w : Writer) : Nat :=
  match w.body with
  | .bytes b => b.buffer.length - b.cursor.toNat
  | .menu m => m.buffer.length - m.cursor.toNat
  | .file f => f.toSend

section Outcome

variable {S : Type}

/-- The exception of a writer whose `event_add` failed. -/
def addFailure (e : Errno) : Exn :=
  .ioError (lit "event_add (EV_READ|EV_TIMEOUT)") e

theorem schedule_idle
    (add : AddResult) {w : Writer} (hw : w.evWrite = .idle) :
    w.schedule add =
      match add with
      | none => .ok { w with evWrite := .pending }
      | some e => .error (.exn (addFailure e)) := by
  simp only [schedule, hw]
  rfl

/-- The cursor of a bytes writer never runs past the buffer, also when it wraps. -/
theorem cursor_add_le {cursor : UInt32} {sent size : Nat}
    (hsent : sent ≤ size - cursor.toNat) (hpos : sent ≠ 0) :
    (cursor + UInt32.ofNat sent).toNat ≤ size := by
  calc (cursor + UInt32.ofNat sent).toNat
      ≤ cursor.toNat + (UInt32.ofNat sent).toNat := by
        rw [UInt32.toNat_add]
        exact Nat.mod_le _ _
    _ ≤ cursor.toNat + sent := by
        rw [UInt32.toNat_ofNat']
        exact Nat.add_le_add_left (Nat.mod_le _ _) _
    _ ≤ size := by omega

/-- `write_chunk` throws, or it goes on to wait for more room or to report
success.  Which of these it does, `event_add` has no part in. -/
inductive ChunkCases (wp : WriteParams S) (w : Writer) (s : S) :
    (AddResult → Except Fail Unit × Writer × S) → Prop where
  | threw (e : Exn) : ChunkCases wp w s (fun _ => (.error (.exn e), w, s))
  | wrote (again : Bool) (body : Body) :
      ChunkCases wp w s (fun add => proceed wp add again { w with body } s)

theorem writeChunkBytes_cases
    (wp : WriteParams S) (res : Except Errno Nat)
    (set : BytesWriter → Body) {b : BytesWriter} (w : Writer) (s : S)
    (hsent : ∀ sent, res = .ok sent → sent ≤ b.buffer.length - b.cursor.toNat) :
    ChunkCases wp w s (fun add => writeChunkBytes wp add res set b w s) := by
  unfold writeChunkBytes
  cases res with
  | error e => exact .threw _
  | ok sent =>
      by_cases hzero : sent = 0
      · simp only [if_pos hzero]
        exact .threw _
      · have hle := cursor_add_le (hsent sent rfl) hzero
        simp only [if_neg hzero]
        generalize b.cursor + UInt32.ofNat sent = cursor at hle ⊢
        by_cases hlt : cursor.toNat < b.buffer.length
        · simp only [if_pos hlt]
          exact .wrote true (set { b with cursor := cursor })
        · have heq : cursor.toNat = b.buffer.length :=
            Nat.le_antisymm hle (Nat.not_lt.mp hlt)
          simp only [if_neg hlt, if_pos heq]
          exact .wrote false (set { b with cursor := cursor })

theorem writeChunk_cases
    (wp : WriteParams S) (res : Except Errno Nat) (w : Writer) (s : S)
    (hsent : ∀ sent, res = .ok sent → sent ≤ w.asked) :
    ChunkCases wp w s (fun add => writeChunk wp add res w s) := by
  unfold writeChunk
  unfold asked at hsent
  cases hbody : w.body with
  | bytes b =>
      rw [hbody] at hsent
      exact writeChunkBytes_cases wp res .bytes w s hsent
  | menu m =>
      rw [hbody] at hsent
      exact writeChunkBytes_cases wp res _ w s hsent
  | file f =>
      cases res with
      | error e => exact .threw _
      | ok sent => exact .wrote _ _

/-- What one writable callback can do: report success, wait for more room, or
give up on an error. -/
inductive Outcome (wp : WriteParams S) (add : AddResult) (s : S) :
    Except Fail Unit × Writer × S → Prop where
  | done {w : Writer} : Outcome wp add s (.ok (), w, wp.gotSuccess s)
  | more {w : Writer} (hw : w.evWrite = .pending) (hadd : add = none) :
      Outcome wp add s (.ok (), w, s)
  | failed {w : Writer} (e : Exn) : Outcome wp add s (.ok (), w, wp.gotError e s)

theorem cbWrite_outcome
    (wp : WriteParams S) (add : AddResult) (res : Except Errno Nat)
    {w : Writer} (s : S) (hw : w.evWrite = .idle)
    (hsent : ∀ sent, res = .ok sent → sent ≤ w.asked) :
    Outcome wp add s (cbWrite wp add res w s) := by
  have hchunk := writeChunk_cases wp res w s hsent
  unfold cbWrite
  generalize hout : (fun add => writeChunk wp add res w s) = out at hchunk
  have hthis : writeChunk wp add res w s = out add := by rw [← hout]
  rw [hthis]
  cases hchunk with
  | threw e => exact .failed e
  | wrote again body =>
      have hidle : ({ w with body } : Writer).evWrite = .idle := hw
      simp only [proceed, schedule_idle add hidle]
      cases again with
      | false => exact .done
      | true =>
          cases add with
          | none => exact .more rfl rfl
          | some e => exact .failed _

/-- When `event_add` fails, a writable callback does what it would have done
anyway, or gives up with the exception of the failure. -/
theorem cbWrite_add_failed
    (wp : WriteParams S) (e : Errno) (res : Except Errno Nat)
    {w : Writer} (s : S) (hw : w.evWrite = .idle)
    (hsent : ∀ sent, res = .ok sent → sent ≤ w.asked) :
    cbWrite wp (some e) res w s = cbWrite wp none res w s ∨
      ∃ w', cbWrite wp (some e) res w s = (.ok (), w', wp.gotError (addFailure e) s) := by
  have hchunk := writeChunk_cases wp res w s hsent
  unfold cbWrite
  generalize hout : (fun add => writeChunk wp add res w s) = out at hchunk
  have hthis : ∀ add, writeChunk wp add res w s = out add := fun add => by rw [← hout]
  rw [hthis, hthis]
  cases hchunk with
  | threw e' => exact .inl rfl
  | wrote again body =>
      have hidle : ({ w with body } : Writer).evWrite = .idle := hw
      cases again with
      | false => exact .inl rfl
      | true =>
          right
          simp only [proceed, if_true, schedule_idle _ hidle]
          exact ⟨_, rfl⟩

end Outcome

end Writer

end Gopher
end Goofy
