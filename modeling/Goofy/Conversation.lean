import Goofy.Lib.Exchange
import Goofy.SessionEffects
import Goofy.Gopher.ReaderRuns
import Goofy.Gopher.WriterRuns

/-!
# The conversation of a session

What a client sends and receives.  `heard` is all that the reads of a run delivered,
`said` is all that its writes took.  A session refines an exchange (`agrees_of_run`):
it hears a line, chooses one answer to that line, and says it.

So every run of a session says the beginning of one answer, to the bytes before a
newline of what it heard, and it is closed without a report exactly when all of the
answer was said (`answers_one_line`).
-/

namespace Goofy

open Effect Gopher

namespace Gopher

/-- The bytes that a body has still to send, when the files are as given. -/
def Body.remaining (contents : Nat → Bytes) (body : Body) : Bytes :=
  Delivery.source ((body.descriptor.map contents).getD []) ⟨.idle, body⟩

/-- The counters of a body can count its bytes, and the file has them all. -/
def Body.Fits (contents : Nat → Bytes) : Body → Prop
  | .bytes b => b.buffer.length < 2 ^ 32
  | .menu m => m.buffer.length < 2 ^ 32
  | .file f => f.toSend < 2 ^ 64 ∧ f.offset + f.toSend ≤ (contents f.fdesc).length

section Remaining

variable {contents : Nat → Bytes} {body body' : Body}

/-- A body that fits asks for all that remains. -/
theorem Body.Fits.length_remaining
    (hfits : body.Fits contents) (ev : Event) :
    (body.remaining contents).length = (⟨ev, body⟩ : Writer).asked := by
  cases body with
  | bytes b => exact List.length_drop
  | menu m => exact List.length_drop
  | file f =>
      have hfile : f.offset + f.toSend ≤ (contents f.fdesc).length := hfits.2
      show ((contents f.fdesc).drop f.offset |>.take f.toSend).length = f.toSend
      rw [List.length_take, List.length_drop]
      omega

/-- Only a file goes on after a call that took nothing. -/
theorem Delivery.Advances.file_of_zero
    {again : Bool} (hbody : Delivery.Advances 0 body again body') :
    ∃ f, body = .file f := by
  cases hbody with
  | file => exact ⟨_, rfl⟩
  | bytes hpos => exact absurd rfl hpos
  | menu hpos => exact absurd rfl hpos

/-- A count that the kernel returned is taken from what remains. -/
theorem Body.Fits.advances
    (hfits : body.Fits contents)
    {ev : Event} {sent : Nat} {again : Bool}
    (hbody : Delivery.Advances sent body again body')
    (hsent : sent ≤ (⟨ev, body⟩ : Writer).asked) :
    body'.Fits contents ∧
      body'.remaining contents = (body.remaining contents).drop sent ∧
      (again = true ↔ body'.remaining contents ≠ []) := by
  have hstay : ∀ {cursor cursor' : UInt32} {size : Nat},
      cursor'.toNat = (cursor.toNat + sent) % 2 ^ 32 → sent ≠ 0 → size < 2 ^ 32 →
        sent ≤ size - cursor.toNat → cursor'.toNat = cursor.toNat + sent := by
    intro cursor cursor' size hcursor hpos hsize hsent
    rw [hcursor]
    exact Nat.mod_eq_of_lt (by omega)
  cases hbody with
  | @file f =>
      obtain ⟨hsize, hfile⟩ : f.toSend < 2 ^ 64 ∧
        f.offset + f.toSend ≤ (contents f.fdesc).length := hfits
      have hsent : sent ≤ f.toSend := hsent
      have hfits' : Body.Fits contents
          (.file { f with offset := f.offset + sent, toSend := f.toSend - sent }) := by
        refine ⟨by show f.toSend - sent < 2 ^ 64; omega, ?_⟩
        show f.offset + sent + (f.toSend - sent) ≤ (contents f.fdesc).length
        omega
      refine ⟨hfits', ?_, ?_⟩
      · show ((contents f.fdesc).drop (f.offset + sent)).take (f.toSend - sent) =
          (((contents f.fdesc).drop f.offset).take f.toSend).drop sent
        rw [List.drop_take, List.drop_drop]
      · rw [decide_eq_true_iff, ← List.length_pos_iff, hfits'.length_remaining .idle]
        show sent < f.toSend ↔ 0 < f.toSend - sent
        omega
  | @bytes b cursor hpos hcursor hle =>
      have hfits' : Body.Fits contents (.bytes { b with cursor }) := hfits
      have heq := hstay hcursor hpos hfits hsent
      refine ⟨hfits', ?_, ?_⟩
      · show b.buffer.drop cursor.toNat = (b.buffer.drop b.cursor.toNat).drop sent
        rw [heq, List.drop_drop]
      · rw [decide_eq_true_iff, ← List.length_pos_iff, hfits'.length_remaining .idle]
        show cursor.toNat < b.buffer.length ↔ 0 < b.buffer.length - cursor.toNat
        omega
  | @menu m cursor hpos hcursor hle =>
      have hfits' : Body.Fits contents (.menu ⟨{ m.toBytesWriter with cursor }⟩) := hfits
      have heq := hstay hcursor hpos hfits hsent
      refine ⟨hfits', ?_, ?_⟩
      · show m.buffer.drop cursor.toNat = (m.buffer.drop m.cursor.toNat).drop sent
        rw [heq, List.drop_drop]
      · rw [decide_eq_true_iff, ← List.length_pos_iff, hfits'.length_remaining .idle]
        show cursor.toNat < m.buffer.length ↔ 0 < m.buffer.length - cursor.toNat
        omega

end Remaining

namespace Writer

variable {S : Type} (wp : WriteParams S) (add : AddResult)

/-- The callback of a bytes writer or a menu writer whose kernel answered with a count:
the body advances, or an empty write is an error. -/
theorem cbWrite_ok_bytes
    (set : BytesWriter → Body) {b : BytesWriter} {sent : Nat} {w : Writer} (s : S)
    (hw : w.evWrite = .idle)
    (hchunk : writeChunk wp add (.ok sent) w s =
      writeChunkBytes wp add (.ok sent) set b w s)
    (hadvances : ∀ cursor : UInt32, sent ≠ 0 →
      cursor.toNat = (b.cursor.toNat + sent) % 2 ^ 32 →
      cursor.toNat ≤ b.buffer.length →
      Delivery.Advances sent w.body (decide (cursor.toNat < b.buffer.length))
        (set { b with cursor }))
    (hsent : sent ≤ b.buffer.length - b.cursor.toNat) :
    (∃ again body, Delivery.Advances sent w.body again body ∧
        cbWrite wp add (.ok sent) w s = settled wp add again body s) ∨
      sent = 0 ∧ ∃ e, cbWrite wp add (.ok sent) w s = (.ok (), w.finish, wp.gotError e s) := by
  by_cases hzero : sent = 0
  · right
    subst hzero
    refine ⟨rfl, .ioError (lit "wrote 0 bytes") 0, ?_⟩
    unfold cbWrite
    rw [hchunk]
    rfl
  · left
    obtain ⟨cursor, hcursor, hle, heq⟩ := writeChunkBytes_ok wp add set w s hzero hsent
    exact ⟨_, _, hadvances cursor hzero hcursor hle,
      cbWrite_of_proceed wp add (.ok sent) s hw (hchunk.trans heq)⟩

/-- The callback of a writer whose kernel answered with a count. -/
theorem cbWrite_ok
    {sent : Nat} {w : Writer} (s : S)
    (hw : w.evWrite = .idle)
    (hsent : sent ≤ w.asked)
    (hsize : Delivery.Sized w) :
    (∃ again body, Delivery.Advances sent w.body again body ∧
        cbWrite wp add (.ok sent) w s = settled wp add again body s) ∨
      sent = 0 ∧ ∃ e, cbWrite wp add (.ok sent) w s = (.ok (), w.finish, wp.gotError e s) := by
  unfold asked at hsent
  cases hbody : w.body with
  | bytes b =>
      rw [hbody] at hsent
      rw [← hbody]
      refine cbWrite_ok_bytes wp add .bytes s hw (by simp only [writeChunk, hbody]) ?_ hsent
      intro cursor hpos hcursor hle
      rw [hbody]
      exact .bytes hpos hcursor hle
  | menu m =>
      rw [hbody] at hsent
      rw [← hbody]
      refine cbWrite_ok_bytes wp add (fun b => .menu ⟨b⟩) s hw
        (by simp only [writeChunk, hbody]) ?_ hsent
      intro cursor hpos hcursor hle
      rw [hbody]
      exact .menu hpos hcursor hle
  | file f =>
      rw [hbody] at hsent
      exact .inl ⟨_, _, .file, cbWrite_file wp add s hw hbody hsent (hsize f hbody)⟩

end Writer

end Gopher

namespace Session

variable {sock : Nat} {contents : Nat → Bytes} {answer : Request → Body → Prop}

/-- The bytes that a read delivered. -/
def Input.delivered : Input → Bytes
  | .readable (.ok data) _ _ _ => data
  | _ => []

/-- All that the client sent. -/
def heard (is : List Input) : Bytes :=
  (is.map Input.delivered).flatten

/-- The bytes that the kernel took from the writer in a callback. -/
def sent (contents : Nat → Bytes) (s : Session) : Input → Bytes
  | .writable (.ok n) _ =>
      match s.writer with
      | some w => (w.body.remaining contents).take n
      | none => []
  | _ => []

/-- All that the client received. -/
def said (contents : Nat → Bytes) : Session → List Input → Bytes
  | _, [] => []
  | s, i :: is => s.sent contents i ++ said contents (s.callback i).2 is

/-- What a session wrote to the standard error. -/
def reports (s : Session) : List Report :=
  s.actions.filterMap (fun a =>
    match a with
    | .report r => some r
    | _ => none)

/-- Every body that a line of the reader's can be answered with is allowed, and fits. -/
def Input.Within (contents : Nat → Bytes) (answer : Request → Body → Prop) : Input → Prop
  | .readable _ serve _ _ =>
      ∀ line body, line.length < 258 →
        answerOf ((serve ⟨line⟩).mapError Fail.exn) = .ok body →
          answer ⟨line⟩ body ∧ body.beforeWrite.Fits contents
  | _ => True

/-- What a line that arrives in this callback would be answered with. -/
def Input.Gives : Input → Request → Body → Prop
  | .readable _ serve _ _, request, body =>
      answerOf ((serve request).mapError Fail.exn) = .ok body
  | _, _, _ => False

/-- Whatever a line of the reader's would be answered with fits. -/
def Input.Fits (contents : Nat → Bytes) (i : Input) : Prop :=
  ∀ line body, line.length < 258 → i.Gives ⟨line⟩ body → body.beforeWrite.Fits contents

/-- The answers to what was heard: the line before a newline is a request. -/
def Answers (contents : Nat → Bytes) (answer : Request → Body → Prop)
    (heard reply : Bytes) : Prop :=
  ∃ before after body, heard = before ++ LF :: after ∧
    answer ⟨chopCR before⟩ body ∧ reply = body.beforeWrite.remaining contents

/-- The answers of a list of inputs are within themselves. -/
theorem Input.Fits.within
    {i : Input} {is : List Input} (hfits : i.Fits contents) (hi : i ∈ is) :
    i.Within contents (fun request body => ∃ j ∈ is, j.Gives request body) := by
  cases i with
  | readable res serve readAdd writeAdd =>
      intro line body hline hbody
      exact ⟨⟨_, hi, hbody⟩, hfits line body hline hbody⟩
  | readTimeout => trivial
  | writable => trivial
  | writeTimeout => trivial

section Hearing

theorem reports_close (s : Session) : s.close.reports = s.reports := by
  unfold close destroy reports
  rcases s.writer with _ | ⟨ev, b | m | f⟩ <;> simp

theorem reports_giveUp (r : Report) (s : Session) :
    (s.giveUp r).reports = s.reports ++ [r] := by
  rw [giveUp, reports_close]
  simp [reports]

/-- What a readable callback makes of a session, by all that was heard so far: it waits
for more, it answers a line, or it gives up. -/
inductive Hears (serve : Request → Except Exn Body) (s : Session) (heard : Bytes) :
    Session → Prop
  | more {ev : Event} (hev : ev ≠ .freed) :
      Hears serve s heard { s with reader := { started 256 heard with evRead := ev } }
  | answered {before after : Bytes} {body : Body} {reader : Reader}
      (hheard : heard = before ++ LF :: after)
      (hbody : answerOf ((serve ⟨chopCR before⟩).mapError Fail.exn) = .ok body)
      (hfreed : reader.evRead = .freed) :
      Hears serve s heard
        { s with reader, writer := some ⟨.pending, body.beforeWrite⟩ }
  | gaveUp (r : Report) (writer : Option Writer) :
      Hears serve s heard (giveUp r { s with writer })

/-- The line that a started reader reports ends before a newline of what it received. -/
theorem lineAt_started
    {bytes before after : Bytes}
    (hfit : bytes.length + (before ++ LF :: after).length ≤ 258) :
    Reading.lineAt (started 256 bytes) (before ++ LF :: after)
        (bytes.length + before.length) =
      chopCR (bytes ++ before) := by
  have hreceived := received_started hfit
  rw [Reading.lineAt, hreceived, ← List.length_append]
  simp only [started, ← List.append_assoc]
  rw [List.append_assoc]
  exact take_lineEnd_append _ _

theorem length_chopCR_le (line : Bytes) : (chopCR line).length ≤ line.length := by
  unfold chopCR
  split
  · rw [List.length_dropLast]
    exact Nat.sub_le _ _
  · exact Nat.le_refl _

/-- `got_line` starts a writer, or throws an exception. -/
theorem gotLine_answers
    (serve : Request → Except Exn Body) (add : AddResult) (line : Bytes) (s : Session) :
    (∃ body, answerOf ((serve ⟨line⟩).mapError Fail.exn) = .ok body ∧
        gotLine (fun r => (serve r).mapError Fail.exn) add line s =
          (.ok false, { s with writer := some ⟨.pending, body.beforeWrite⟩ })) ∨
      ∃ e writer, gotLine (fun r => (serve r).mapError Fail.exn) add line s =
        (.error (.exn e), { s with writer }) := by
  rcases gotLine_cases serve add line s with ⟨w, hw, hline⟩ | hthrew
  · left
    unfold gotLine at hline ⊢
    cases hanswer : answerOf ((serve ⟨line⟩).mapError Fail.exn) with
    | error f => simp [hanswer] at hline
    | ok body =>
        refine ⟨body, rfl, ?_⟩
        cases add with
        | none => rfl
        | some e => simp [hanswer, Writer.writeTo, Writer.create, Writer.schedule] at hline
  · exact .inr hthrew

/-- A read that delivered bytes, in a session that has heard some. -/
theorem hears_data
    {s t : Session} (h : s.Reading sock .pending)
    {bytes data : Bytes} (hreader : s.reader = started 256 bytes)
    (hne : data ≠ []) (hfit : bytes.length + data.length ≤ 258)
    {serve : Request → Except Exn Body} {readAdd writeAdd : AddResult}
    (hcallback : s.callback (.readable (.ok data) serve readAdd writeAdd) = (.ok (), t)) :
    Hears serve s (bytes ++ data) t := by
  have hreceived := received_started hfit
  have hidle : (started 256 bytes).evRead.fired = .idle := rfl
  simp only [callback, hreader, hidle, Reader.cbRead] at hcallback
  cases hnewline : (started 256 bytes).newlineAt data with
  | none =>
      rw [Reading.readChunk_of_none _ readAdd s hne hnewline] at hcallback
      obtain rfl := (Prod.mk.inj ((putReader_alive _ h.alive).symm.trans hcallback)).2
      rw [Reading.waiting, hreceived]
      refine .more ?_
      cases readAdd with
      | none => exact Event.noConfusion
      | some errno => exact Event.noConfusion
  | some i =>
      have hLF : LF ∈ data := by
        by_contra hLF
        rw [newlineAt_started_of_not_mem 256 bytes hLF] at hnewline
        simp at hnewline
      obtain ⟨before, after, rfl, hbefore⟩ := List.eq_append_cons_of_mem hLF
      have hindex := newlineAt_started_of_mem hfit hbefore
      rw [hnewline] at hindex
      split_ifs at hindex
      obtain rfl := Option.some.inj hindex
      rw [Reading.readChunk_of_some _ readAdd s hne hnewline, lineAt_started hfit] at hcallback
      rcases gotLine_answers serve writeAdd (chopCR (bytes ++ before)) s with
        ⟨body, hbody, hline⟩ | ⟨e, writer, hline⟩
      · simp only [readParams, hline] at hcallback
        have halive := h.alive.withWriter (some ⟨.pending, body.beforeWrite⟩)
        obtain rfl := (Prod.mk.inj ((putReader_alive _ halive).symm.trans hcallback)).2
        exact .answered (List.append_assoc bytes before (LF :: after)).symm hbody rfl
      · simp only [readParams, hline] at hcallback
        obtain rfl := (Prod.mk.inj ((putReader_giveUp _ _ _).symm.trans hcallback)).2
        exact .gaveUp _ writer

/-- A readable callback without bytes is the end of the session. -/
theorem gaveUp_of_nothing
    {s t : Session}
    {res : Except Errno Bytes} {serve : Request → Except Exn Body}
    {readAdd writeAdd : AddResult}
    (hcallback : s.callback (.readable res serve readAdd writeAdd) = (.ok (), t))
    (hnil : (Input.readable res serve readAdd writeAdd).delivered = []) :
    ∃ r, t = s.giveUp r := by
  cases res with
  | error errno =>
      simp only [callback, Reader.cbRead, Reader.readChunk] at hcallback
      exact ⟨_, (Prod.mk.inj ((putReader_giveUp _ _ s).symm.trans hcallback)).2.symm⟩
  | ok data =>
      obtain rfl : data = [] := hnil
      simp only [callback, Reader.cbRead, Reader.readChunk, List.length_nil, if_true]
        at hcallback
      exact ⟨_, (Prod.mk.inj ((putReader_giveUp _ _ s).symm.trans hcallback)).2.symm⟩

/-- A readable callback of a session that has heard some bytes: none or more follow, and
all of them fit into the buffer. -/
theorem hears_of_callback
    {s t : Session} (h : s.Reading sock .pending)
    {bytes : Bytes} (hreader : s.reader = started 256 bytes) (hbytes : bytes.length ≤ 258)
    {res : Except Errno Bytes} {serve : Request → Except Exn Body}
    {readAdd writeAdd : AddResult}
    (hpossible : s.Possible (.readable res serve readAdd writeAdd))
    (hcallback : s.callback (.readable res serve readAdd writeAdd) = (.ok (), t)) :
    (bytes ++ (Input.readable res serve readAdd writeAdd).delivered).length ≤ 258 ∧
      Hears serve s (bytes ++ (Input.readable res serve readAdd writeAdd).delivered) t := by
  by_cases hnil : (Input.readable res serve readAdd writeAdd).delivered = []
  · obtain ⟨r, rfl⟩ := gaveUp_of_nothing hcallback hnil
    exact ⟨by simpa [hnil] using hbytes, .gaveUp r s.writer⟩
  · cases res with
    | error errno => exact absurd rfl hnil
    | ok data =>
        have hroom : s.reader.room = 258 - bytes.length := by
          simp only [hreader, Reader.room, started, List.length_append, List.length_replicate]
          omega
        have hfit : bytes.length + data.length ≤ 258 := by
          have hle := hpossible.2 data rfl
          omega
        exact ⟨by simpa [Input.delivered] using hfit, hears_data h hreader hnil hfit hcallback⟩

end Hearing

section Saying

/-- A session that its callback dropped is gone: no writer is put back. -/
theorem putWriter_giveUp (r : Report) (w : Writer) (s : Session) :
    putWriter (.ok (), w, s.giveUp r) = (.ok (), s.giveUp r) := by
  rfl

/-- `sendfile` takes nothing although bytes are left, and is tried again. -/
def Stalls (s : Session) (i : Input) : Prop :=
  (∃ add, i = .writable (.ok 0) add) ∧
    ∃ w f, s.writer = some w ∧ w.body = .file f ∧ 0 < f.toSend

/-- What a writable callback makes of a session, by what was left of the answer and by
what is left now: it is closed, waits to say the rest, or gives up. -/
inductive Says (contents : Nat → Bytes) (s : Session) (i : Input) (left : Bytes) :
    Bytes → Session → Prop
  | done : Says contents s i left [] s.close
  | more {body : Body}
      (hfits : body.Fits contents)
      (hrest : body.remaining contents ≠ [])
      (hstall : body.remaining contents = left → s.Stalls i) :
      Says contents s i left (body.remaining contents)
        { s with writer := some ⟨.pending, body⟩ }
  | gaveUp {rest : Bytes} (r : Report)
      (hrest : left ≠ [] → rest ≠ []) :
      Says contents s i left rest (s.giveUp r)

/-- A writable callback of a session whose answer fits: the bytes taken are the first of
what was left. -/
theorem says_of_callback
    {s t : Session} (h : s.Writing sock)
    {w : Writer} (hwriter : s.writer = some w) (hfits : w.body.Fits contents)
    {res : Except Errno Nat} {writeAdd : AddResult}
    (hpossible : s.Possible (.writable res writeAdd))
    (hcallback : s.callback (.writable res writeAdd) = (.ok (), t)) :
    ∃ rest, w.body.remaining contents =
        s.sent contents (.writable res writeAdd) ++ rest ∧
      Says contents s (.writable res writeAdd) (w.body.remaining contents) rest t := by
  obtain ⟨w', hw', hpending, hsent⟩ := hpossible
  obtain rfl : w = w' := Option.some.inj (hwriter.symm.trans hw')
  have hidle : ({ w with evWrite := w.evWrite.fired } : Writer).evWrite = .idle := by
    simp [hpending, Event.fired]
  simp only [callback, hwriter] at hcallback
  cases res with
  | error errno =>
      obtain ⟨e, hcall⟩ := Writer.cbWrite_error writeParams writeAdd errno
        { w with evWrite := w.evWrite.fired } s
      rw [hcall] at hcallback
      obtain rfl := (Prod.mk.inj ((putWriter_giveUp (.error e) _ s).symm.trans hcallback)).2
      exact ⟨_, rfl, .gaveUp _ id⟩
  | ok n =>
      have hasked : n ≤ w.asked := hsent n rfl
      have htaken : s.sent contents (.writable (.ok n) writeAdd) =
          (w.body.remaining contents).take n := by
        simp only [sent, hwriter]
      have hsized : Delivery.Sized { w with evWrite := w.evWrite.fired } := by
        intro f hf
        have hfile : Body.Fits contents (.file f) := hf ▸ hfits
        exact hfile.1
      rcases Writer.cbWrite_ok writeParams writeAdd s hidle hasked hsized with
        ⟨again, body, hbody, hcall⟩ | ⟨rfl, e, hcall⟩
      · obtain ⟨hfits', hrest, hagain⟩ := hfits.advances hbody hasked
        rw [hcall] at hcallback
        refine ⟨body.remaining contents, ?_, ?_⟩
        · rw [htaken, hrest, List.take_append_drop]
        · cases again with
          | false =>
              obtain rfl := (Prod.mk.inj hcallback).2
              have hnil : body.remaining contents = [] := by simpa using hagain
              rw [hnil]
              exact .done
          | true =>
              have hmore : body.remaining contents ≠ [] := hagain.mp rfl
              cases writeAdd with
              | none =>
                  obtain rfl := (Prod.mk.inj ((putWriter_alive _ h.alive).symm.trans
                    hcallback)).2
                  refine .more hfits' hmore ?_
                  intro hsame
                  obtain rfl : n = 0 := by
                    have hlen := congrArg List.length (hrest.symm.trans hsame)
                    have hpos := List.length_pos_iff.mpr hmore
                    rw [hsame] at hpos
                    rw [List.length_drop] at hlen
                    omega
                  obtain ⟨f, hf⟩ := hbody.file_of_zero
                  refine ⟨⟨none, rfl⟩, w, f, hwriter, hf, ?_⟩
                  have hlen := hfits.length_remaining .idle
                  rw [← hsame, hf] at hlen
                  exact lt_of_lt_of_eq (List.length_pos_iff.mpr hmore) hlen
              | some errno =>
                  obtain rfl := (Prod.mk.inj hcallback).2
                  exact .gaveUp _ (fun _ => hmore)
      · rw [hcall] at hcallback
        obtain rfl := (Prod.mk.inj ((putWriter_giveUp (.error e) _ s).symm.trans hcallback)).2
        refine ⟨w.body.remaining contents, ?_, .gaveUp _ id⟩
        rw [htaken]
        rfl

end Saying

section Conversing

/-- A session and the exchange that it stands for.  Once something was said, more is left
until the session is closed. -/
inductive Agrees (sock : Nat) (contents : Nat → Bytes) (s : Session)
    (x : Exchange.State Byte Byte) : Prop
  | listening {ev : Event}
      (h : s.Reading sock ev)
      (hev : ev ≠ .freed)
      (hreader : s.reader = { started 256 x.heard with evRead := ev })
      (hquiet : s.reports = [])
      (hsilent : x.said = [])
      (hleft : x.left = none)
      (hopen : x.closed = false)
  | speaking {w : Writer}
      (h : s.Writing sock)
      (hwriter : s.writer = some w)
      (hfits : w.body.Fits contents)
      (hquiet : s.reports = [])
      (hleft : x.left = some (w.body.remaining contents))
      (hmore : x.said ≠ [] → w.body.remaining contents ≠ [])
      (hopen : x.closed = false)
  | ended
      (h : s.Dropped sock)
      (hclosed : x.closed = true)
      (hquiet : s.reports = [] → x.left = some [])
      (hall : x.left = some [] → x.said ≠ [] → s.reports = [])

/-- A run of the exchange that answers a step of the session, whose bytes it hears and
says. -/
structure Follows (sock : Nat) (contents : Nat → Bytes) (answer : Request → Body → Prop)
    (t : Session) (x : Exchange.State Byte Byte) (incoming outgoing : Bytes)
    (y : Exchange.State Byte Byte) : Prop where
  run : ∃ es, Transition.Run (Exchange.system (Answers contents answer)) x es y
  agrees : Agrees sock contents t y
  heard : y.heard = x.heard ++ incoming
  said : y.said = x.said ++ outgoing
  room : y.heard.length ≤ 258

variable {s t : Session} {x : Exchange.State Byte Byte}

/-- A session that gave up before it said everything is over, with a report. -/
theorem agrees_giveUp
    {y : Exchange.State Byte Byte} (h : s.Alive sock) (r : Report)
    (hclosed : y.closed = true)
    (hleft : y.left = some [] → y.said = []) :
    Agrees sock contents (s.giveUp r) y := by
  refine .ended (h.giveUp r) hclosed ?_ ?_
  · intro hquiet
    simp [reports_giveUp] at hquiet
  · intro hall hsaid
    exact absurd (hleft hall) hsaid

/-- A callback of the reader: the exchange hears what was delivered, and may choose an
answer or close. -/
theorem follows_readable
    {ev : Event} (h : s.Reading sock ev)
    (hreader : s.reader = { started 256 x.heard with evRead := ev })
    (hquiet : s.reports = []) (hsilent : x.said = [])
    (hleft : x.left = none) (hopen : x.closed = false) (hroom : x.heard.length ≤ 258)
    {res : Except Errno Bytes} {serve : Request → Except Exn Body}
    {readAdd writeAdd : AddResult}
    (hwithin : (Input.readable res serve readAdd writeAdd).Within contents answer)
    (hstep : system.step s (.readable res serve readAdd writeAdd) t) :
    ∃ y, Follows sock contents answer t x
      (Input.readable res serve readAdd writeAdd).delivered [] y := by
  obtain ⟨hpossible, hcallback⟩ := hstep
  obtain rfl : ev = .pending := h.reader.symm.trans hpossible.1
  obtain ⟨hfit, hhears⟩ := hears_of_callback h hreader hroom hpossible hcallback
  generalize (Input.readable res serve readAdd writeAdd).delivered = data at hfit hhears ⊢
  have hhear : Exchange.Step (Answers contents answer) x (.hear data)
      { x with heard := x.heard ++ data } := .hear hopen hleft
  cases hhears with
  | @more ev hev =>
      refine ⟨_, ⟨_, Exchange.run_of_step hhear⟩, ?_, rfl, by simp, hfit⟩
      have h' : Reading sock ev
          { s with reader := { started 256 (x.heard ++ data) with evRead := ev } } :=
        ⟨h.alive.withReader _, rfl, h.writer⟩
      exact .listening h' hev rfl hquiet hsilent hleft hopen
  | @answered before after body reader hheard hbody hfreed =>
      have hline : (chopCR before).length < 258 := by
        have hle := length_chopCR_le before
        rw [hheard, List.length_append, List.length_cons] at hfit
        omega
      obtain ⟨hanswer, hfits⟩ := hwithin _ _ hline hbody
      have hreply : Answers contents answer (x.heard ++ data)
          (body.beforeWrite.remaining contents) :=
        ⟨before, after, body, hheard, hanswer, rfl⟩
      refine ⟨_, ⟨_, Exchange.run_ask hopen hleft hreply⟩, ?_, rfl, by simp, hfit⟩
      have h' : Writing sock
          { s with reader, writer := some ⟨.pending, body.beforeWrite⟩ } :=
        ⟨(h.alive.withReader reader).withWriter _, hfreed, _, rfl, rfl⟩
      refine .speaking h' rfl hfits hquiet rfl ?_ hopen
      exact fun hsaid => absurd hsilent hsaid
  | gaveUp r writer =>
      refine ⟨_, ⟨_, .cons hhear (Exchange.run_of_step (.close hopen))⟩, ?_, rfl,
        by simp, hfit⟩
      exact agrees_giveUp (h.alive.withWriter writer) r rfl
        (fun hall => absurd (hleft.symm.trans hall) nofun)

/-- A callback of the writer: the exchange says what was taken, and may close. -/
theorem follows_writable
    {w : Writer} (h : s.Writing sock)
    (hwriter : s.writer = some w) (hfits : w.body.Fits contents)
    (hquiet : s.reports = []) (hleft : x.left = some (w.body.remaining contents))
    (hmore : x.said ≠ [] → w.body.remaining contents ≠ [])
    (hopen : x.closed = false) (hroom : x.heard.length ≤ 258)
    {res : Except Errno Nat} {writeAdd : AddResult}
    (hstep : system.step s (.writable res writeAdd) t) :
    ∃ y, Follows sock contents answer t x []
      (s.sent contents (.writable res writeAdd)) y := by
  obtain ⟨hpossible, hcallback⟩ := hstep
  obtain ⟨rest, hrest, hsays⟩ := says_of_callback h hwriter hfits hpossible hcallback
  generalize s.sent contents (.writable res writeAdd) = data at hrest ⊢
  rw [hrest] at hleft
  have hsay : Exchange.Step (Answers contents answer) x (.say data)
      { x with said := x.said ++ data, left := some rest } := .say hopen hleft
  cases hsays with
  | done =>
      refine ⟨_, ⟨_, .cons hsay (Exchange.run_of_step (.close hopen))⟩, ?_, by simp, rfl,
        hroom⟩
      have hsame : s.close.reports = [] := (reports_close s).trans hquiet
      exact .ended h.alive.close rfl (fun _ => rfl) (fun _ _ => hsame)
  | @more body hfits' hmore' hstall =>
      refine ⟨_, ⟨_, Exchange.run_of_step hsay⟩, ?_, by simp, rfl, hroom⟩
      have h' : Writing sock { s with writer := some ⟨.pending, body⟩ } :=
        ⟨h.alive.withWriter _, h.reader, _, rfl, rfl⟩
      exact .speaking h' rfl hfits' hquiet rfl (fun _ => hmore') hopen
  | gaveUp r hrest' =>
      refine ⟨_, ⟨_, .cons hsay (Exchange.run_of_step (.close hopen))⟩, ?_, by simp, rfl,
        hroom⟩
      refine agrees_giveUp h.alive r rfl ?_
      intro hall
      have hnil : rest = [] := Option.some.inj hall
      have hnone : data ++ rest = [] := by
        by_contra hsome
        exact hrest' (by rwa [hrest]) hnil
      by_contra hsaid
      obtain ⟨rfl, -⟩ := List.append_eq_nil_iff.mp hnone
      exact hmore (by simpa using hsaid) (hrest.trans hnone)

/-- Every step of a session is a run of its exchange. -/
theorem Agrees.step
    (h : Agrees sock contents s x) (hroom : x.heard.length ≤ 258) {i : Input}
    (hstep : (system.restrict (fun _ i => i.Within contents answer)).step s i t) :
    ∃ y, Follows sock contents answer t x i.delivered (s.sent contents i) y := by
  obtain ⟨hwithin, hstep⟩ := hstep
  have hclose : ∀ {y : Exchange.State Byte Byte}, y.closed = false →
      Exchange.Step (Answers contents answer) y .close { y with closed := true } :=
    fun hopen => .close hopen
  cases h with
  | listening h hev hreader hquiet hsilent hleft hopen =>
      cases i with
      | readable res serve readAdd writeAdd =>
          exact follows_readable h hreader hquiet hsilent hleft hopen hroom hwithin hstep
      | readTimeout =>
          obtain ⟨-, hcallback⟩ := hstep
          have hgiveUp : s.callback .readTimeout = (.ok (), s.giveUp .timedOut) := rfl
          obtain rfl := (Prod.mk.inj (hgiveUp.symm.trans hcallback)).2
          refine ⟨_, ⟨_, Exchange.run_of_step (hclose hopen)⟩, ?_, by simp [Input.delivered],
            by simp [sent], hroom⟩
          exact agrees_giveUp h.alive _ rfl (fun _ => hsilent)
      | writable res writeAdd =>
          obtain ⟨w, hw, hpending, -⟩ := hstep.1
          exact absurd ⟨w, hw, hpending⟩ h.not_writePending
      | writeTimeout => exact absurd hstep.1 h.not_writePending
  | @speaking w h hwriter hfits hquiet hleft hmore hopen =>
      cases i with
      | readable => exact absurd hstep.1.1 h.not_readPending
      | readTimeout => exact absurd hstep.1 h.not_readPending
      | writable res writeAdd =>
          exact follows_writable h hwriter hfits hquiet hleft hmore hopen hroom hstep
      | writeTimeout =>
          obtain rfl := (Prod.mk.inj ((callback_writeTimeout hwriter).symm.trans hstep.2)).2
          refine ⟨_, ⟨_, Exchange.run_of_step (hclose hopen)⟩, ?_, by simp [Input.delivered],
            by simp [sent], hroom⟩
          refine agrees_giveUp h.alive _ rfl ?_
          intro hall
          by_contra hsaid
          exact hmore hsaid (Option.some.inj (hleft.symm.trans hall))
  | ended h => exact absurd hstep.1 (h.not_possible i)

/-- Every run of a session is a run of its exchange. -/
theorem agrees_of_run
    {is : List Input}
    (hrun : Transition.Run (system.restrict (fun _ i => i.Within contents answer)) s is t) :
    ∀ {x : Exchange.State Byte Byte}, Agrees sock contents s x → x.heard.length ≤ 258 →
      ∃ y, Follows sock contents answer t x (heard is) (said contents s is) y := by
  induction hrun with
  | nil s =>
      intro x hagrees hroom
      exact ⟨x, ⟨[], .nil x⟩, hagrees, by simp [heard], by simp [said], hroom⟩
  | @cons s t u i is hfirst hrest ih =>
      intro x hagrees hroom
      obtain ⟨y, hy⟩ := hagrees.step hroom hfirst
      obtain ⟨z, hz⟩ := ih hy.agrees hy.room
      have hnext : (s.callback i).2 = t := congrArg Prod.snd hfirst.2.2
      obtain ⟨es, hes⟩ := hy.run
      obtain ⟨fs, hfs⟩ := hz.run
      refine ⟨z, ⟨es ++ fs, hes.append hfs⟩, hz.agrees, ?_, ?_, hz.room⟩
      · rw [hz.heard, hy.heard]
        simp [heard]
      · rw [hz.said, hy.said]
        simp [said, hnext]

theorem agrees_newSession
    {add : AddResult} (hnew : newSession sock add = .ok s) :
    Agrees sock contents s Exchange.fresh := by
  have hreading := newSession_reading hnew
  cases add with
  | none =>
      obtain rfl := Except.ok.inj hnew
      exact .listening hreading nofun rfl rfl rfl rfl rfl
  | some e =>
      obtain rfl := Except.ok.inj hnew
      exact .listening hreading nofun rfl rfl rfl rfl rfl

/-- What a session has said, by the exchange that it stands for. -/
theorem Agrees.answered
    {y : Exchange.State Byte Byte} (hagrees : Agrees sock contents t y)
    (hsound : Exchange.Sound (Answers contents answer) y) :
    y.said = [] ∧ (t.drops ≠ [] → t.reports ≠ []) ∨
      ∃ before after body,
        y.heard = before ++ LF :: after ∧
        answer ⟨chopCR before⟩ body ∧
        y.said <+: body.beforeWrite.remaining contents ∧
        (body.beforeWrite.remaining contents ≠ [] →
          (t.drops = [sock] ∧ t.reports = [] ↔
            y.said = body.beforeWrite.remaining contents)) := by
  cases hagrees with
  | listening h hev hreader hquiet hsilent hleft hopen =>
      exact .inl ⟨hsilent, fun hdrops => absurd h.alive.drops hdrops⟩
  | @speaking w h hwriter hfits hquiet hleft hmore hopen =>
      obtain ⟨before, after, body, hline, hanswer, hreply⟩ := hsound.answered _ hleft
      refine .inr ⟨before, after, body, hline, hanswer, ⟨_, hreply⟩, ?_⟩
      intro hne
      rw [← hreply]
      constructor
      · intro hdropped
        simp [h.alive.drops] at hdropped
      · intro hall
        have hnil : w.body.remaining contents = [] := List.self_eq_append_right.mp hall
        have hsome : y.said ≠ [] := by
          intro hnone
          rw [hnone, hnil] at hreply
          exact hne hreply.symm
        exact absurd hnil (hmore hsome)
  | ended h hclosed hquiet hall =>
      cases hleft : y.left with
      | none =>
          refine .inl ⟨hsound.silent hleft, ?_⟩
          intro _ hnone
          exact absurd (hleft.symm.trans (hquiet hnone)) nofun
      | some rest =>
          obtain ⟨before, after, body, hline, hanswer, hreply⟩ := hsound.answered _ hleft
          refine .inr ⟨before, after, body, hline, hanswer, ⟨_, hreply⟩, ?_⟩
          intro hne
          rw [← hreply]
          constructor
          · rintro ⟨-, hnone⟩
            have hnil : rest = [] := Option.some.inj (hleft.symm.trans (hquiet hnone))
            rw [hnil, List.append_nil]
          · intro heq
            have hnil : rest = [] := List.self_eq_append_right.mp heq
            subst hnil
            refine ⟨h.drops, hall hleft ?_⟩
            intro hnone
            rw [hnone] at hreply
            exact hne hreply.symm

/-- The exchange that a session stands for, from its beginning on. -/
theorem exchange_of_run
    {add : AddResult} {is : List Input}
    (hnew : newSession sock add = .ok s)
    (hrun : Transition.Run (system.restrict (fun _ i => i.Within contents answer)) s is t) :
    ∃ y, Agrees sock contents t y ∧ Exchange.Sound (Answers contents answer) y ∧
      y.heard = heard is ∧ y.said = said contents s is ∧ y.heard.length ≤ 258 := by
  have hroom : (Exchange.fresh : Exchange.State Byte Byte).heard.length ≤ 258 := Nat.zero_le _
  obtain ⟨y, ⟨es, hexchange⟩, hagrees, hheard, hsaid, hlen⟩ :=
    agrees_of_run hrun (agrees_newSession hnew) hroom
  exact ⟨y, hagrees, Exchange.sound_of_run hexchange, hheard, hsaid, hlen⟩

/-- In every run of a session the client receives the beginning of one answer, to the
bytes before a newline of what it sent, less the CR at their end; or it receives nothing.
No more than 258 bytes of the client are read.  The session is closed without a report
exactly when the client has received all of the answer, if that is not empty. -/
theorem answers_one_line
    {add : AddResult} {s t : Session} {is : List Input}
    (hnew : newSession sock add = .ok s)
    (hrun : Transition.Run (system.restrict (fun _ i => i.Within contents answer)) s is t) :
    (heard is).length ≤ 258 ∧
      (said contents s is = [] ∧ (t.drops ≠ [] → t.reports ≠ []) ∨
        ∃ before after body,
          heard is = before ++ LF :: after ∧
          answer ⟨chopCR before⟩ body ∧
          said contents s is <+: body.beforeWrite.remaining contents ∧
          (body.beforeWrite.remaining contents ≠ [] →
            (t.drops = [sock] ∧ t.reports = [] ↔
              said contents s is = body.beforeWrite.remaining contents))) := by
  obtain ⟨y, hagrees, hsound, hheard, hsaid, hroom⟩ := exchange_of_run hnew hrun
  rw [← hheard, ← hsaid]
  exact ⟨hroom, hagrees.answered hsound⟩

/-- A body of two bytes. -/
def greetingBody : Body :=
  .bytes { buffer := lit "hi" }

/-- A client sends a line with a CR, and is answered with two bytes. -/
def hello : Input :=
  .readable (.ok (lit "x\r\n")) (fun _ => .ok greetingBody) none none

/-- The session that has the two bytes to send. -/
def greeting : Session :=
  ⟨7, 7, ⟨120 :: 0 :: 10 :: List.replicate 255 0, 0, .freed⟩,
    some ⟨.pending, greetingBody⟩, false, []⟩

/-- The client, and the kernel that takes both bytes. -/
def helloRun : List Input :=
  [hello, .writable (.ok 2) none]

set_option maxRecDepth 4000 in
theorem step_hello : system.step (accepted .pending) hello greeting := by
  refine ⟨⟨rfl, ?_⟩, rfl⟩
  intro data hdata
  obtain rfl : lit "x\r\n" = data := Except.ok.inj hdata
  simp [Reader.room, accepted, lit]

theorem within_hello :
    hello.Within (fun _ => []) (fun _ body => body = greetingBody) := by
  intro line body _ hbody
  obtain rfl := Except.ok.inj hbody
  refine ⟨rfl, ?_⟩
  show (lit "hi").length < 2 ^ 32
  decide

/-- A client whose line was read, and that took two bytes, has received an answer. -/
theorem hello_answered :
    ∃ before after body,
      heard helloRun = before ++ LF :: after ∧ body = greetingBody ∧
        said (fun _ => []) (accepted .pending) helloRun <+:
          Body.remaining (fun _ => []) body.beforeWrite := by
  have hnew : newSession 7 none = .ok (accepted .pending) := rfl
  have htaken : system.step greeting (.writable (.ok 2) none) greeting.close := by
    refine ⟨⟨_, rfl, rfl, ?_⟩, rfl⟩
    intro n hn
    obtain rfl : 2 = n := Except.ok.inj hn
    exact Nat.le_refl 2
  have hrun : Transition.Run
      (system.restrict (fun _ i => i.Within (fun _ => []) (fun _ body => body = greetingBody)))
      (accepted .pending) helloRun greeting.close :=
    .cons ⟨within_hello, step_hello⟩ (.cons ⟨trivial, htaken⟩ (.nil _))
  have hsaid : said (fun _ => []) (accepted .pending) helloRun = lit "hi" := by
    simp only [helloRun, said, step_hello.2]
    rfl
  rcases (answers_one_line hnew hrun).2 with
    ⟨hnone, -⟩ | ⟨before, after, body, hline, hbody, hle, -⟩
  · exact absurd (hsaid.symm.trans hnone) nofun
  · exact ⟨before, after, body, hline, hbody, hle⟩

end Conversing

end Session

end Goofy
