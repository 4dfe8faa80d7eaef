import Goofy.SessionRuns

/-!
# What a callback does outside of its session

A callback leaves the outside alone, or it drops its session: then it asks the
server to forget the session, and closes the socket and the file of the writer.
The file of a session is the one that the map opened for the answer, from the
callback that receives the line on.
-/

namespace Goofy

open Effect Gopher

namespace Gopher

/-- The descriptor that a body owns. -/
def Body.descriptor : Body → Option Nat
  | .bytes _ => none
  | .menu _ => none
  | .file f => some f.fdesc

theorem Body.descriptor_beforeWrite (body : Body) :
    body.beforeWrite.descriptor = body.descriptor := by
  cases body <;> rfl

namespace Writer

variable {S : Type} (wp : WriteParams S) (add : AddResult)

theorem body_proceed (again : Bool) (w : Writer) (s : S) :
    (proceed wp add again w s).2.1.body = w.body := by
  unfold proceed schedule
  cases again <;> cases w.evWrite <;> cases add <;> rfl

theorem descriptor_writeChunkBytes
    (res : Except Errno Nat) {set : BytesWriter → Body}
    (hset : ∀ b, (set b).descriptor = none)
    (b : BytesWriter) {w : Writer} (hw : w.body.descriptor = none) (s : S) :
    (writeChunkBytes wp add res set b w s).2.1.body.descriptor = none := by
  unfold writeChunkBytes
  cases res with
  | error e => exact hw
  | ok sent =>
      simp only
      split
      · exact hw
      · split
        · rw [body_proceed, hset]
        · split
          · rw [body_proceed, hset]
          · exact hset _

/-- A writer keeps its file through all its callbacks. -/
theorem descriptor_cbWrite (res : Except Errno Nat) (w : Writer) (s : S) :
    (cbWrite wp add res w s).2.1.body.descriptor = w.body.descriptor := by
  have hchunk : (writeChunk wp add res w s).2.1.body.descriptor = w.body.descriptor := by
    unfold writeChunk
    cases hbody : w.body with
    | bytes b =>
        exact descriptor_writeChunkBytes wp add res (fun _ => rfl) b (by rw [hbody]; rfl) s
    | menu m =>
        exact descriptor_writeChunkBytes wp add res (fun _ => rfl) _ (by rw [hbody]; rfl) s
    | file f =>
        simp only
        unfold writeChunkFile
        cases res with
        | error e => simp [hbody]
        | ok sent =>
            simp only [body_proceed]
            rfl
  unfold cbWrite
  split
  · rename_i heq
    rw [heq] at hchunk
    exact hchunk
  · exact hchunk

end Writer

end Gopher

namespace Session

variable {sock : Nat}

/-- The file that the session's writer sends. -/
def file (s : Session) : Option Nat :=
  s.writer.bind (fun w => w.body.descriptor)

/-- The map opens the file in answer to some request. -/
def Input.Serves : Input → Nat → Prop
  | .readable _ serve _ _, fd => ∃ r f, serve r = .ok (.file f) ∧ f.fdesc = fd
  | _, _ => False

/-- What a callback from `s` to `t` does outside: nothing, or it drops the session
and closes what the session owns. -/
inductive Effect (sock : Nat) (serves : Nat → Prop) (s t : Session) : Prop
  | kept
      (hactions : t.actions = s.actions)
      (hclsock : t.clsock = s.clsock)
      (hfile : ∀ fd, t.file = some fd → s.file = some fd ∨ serves fd)
  | dropped {quiet : List Action} {file : Option Nat}
      (hquiet : ∀ a ∈ quiet, ∃ r, a = .report r)
      (hactions : t.actions = s.actions ++ (quiet ++
        [.shutdown s.clsock, .drop sock, .close s.clsock] ++ file.toList.map .close))
      (hfile : ∀ fd, file = some fd → s.file = some fd ∨ serves fd)

theorem actions_close (s : Session) :
    s.close.actions = s.actions ++
      ([.shutdown s.clsock, .drop s.dropId, .close s.clsock] ++
        s.file.toList.map .close) := by
  unfold close destroy file
  rcases s.writer with _ | ⟨ev, b | m | f⟩ <;> simp [Body.descriptor]

theorem Alive.effect_close
    {s s' : Session} {serves : Nat → Prop} (h : s'.Alive sock)
    (hactions : s'.actions = s.actions) (hclsock : s'.clsock = s.clsock)
    (hfile : ∀ fd, s'.file = some fd → s.file = some fd ∨ serves fd) :
    Effect sock serves s s'.close := by
  have hquiet : ∀ a ∈ ([] : List Action), ∃ r, a = .report r := by
    simp
  refine .dropped hquiet ?_ hfile
  rw [actions_close, hactions, hclsock, h.dropId]
  rfl

theorem Alive.effect_giveUp
    {s s' : Session} {serves : Nat → Prop} (h : s'.Alive sock)
    (hactions : s'.actions = s.actions) (hclsock : s'.clsock = s.clsock)
    (hfile : ∀ fd, s'.file = some fd → s.file = some fd ∨ serves fd)
    (r : Report) :
    Effect sock serves s (s'.giveUp r) := by
  have hquiet : ∀ a ∈ [Action.report r], ∃ r, a = .report r := by
    simp
  refine .dropped hquiet ?_ hfile
  rw [Session.giveUp, actions_close, hactions, hclsock, h.dropId]
  simp [file]

/-- `got_line` changes nothing but the writer, whose file is one that the map
opened. -/
theorem gotLine_snd
    (serve : Request → Except Exn Body) (add : AddResult) (line : Bytes) (s : Session) :
    ∃ writer, (gotLine (fun r => (serve r).mapError Fail.exn) add line s).2 =
        { s with writer } ∧
      ∀ fd, ({ s with writer } : Session).file = some fd →
        s.file = some fd ∨ ∃ r f, serve r = .ok (.file f) ∧ f.fdesc = fd := by
  have hbody : ∀ body fd, answerOf ((serve ⟨line⟩).mapError Fail.exn) = .ok body →
      body.descriptor = some fd → ∃ r f, serve r = .ok (.file f) ∧ f.fdesc = fd := by
    intro body fd hanswer hfd
    cases hserve : serve ⟨line⟩ with
    | error e =>
        rw [hserve] at hanswer
        cases e <;> simp only [Except.mapError, answerOf, reduceCtorEq, Except.ok.injEq]
          at hanswer <;> simp [← hanswer, Body.descriptor] at hfd
    | ok body' =>
        rw [hserve] at hanswer
        obtain rfl := Except.ok.inj hanswer
        cases body' with
        | bytes b => simp [Body.descriptor] at hfd
        | menu m => simp [Body.descriptor] at hfd
        | file f => exact ⟨⟨line⟩, f, hserve, Option.some.inj hfd⟩
  unfold gotLine
  cases hanswer : answerOf ((serve ⟨line⟩).mapError Fail.exn) with
  | error f => exact ⟨s.writer, rfl, fun fd hfd => Or.inl hfd⟩
  | ok body =>
      have hfile : ∀ ev fd, ({ s with writer := some ⟨ev, body.beforeWrite⟩ } : Session).file =
          some fd → ∃ r f, serve r = .ok (.file f) ∧ f.fdesc = fd := by
        intro ev fd hfd
        refine hbody body fd hanswer ?_
        rw [← Body.descriptor_beforeWrite]
        exact hfd
      cases add with
      | none =>
          exact ⟨some ⟨.pending, body.beforeWrite⟩, rfl, fun fd hfd => Or.inr (hfile _ fd hfd)⟩
      | some e =>
          exact ⟨some ⟨.idle, body.beforeWrite⟩, rfl, fun fd hfd => Or.inr (hfile _ fd hfd)⟩

theorem effect_readable
    {s t : Session} (h : s.Reading sock .pending)
    {res : Except Errno Bytes} {serve : Request → Except Exn Body}
    {readAdd writeAdd : AddResult}
    (hcallback : s.callback (.readable res serve readAdd writeAdd) = (.ok (), t)) :
    Effect sock (Input.readable res serve readAdd writeAdd).Serves s t := by
  have hfired : ({ s.reader with evRead := s.reader.evRead.fired } : Reader).evRead =
      .idle := by
    simp [h.reader, Event.fired]
  have hout := Reader.cbRead_outcome _ readAdd res s hfired (gotLine_returns serve writeAdd s)
  simp only [callback] at hcallback
  generalize Reader.cbRead _ readAdd res _ s = out at hout hcallback
  cases hout with
  | eof _ =>
      obtain rfl := (Prod.mk.inj ((putReader_giveUp _ _ s).symm.trans hcallback)).2
      exact h.alive.effect_giveUp rfl rfl (fun _ hfd => Or.inl hfd) _
  | failed e _ =>
      obtain rfl := (Prod.mk.inj ((putReader_giveUp _ _ s).symm.trans hcallback)).2
      exact h.alive.effect_giveUp rfl rfl (fun _ hfd => Or.inl hfd) _
  | @more r _ _ =>
      obtain rfl := (Prod.mk.inj ((putReader_alive _ h.alive).symm.trans hcallback)).2
      exact .kept rfl rfl (fun _ hfd => Or.inl hfd)
  | @refused r line e s' _ hline =>
      obtain ⟨writer, hsnd, hfile⟩ := gotLine_snd serve writeAdd line s
      obtain rfl : { s with writer } = s' := hsnd.symm.trans (congrArg Prod.snd hline)
      obtain rfl := (Prod.mk.inj ((putReader_giveUp _ _ _).symm.trans hcallback)).2
      exact Alive.effect_giveUp (s := s) (h.alive.withWriter writer) rfl rfl hfile _
  | @answered r line s' _ _ hline =>
      obtain ⟨writer, hsnd, hfile⟩ := gotLine_snd serve writeAdd line s
      obtain rfl : { s with writer } = s' := hsnd.symm.trans (congrArg Prod.snd hline)
      obtain rfl := (Prod.mk.inj
        ((putReader_alive _ (h.alive.withWriter writer)).symm.trans hcallback)).2
      exact .kept rfl rfl hfile

/-- What a writable callback makes of its session: it is closed, with a report of an
error or without, or it keeps its file and waits. -/
inductive Written (s : Session) : Session → Prop
  | closed : Written s s.close
  | gaveUp (r : Report) : Written s (s.giveUp r)
  | more {w : Writer} (hw : w.evWrite = .pending)
      (hfile : file { s with writer := some w } = s.file) :
      Written s { s with writer := some w }

theorem written_of_callback
    {s t : Session} (h : s.Writing sock)
    {res : Except Errno Nat} {writeAdd : AddResult}
    (hpossible : s.Possible (.writable res writeAdd))
    (hcallback : s.callback (.writable res writeAdd) = (.ok (), t)) :
    Written s t := by
  obtain ⟨w, hwriter, hw, hsent⟩ := hpossible
  have hfired : ({ w with evWrite := w.evWrite.fired } : Writer).evWrite = .idle := by
    simp [hw, Event.fired]
  have hout := Writer.cbWrite_outcome writeParams writeAdd res s hfired hsent
  have hkeeps := Writer.descriptor_cbWrite writeParams writeAdd res
    { w with evWrite := w.evWrite.fired } s
  simp only [callback, hwriter] at hcallback
  generalize Writer.cbWrite writeParams writeAdd res _ s = out at hout hkeeps hcallback
  cases hout with
  | @done w' =>
      have hclose : putWriter (.ok (), w', writeParams.gotSuccess s) = (.ok (), s.close) := rfl
      obtain rfl := (Prod.mk.inj (hclose.symm.trans hcallback)).2
      exact .closed
  | @more w' hw' _ =>
      obtain rfl := (Prod.mk.inj ((putWriter_alive _ h.alive).symm.trans hcallback)).2
      refine .more hw' ?_
      rw [file, file, hwriter]
      exact hkeeps
  | @failed w' e =>
      have hgiveUp : putWriter (.ok (), w', writeParams.gotError e s) =
          (.ok (), s.giveUp (.error e)) := rfl
      obtain rfl := (Prod.mk.inj (hgiveUp.symm.trans hcallback)).2
      exact .gaveUp _

theorem effect_writable
    {s t : Session} (h : s.Writing sock)
    {res : Except Errno Nat} {writeAdd : AddResult}
    (hpossible : s.Possible (.writable res writeAdd))
    (hcallback : s.callback (.writable res writeAdd) = (.ok (), t)) :
    Effect sock (Input.writable res writeAdd).Serves s t := by
  cases written_of_callback h hpossible hcallback with
  | closed => exact h.alive.effect_close rfl rfl (fun _ hfd => Or.inl hfd)
  | gaveUp r => exact h.alive.effect_giveUp rfl rfl (fun _ hfd => Or.inl hfd) r
  | more _ hfile => exact .kept rfl rfl (fun _ hfd => Or.inl (hfile.symm.trans hfd))

/-- A callback leaves the outside alone, or drops its session once and closes the
socket and the file that the session owns. -/
theorem callback_effect
    {s t : Session} (hphase : s.Phase sock) {i : Input}
    (hpossible : s.Possible i) (hcallback : s.callback i = (.ok (), t)) :
    Effect sock i.Serves s t := by
  cases i with
  | readable res serve readAdd writeAdd =>
      exact effect_readable (hphase.reading hpossible.1) hcallback
  | readTimeout =>
      have h := hphase.reading hpossible
      have hgiveUp : s.callback .readTimeout = (.ok (), s.giveUp .timedOut) := rfl
      obtain rfl := (Prod.mk.inj (hgiveUp.symm.trans hcallback)).2
      exact h.alive.effect_giveUp rfl rfl (fun _ hfd => Or.inl hfd) _
  | writable res writeAdd =>
      obtain ⟨w, hw, hpending, -⟩ := id hpossible
      exact effect_writable (hphase.writing ⟨w, hw, hpending⟩) hpossible hcallback
  | writeTimeout =>
      have h := hphase.writing hpossible
      obtain ⟨w, hw, -⟩ := hpossible
      have hgiveUp := callback_writeTimeout hw
      obtain rfl := (Prod.mk.inj (hgiveUp.symm.trans hcallback)).2
      exact h.alive.effect_giveUp rfl rfl (fun _ hfd => Or.inl hfd) _

end Session

end Goofy
