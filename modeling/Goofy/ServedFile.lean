import Goofy.SessionEffects

/-!
# The descriptor of a served file

`send_file` opens a file and hands its descriptor to a `FileWriter`, whose
constructor asks for the size of the file.  From then on the writer owns the
descriptor and closes it in its destructor.

Here the session and the map write down what they do with descriptors.  A
descriptor is never used after it was closed, and a session that is dropped has
closed it exactly once if and only if the constructor got the size
(`file_closed_once_iff`): an exception in the initialiser leaves the descriptor
to nobody.
-/

namespace Goofy

open Effect Gopher Transition

/-- What is done with a descriptor: `open` returned it, `fstat` or `sendfile`
received it, or `close` did. -/
inductive Call where
  | opened (fd : Nat)
  | used (fd : Nat)
  | closed (fd : Nat)
deriving DecidableEq

/-- A call that concerns no descriptor. -/
def unwatched {ω β : Type} (call : ω → β × ω) (w : ω × List Call) :
    β × (ω × List Call) :=
  ((call w.1).1, (call w.1).2, w.2)

/-- The same system, with what is done with the descriptors of served files. -/
def Os.watched {ω : Type} (os : Os ω) : Os (ω × List Call) where
  stat path := unwatched (os.stat path)
  magicFile path := unwatched (os.magicFile path)
  opendir path := unwatched (os.opendir path)
  openFile path w :=
    match os.openFile path w.1 with
    | (.ok fd, w') => (.ok fd, w', w.2 ++ [.opened fd])
    | (.error e, w') => (.error e, w', w.2)
  fstat fd w := ((os.fstat fd w.1).1, (os.fstat fd w.1).2, w.2 ++ [.used fd])
  fopen path := unwatched (os.fopen path)

/-- A session and the world around it, with all that was done with descriptors. -/
structure Watched (ω : Type) where
  session : Session
  world : ω
  calls : List Call

/-- The descriptors that a session closes. -/
def closes (actions : List Action) : List Call :=
  actions.filterMap (fun a =>
    match a with
    | .close fd => some (.closed fd)
    | _ => none)

namespace Watched

variable {ω : Type}

/-- Let the session act. -/
def act (f : Session → Session) (s : Watched ω) : Watched ω :=
  ⟨f s.session, s.world,
    s.calls ++ closes ((f s.session).actions.drop s.session.actions.length)⟩

/-- `got_line`, for a request that `send_file` answers. -/
def gotLine (os : Os ω) (data : RequestData) (add : AddResult)
    (line : Bytes) (s : Watched ω) : Except Fail Bool × Watched ω :=
  let answer := Prog.exec (NodeFSys.sendFile os.watched data) (s.world, s.calls)
  let told := Session.gotLine (fun _ => answer.1) add line s.session
  (told.1, ⟨told.2, answer.2.1, answer.2.2⟩)

def readParams (os : Os ω) (data : RequestData) (add : AddResult) :
    ReadParams (Watched ω) where
  gotLine := gotLine os data add
  gotEof := act Session.gotEof
  gotTimeout := act Session.gotTimeout
  gotError e := act (Session.gotError e)

/-- What the world answers to one callback, `open` and `fstat` apart. -/
inductive Input where
  | readable (res : Except Errno Bytes) (readAdd writeAdd : AddResult)
  | readTimeout
  | writable (res : Except Errno Nat) (writeAdd : AddResult)
  | writeTimeout

/-- The input of the session alone, given what `send_file` returns. -/
def Input.plain (res : Except Exn Body) : Input → Session.Input
  | readable data readAdd writeAdd => .readable data (fun _ => res) readAdd writeAdd
  | readTimeout => .readTimeout
  | writable sent writeAdd => .writable sent writeAdd
  | writeTimeout => .writeTimeout

/-- The callback of an event.  On a writable socket a file is passed to `sendfile`. -/
def callback (os : Os ω) (data : RequestData) (s : Watched ω) :
    Input → Except Fail Unit × Watched ω
  | .readable res readAdd writeAdd =>
      let out := Reader.cbRead (readParams os data writeAdd) readAdd res
        { s.session.reader with evRead := s.session.reader.evRead.fired } s
      let put := Session.putReader (out.1, out.2.1, out.2.2.session)
      (put.1, { out.2.2 with session := put.2 })
  | .readTimeout =>
      ((s.session.callback .readTimeout).1,
        s.act (fun session => (session.callback .readTimeout).2))
  | .writable res writeAdd =>
      ((s.session.callback (.writable res writeAdd)).1,
        act (fun session => (session.callback (.writable res writeAdd)).2)
          { s with calls := s.calls ++ s.session.file.toList.map .used })
  | .writeTimeout =>
      ((s.session.callback .writeTimeout).1,
        s.act (fun session => (session.callback .writeTimeout).2))

/-- The number that `open` returns is not that of the open socket. -/
def Possible (os : Os ω) (data : RequestData) (s : Watched ω) (i : Input) : Prop :=
  (∀ res, s.session.Possible (i.plain res)) ∧
    ∀ fd, (os.openFile (cStr data.fsysPath) s.world).1 = .ok fd → fd ≠ s.session.clsock

/-- The runs of a request that `send_file` answers. -/
def system (os : Os ω) (data : RequestData) : System (Watched ω) Input where
  init s := s.calls = [] ∧ ∃ clsock add, Session.newSession clsock add = .ok s.session
  step s i t := s.Possible os data i ∧ s.callback os data i = (.ok (), t)

section Answer

variable {os : Os ω} {data : RequestData}

/-- What `send_file` returns and does: `open` fails, or the constructor of the writer
fails, or there is a writer. -/
inductive Sends (os : Os ω) (data : RequestData) (w : ω) (calls : List Call) :
    Except Fail Body × (ω × List Call) → Prop
  | refused {e : Errno} {w' : ω}
      (hopen : os.openFile (cStr data.fsysPath) w = (.error e, w')) :
      Sends os data w calls (.error (.exn (.ioError (lit "open") e)), w', calls)
  | lost {fd : Nat} {e : Errno} {w' w'' : ω}
      (hopen : os.openFile (cStr data.fsysPath) w = (.ok fd, w'))
      (hfstat : os.fstat fd w' = (.error e, w'')) :
      Sends os data w calls
        (.error (.exn (.ioError (lit "fstat") e)), w'', calls ++ [.opened fd] ++ [.used fd])
  | sent {fd n : Nat} {w' w'' : ω}
      (hopen : os.openFile (cStr data.fsysPath) w = (.ok fd, w'))
      (hfstat : os.fstat fd w' = (.ok n, w'')) :
      Sends os data w calls
        (.ok (.file ⟨fd, 0, n⟩), w'', calls ++ [.opened fd] ++ [.used fd])

theorem sends_sendFile (os : Os ω) (data : RequestData) (w : ω) (calls : List Call) :
    Sends os data w calls (Prog.exec (NodeFSys.sendFile os.watched data) (w, calls)) := by
  rcases hopen : os.openFile (cStr data.fsysPath) w with ⟨e | fd, w'⟩
  · have hcall : os.watched.openFile (cStr data.fsysPath) (w, calls) =
        (.error e, w', calls) := by
      simp only [Os.watched, hopen]
    rw [NodeFSys.sendFile, sysCall, Prog.exec_bind_error (exec_sysCallWith_error _ hcall)]
    exact .refused hopen
  · have hcall : os.watched.openFile (cStr data.fsysPath) (w, calls) =
        (.ok fd, w', calls ++ [.opened fd]) := by
      simp only [Os.watched, hopen]
    rw [NodeFSys.sendFile, sysCall, Prog.exec_bind_ok (exec_sysCallWith_ok _ hcall)]
    rcases hfstat : os.fstat fd w' with ⟨e | n, w''⟩
    · have hcall : os.watched.fstat fd (w', calls ++ [.opened fd]) =
          (.error e, w'', calls ++ [.opened fd] ++ [.used fd]) := by
        simp only [Os.watched, hfstat]
      rw [Prog.exec_bind_error (FileWriter.exec_create_error os.watched hcall)]
      exact .lost hopen hfstat
    · have hcall : os.watched.fstat fd (w', calls ++ [.opened fd]) =
          (.ok n, w'', calls ++ [.opened fd] ++ [.used fd]) := by
        simp only [Os.watched, hfstat]
      rw [Prog.exec_bind_ok (FileWriter.exec_create os.watched hcall)]
      exact .sent hopen hfstat

/-- A request for a file is answered by `send_file`, in the world that the analysis of
the request leaves. -/
theorem exec_makeWriter_file
    {n : NodeFSys} {r : Request} {w w' : ω}
    (hanalyze : Prog.exec (n.analyzeRequest os r) w = (.ok data, w'))
    (htype : data.nodeType = .plain ∨ data.nodeType = .binary ∨ data.nodeType = .gif ∨
      data.nodeType = .image) :
    Prog.exec (n.makeWriter os r) w = Prog.exec (NodeFSys.sendFile os data) w' := by
  rw [NodeFSys.makeWriter, Prog.exec_bind_ok hanalyze, NodeFSys.answer]
  rcases htype with h | h | h | h <;> rw [h]

end Answer

section Acting

variable {sock : Nat}

/-- What a session closes at its end: the socket and the file. -/
def lastCalls (clsock : Nat) (file : Option Nat) : List Call :=
  .closed clsock :: file.toList.map .closed

theorem closes_end (clsock id : Nat) (file : Option Nat) (quiet : List Action)
    (hquiet : closes quiet = []) :
    closes (quiet ++ ([.shutdown clsock, .drop id, .close clsock] ++
      file.toList.map Action.close)) = lastCalls clsock file := by
  unfold closes at hquiet ⊢
  rw [List.filterMap_append, hquiet]
  cases file with
  | none => rfl
  | some fd => rfl

theorem act_close (s : Watched ω) :
    s.act Session.close =
      ⟨s.session.close, s.world, s.calls ++ lastCalls s.session.clsock s.session.file⟩ := by
  have hcloses := closes_end s.session.clsock s.session.dropId s.session.file [] rfl
  rw [List.nil_append] at hcloses
  rw [act, Session.actions_close, List.drop_left, hcloses]

theorem act_giveUp (r : Report) (s : Watched ω) :
    s.act (Session.giveUp r) =
      ⟨s.session.giveUp r, s.world, s.calls ++ lastCalls s.session.clsock s.session.file⟩ := by
  have hcloses := closes_end s.session.clsock s.session.dropId s.session.file [.report r] rfl
  have hactions : (s.session.giveUp r).actions = s.session.actions ++ ([.report r] ++
      ([.shutdown s.session.clsock, .drop s.session.dropId, .close s.session.clsock] ++
        s.session.file.toList.map .close)) := by
    rw [Session.giveUp, Session.actions_close, List.append_assoc]
    rfl
  rw [act, hactions, List.drop_left, hcloses]

end Acting

/-- Everything done with descriptors for an answer, and the file that its writer owns. -/
inductive Log (os : Os ω) (data : RequestData) (w : ω) (sock : Nat) :
    List Call → Option Nat → Prop
  | empty : Log os data w sock [] none
  | lost {fd : Nat} {e : Errno} {w' : ω}
      (hopen : os.openFile (cStr data.fsysPath) w = (.ok fd, w'))
      (hfstat : (os.fstat fd w').1 = .error e) (hfd : fd ≠ sock) :
      Log os data w sock [.opened fd, .used fd] none
  | owned {fd n : Nat} {w' : ω} (k : Nat)
      (hopen : os.openFile (cStr data.fsysPath) w = (.ok fd, w'))
      (hfstat : (os.fstat fd w').1 = .ok n) (hfd : fd ≠ sock) :
      Log os data w sock (.opened fd :: List.replicate (k + 1) (.used fd)) (some fd)

/-- Where a session is that serves a file: before the answer, sending it, or gone. -/
inductive Stage (os : Os ω) (data : RequestData) (w : ω) (sock : Nat) :
    Watched ω → Prop
  | waiting {ev : Event} {session : Session}
      (h : session.Reading sock ev) (hclsock : session.clsock = sock) :
      Stage os data w sock ⟨session, w, []⟩
  | sending {session : Session} {w' : ω} {calls : List Call}
      (h : session.Writing sock) (hclsock : session.clsock = sock)
      (hfile : session.file.isSome) (hlog : Log os data w sock calls session.file) :
      Stage os data w sock ⟨session, w', calls⟩
  | dropped {session : Session} {w' : ω} {calls : List Call} {file : Option Nat}
      (h : session.Dropped sock) (hgone : session.destroyed = true)
      (hlog : Log os data w sock calls file) :
      Stage os data w sock ⟨session, w', calls ++ lastCalls sock file⟩

section Stages

variable {os : Os ω} {data : RequestData} {w : ω} {sock : Nat}

/-- A session that ends closes its socket and its file. -/
theorem stage_close
    {session : Session} {w' : ω} {calls : List Call}
    (h : session.Alive sock) (hclsock : session.clsock = sock)
    (hlog : Log os data w sock calls session.file) :
    Stage os data w sock (act Session.close ⟨session, w', calls⟩) := by
  rw [act_close, hclsock]
  exact .dropped h.close rfl hlog

theorem stage_giveUp
    {session : Session} {w' : ω} {calls : List Call} (r : Report)
    (h : session.Alive sock) (hclsock : session.clsock = sock)
    (hlog : Log os data w sock calls session.file) :
    Stage os data w sock (act (Session.giveUp r) ⟨session, w', calls⟩) := by
  rw [act_giveUp, hclsock]
  exact .dropped (h.giveUp r) rfl hlog

/-- One more `sendfile`. -/
theorem Log.sendfile
    {calls : List Call} {file : Option Nat} (hlog : Log os data w sock calls file) :
    Log os data w sock (calls ++ file.toList.map .used) file := by
  cases hlog with
  | empty => exact .empty
  | lost hopen hfstat hfd => exact .lost hopen hfstat hfd
  | @owned fd n w' k hopen hfstat hfd =>
      have hmore : .opened fd :: List.replicate (k + 1) (Call.used fd) ++ [.used fd] =
          .opened fd :: List.replicate (k + 1 + 1) (.used fd) := by
        rw [List.cons_append, ← List.replicate_succ']
      rw [Option.toList_some, List.map_singleton, hmore]
      exact .owned (k + 1) hopen hfstat hfd

/-- Only a session that waits for its request has its reader's event pending. -/
theorem Stage.reading
    {s : Watched ω} (hs : Stage os data w sock s) (hpending : s.session.readPending) :
    ∃ session, s = ⟨session, w, []⟩ ∧ session.Reading sock .pending ∧ session.clsock = sock := by
  cases hs with
  | @waiting ev session h hclsock =>
      obtain rfl := h.reader.symm.trans hpending
      exact ⟨session, rfl, h, hclsock⟩
  | sending h => exact absurd (h.reader.symm.trans hpending) (by simp)
  | dropped h => exact absurd (h.reader.symm.trans hpending) (by simp)

/-- Only a session that sends its file has a writer. -/
theorem Stage.writing
    {s : Watched ω} (hs : Stage os data w sock s) {fw : Writer}
    (hwriter : s.session.writer = some fw) :
    s.session.Writing sock ∧ s.session.clsock = sock ∧ s.session.file.isSome ∧
      Log os data w sock s.calls s.session.file := by
  cases hs with
  | waiting h => exact absurd (h.writer.symm.trans hwriter) (by simp)
  | sending h hclsock hfile hlog => exact ⟨h, hclsock, hfile, hlog⟩
  | dropped h => exact absurd (h.writer.symm.trans hwriter) (by simp)

theorem log_of_reading
    {session : Session} {ev : Event} (h : session.Reading sock ev) :
    Log os data w sock [] session.file := by
  rw [Session.file, h.writer]
  exact .empty

/-- `got_line` starts the writer of the file or throws; either way the session owns the
file when the size is known. -/
theorem gotLine_log
    {session : Session} (hwriter : session.writer = none)
    (hfd : ∀ fd, (os.openFile (cStr data.fsysPath) w).1 = .ok fd → fd ≠ sock)
    (add : AddResult) (line : Bytes) :
    ∃ res writer w' calls,
      gotLine os data add line ⟨session, w, []⟩ =
          (res, ⟨{ session with writer }, w', calls⟩) ∧
        Log os data w sock calls (Session.file { session with writer }) ∧
        (res = .ok false ∧
            (∃ fw, writer = some fw ∧ fw.evWrite = .pending ∧ fw.body.descriptor.isSome) ∨
          ∃ e, res = .error (.exn e)) := by
  have hnone : session.file = none := by
    rw [Session.file, hwriter]
    rfl
  have hself : { session with writer := session.writer } = session := rfl
  have hsends := sends_sendFile os data w []
  simp only [gotLine]
  generalize Prog.exec (NodeFSys.sendFile os.watched data) (w, []) = answer at hsends ⊢
  cases hsends with
  | @refused e w' hopen =>
      refine ⟨_, session.writer, w', [], rfl, ?_, Or.inr ⟨_, rfl⟩⟩
      rw [hself, hnone]
      exact .empty
  | @lost fd e w' w'' hopen hfstat =>
      refine ⟨_, session.writer, w'', _, rfl, ?_, Or.inr ⟨_, rfl⟩⟩
      rw [hself, hnone]
      exact .lost hopen (congrArg Prod.fst hfstat) (hfd fd (congrArg Prod.fst hopen))
  | @sent fd n w' w'' hopen hfstat =>
      have hlog : Log os data w sock [.opened fd, .used fd] (some fd) :=
        .owned 0 hopen (congrArg Prod.fst hfstat) (hfd fd (congrArg Prod.fst hopen))
      cases add with
      | none =>
          exact ⟨_, some ⟨.pending, .file ⟨fd, 0, n⟩⟩, w'', _, rfl, hlog,
            Or.inl ⟨rfl, _, rfl, rfl, rfl⟩⟩
      | some errno =>
          exact ⟨_, some ⟨.idle, .file ⟨fd, 0, n⟩⟩, w'', _, rfl, hlog, Or.inr ⟨_, rfl⟩⟩

/-- A readable callback before the answer. -/
theorem stage_readable
    {session : Session} (h : session.Reading sock .pending) (hclsock : session.clsock = sock)
    (hfd : ∀ fd, (os.openFile (cStr data.fsysPath) w).1 = .ok fd → fd ≠ sock)
    {res : Except Errno Bytes} {readAdd writeAdd : AddResult} {t : Watched ω}
    (hcallback : callback os data ⟨session, w, []⟩ (.readable res readAdd writeAdd) =
      (.ok (), t)) :
    Stage os data w sock t := by
  have hfired : ({ session.reader with evRead := session.reader.evRead.fired } : Reader).evRead =
      .idle := by
    simp [h.reader, Event.fired]
  have hempty : Log os data w sock [] session.file := log_of_reading h
  have hline := gotLine_log h.writer hfd writeAdd
  have hgot : ∀ line, (∃ s', (readParams os data writeAdd).gotLine line ⟨session, w, []⟩ =
        (.ok false, s')) ∨
      ∃ e s', (readParams os data writeAdd).gotLine line ⟨session, w, []⟩ =
        (.error (.exn e), s') := by
    intro line
    obtain ⟨res, writer, w', calls, heq, -, ⟨rfl, -⟩ | ⟨e, rfl⟩⟩ := hline line
    · exact .inl ⟨_, heq⟩
    · exact .inr ⟨e, _, heq⟩
  have hout := Reader.cbRead_outcome (readParams os data writeAdd) readAdd res
    ⟨session, w, []⟩ hfired hgot
  simp only [callback] at hcallback
  generalize Reader.cbRead (readParams os data writeAdd) readAdd res _ _ = out at hout hcallback
  cases hout with
  | eof =>
      obtain rfl := (Prod.mk.inj hcallback).2
      exact stage_giveUp .eof h.alive hclsock hempty
  | failed e =>
      obtain rfl := (Prod.mk.inj hcallback).2
      exact stage_giveUp (.error e) h.alive hclsock hempty
  | @more r _ hr =>
      simp only [Session.putReader_alive r h.alive] at hcallback
      obtain rfl := (Prod.mk.inj hcallback).2
      exact .waiting ⟨h.alive.withReader r, hr, h.writer⟩ hclsock
  | @refused r line e s' _ hgotLine =>
      obtain ⟨res, writer, w', calls, heq, hlog, -⟩ := hline line
      obtain rfl := (Prod.mk.inj (heq.symm.trans hgotLine)).2
      obtain rfl := (Prod.mk.inj hcallback).2
      exact stage_giveUp (.error e) (h.alive.withWriter writer) hclsock hlog
  | @answered r line s' _ hr hgotLine =>
      obtain ⟨res, writer, w', calls, heq, hlog, hcases⟩ := hline line
      obtain ⟨rfl, rfl⟩ := Prod.mk.inj (heq.symm.trans hgotLine)
      obtain ⟨-, fw, rfl, hfw, hfile⟩ := hcases.resolve_right (by simp)
      have halive := h.alive.withWriter (some fw)
      simp only [Session.putReader_alive r halive] at hcallback
      obtain rfl := (Prod.mk.inj hcallback).2
      exact .sending ⟨halive.withReader r, hr, fw, rfl, hfw⟩ hclsock hfile hlog

/-- A writable callback: the file is sent on, or the session closes. -/
theorem stage_writable
    {session : Session} {w' : ω} {calls : List Call}
    (h : session.Writing sock) (hclsock : session.clsock = sock)
    (hsome : session.file.isSome) (hlog : Log os data w sock calls session.file)
    {res : Except Errno Nat} {writeAdd : AddResult} {t : Watched ω}
    (hpossible : session.Possible (.writable res writeAdd))
    (hcallback : callback os data ⟨session, w', calls⟩ (.writable res writeAdd) =
      (.ok (), t)) :
    Stage os data w sock t := by
  have hlog := hlog.sendfile
  simp only [callback] at hcallback
  obtain ⟨hok, rfl⟩ := Prod.mk.inj hcallback
  have hthen : session.callback (.writable res writeAdd) =
      (.ok (), (session.callback (.writable res writeAdd)).2) := by
    rw [← hok]
  have hwritten := Session.written_of_callback h hpossible hthen
  simp only [act]
  generalize (session.callback (.writable res writeAdd)).2 = t at hwritten
  cases hwritten with
  | closed => exact stage_close h.alive hclsock hlog
  | gaveUp r => exact stage_giveUp r h.alive hclsock hlog
  | @more fw hfw hfile =>
      rw [List.drop_length]
      have hcalls : calls ++ session.file.toList.map Call.used ++ closes [] =
          calls ++ session.file.toList.map Call.used := List.append_nil _
      rw [hcalls]
      exact .sending ⟨h.alive.withWriter _, h.reader, fw, rfl, hfw⟩ hclsock
        (by rwa [hfile]) (by rwa [hfile])

/-- Whatever happens next, the session is in one of these stages again. -/
theorem stage_step
    {s t : Watched ω} {i : Input} (hs : Stage os data w sock s)
    (h : (system os data).step s i t) :
    Stage os data w sock t := by
  obtain ⟨⟨hpossible, hfd⟩, hcallback⟩ := h
  have hpossible := hpossible (.error .stdInvalidArgument)
  cases i with
  | readable res readAdd writeAdd =>
      obtain ⟨session, rfl, h, rfl⟩ := hs.reading hpossible.1
      exact stage_readable h rfl hfd hcallback
  | readTimeout =>
      obtain ⟨session, rfl, h, hclsock⟩ := hs.reading hpossible
      obtain rfl := (Prod.mk.inj hcallback).2
      exact stage_giveUp .timedOut h.alive hclsock (log_of_reading h)
  | writable res writeAdd =>
      obtain ⟨fw, hwriter, -⟩ := id hpossible
      obtain ⟨h, hclsock, hfile, hlog⟩ := hs.writing hwriter
      exact stage_writable h hclsock hfile hlog hpossible hcallback
  | writeTimeout =>
      obtain ⟨fw, hwriter, -⟩ := id hpossible
      obtain ⟨h, hclsock, hfile, hlog⟩ := hs.writing hwriter
      have hgiveUp := Session.callback_writeTimeout hwriter
      have hact : s.act (fun session => (session.callback .writeTimeout).2) =
          s.act (Session.giveUp .timedOut) := by
        simp only [act, hgiveUp]
      obtain rfl := (Prod.mk.inj hcallback).2
      rw [hact]
      exact stage_giveUp .timedOut h.alive hclsock hlog

theorem stage_of_run
    {session : Session} {add : AddResult} {is : List Input} {s : Watched ω}
    (hnew : Session.newSession sock add = .ok session)
    (hrun : Run (system os data) ⟨session, w, []⟩ is s) :
    Stage os data w sock s := by
  have hclsock : session.clsock = sock := by
    cases add <;> obtain rfl := Except.ok.inj hnew <;> rfl
  exact hrun.invariant (fun _ _ _ => stage_step)
    (.waiting (Session.newSession_reading hnew) hclsock)

end Stages

/-- Once closed, the descriptor is not used. -/
def QuietAfterClose (fd : Nat) (calls : List Call) : Prop :=
  ∀ before after, calls = before ++ .closed fd :: after → .used fd ∉ after

/-- The file was opened, and `fstat` told its size. -/
def SizeKnown (os : Os ω) (data : RequestData) (w : ω) (fd : Nat) : Prop :=
  ∃ n, (os.fstat fd (os.openFile (cStr data.fsysPath) w).2).1 = .ok n

section Plain

variable (os : Os ω) (data : RequestData)

/-- `send_file` throws nothing but exceptions. -/
theorem exists_mapError (w : ω) (calls : List Call) :
    ∃ res : Except Exn Body,
      (Prog.exec (NodeFSys.sendFile os.watched data) (w, calls)).1 = res.mapError Fail.exn := by
  have hsends := sends_sendFile os data w calls
  generalize Prog.exec (NodeFSys.sendFile os.watched data) (w, calls) = answer at hsends ⊢
  cases hsends with
  | refused => exact ⟨.error _, rfl⟩
  | lost => exact ⟨.error _, rfl⟩
  | sent => exact ⟨.ok _, rfl⟩

variable {os data}

/-- Without what it writes down, a step is one of the session. -/
theorem session_step
    {s t : Watched ω} {i : Input} (h : (system os data).step s i t) :
    ∃ res, Session.system.step s.session (i.plain res) t.session := by
  obtain ⟨⟨hpossible, -⟩, hcallback⟩ := h
  obtain ⟨res, hres⟩ := exists_mapError os data s.world s.calls
  refine ⟨res, hpossible res, ?_⟩
  cases i with
  | readable chunk readAdd writeAdd =>
      have hline : ∀ line,
          (Session.readParams (fun _ => res.mapError Fail.exn) writeAdd).gotLine line s.session =
            (((readParams os data writeAdd).gotLine line s).1,
              ((readParams os data writeAdd).gotLine line s).2.session) := by
        intro line
        rw [← hres]
        rfl
      have hmap := Reader.cbRead_map Watched.session s hline rfl (fun _ _ => rfl) readAdd chunk
        { s.session.reader with evRead := s.session.reader.evRead.fired }
      simp only [callback] at hcallback
      obtain ⟨hok, rfl⟩ := Prod.mk.inj hcallback
      simp only [Input.plain, Session.callback, hmap]
      exact Prod.ext hok rfl
  | readTimeout =>
      obtain ⟨hok, rfl⟩ := Prod.mk.inj hcallback
      exact Prod.ext hok rfl
  | writable sent writeAdd =>
      obtain ⟨hok, rfl⟩ := Prod.mk.inj hcallback
      exact Prod.ext hok rfl
  | writeTimeout =>
      obtain ⟨hok, rfl⟩ := Prod.mk.inj hcallback
      exact Prod.ext hok rfl

/-- The session goes through its own runs, however closely it is watched. -/
theorem session_of_run
    {s t : Watched ω} {is : List Input} (hrun : Run (system os data) s is t) :
    ∃ plain, Run Session.system s.session plain t.session := by
  induction hrun with
  | nil s => exact ⟨[], .nil _⟩
  | cons hfirst _ ih =>
      obtain ⟨res, hstep⟩ := session_step hfirst
      obtain ⟨plain, hrest⟩ := ih
      exact ⟨_ :: plain, .cons hstep hrest⟩

end Plain

section Logs

variable {os : Os ω} {data : RequestData} {w : ω} {sock : Nat}
  {calls : List Call} {file : Option Nat}

/-- Nothing is closed during an answer. -/
theorem Log.closed_not_mem (hlog : Log os data w sock calls file) (fd : Nat) :
    Call.closed fd ∉ calls := by
  cases hlog with
  | empty => simp
  | lost => simp
  | owned => simp

/-- A log that is closed at its end only. -/
theorem quiet_append
    {uses ends : List Call} {fd : Nat} (huses : .closed fd ∉ uses) (hends : .used fd ∉ ends) :
    QuietAfterClose fd (uses ++ ends) := by
  intro before after heq hafter
  rcases List.append_eq_append_iff.mp heq with ⟨u, -, hu⟩ | ⟨u, rfl, hu⟩
  · exact hends (by rw [hu]; simp [hafter])
  · cases u with
    | nil => exact hends (by rw [List.nil_append] at hu; rw [← hu]; simp [hafter])
    | cons c u =>
        obtain rfl : Call.closed fd = c := (List.cons.inj hu).1
        exact huses (by simp)

theorem Stage.quiet {s : Watched ω} (hs : Stage os data w sock s) (fd : Nat) :
    QuietAfterClose fd s.calls := by
  cases hs with
  | waiting => exact @quiet_append [] [] fd (by simp) (by simp)
  | @sending session w' calls h hclsock hfile hlog =>
      have hquiet := quiet_append (hlog.closed_not_mem fd) (List.not_mem_nil (a := Call.used fd))
      rwa [List.append_nil] at hquiet
  | dropped h hgone hlog =>
      exact quiet_append (hlog.closed_not_mem fd) (by simp [lastCalls])

/-- A log speaks of the file that is owned, if there is one. -/
theorem Log.eq_of_opened
    {fd fd' : Nat} (hlog : Log os data w sock calls (some fd)) (hopened : .opened fd' ∈ calls) :
    fd = fd' := by
  cases hlog with
  | owned => exact (by simpa using hopened : fd' = fd).symm

/-- At its end the session closes the file that it owns, which has a known size. -/
theorem Log.count_closed_iff
    (hlog : Log os data w sock calls file) {fd : Nat} (hopened : .opened fd ∈ calls) :
    (calls ++ lastCalls sock file).count (.closed fd) = 1 ↔
      SizeKnown os data w fd := by
  have hzero : calls.count (Call.closed fd) = 0 := List.count_eq_zero.mpr (hlog.closed_not_mem fd)
  rw [List.count_append, hzero]
  cases hlog with
  | empty => simp at hopened
  | @lost fd' e w' hopen hfstat hfd =>
      obtain rfl : fd = fd' := by simpa using hopened
      simp [SizeKnown, lastCalls, hopen, hfstat, hfd.symm]
  | @owned fd' n w' k hopen hfstat hfd =>
      obtain rfl : fd = fd' := by simpa using hopened
      simp [SizeKnown, lastCalls, hopen, hfstat, hfd.symm]

end Logs

section Runs

/-- A system whose only file is opened as 9, and what `fstat` says of it. -/
def oneFile (size : Except Errno Nat) : FileSys where
  stat _ := .ok S_IFREG
  magicFile _ := none
  opendir _ := .error 20
  openFile _ := .ok 9
  fstat _ := size
  fopen _ := .error 2

/-- The analysed request for the file. -/
def fileRequest : RequestData :=
  ⟨.plain, lit "/srv/f", lit "1/f", lit "f"⟩

/-- The client of socket 7 was accepted. -/
def arrived : Watched Unit :=
  ⟨Session.accepted .pending, (), []⟩

/-- The line of the request is received, and `event_add` works. -/
def lineReceived : Input :=
  .readable (.ok (lit "1/f\n")) none none

/-- After the line. -/
def afterLine (size : Except Errno Nat) : Watched Unit :=
  (arrived.callback (oneFile size).os fileRequest lineReceived).2

set_option maxRecDepth 4000 in
theorem step_lineReceived (size : Except Errno Nat) :
    (system (oneFile size).os fileRequest).step arrived lineReceived (afterLine size) := by
  refine ⟨⟨fun res => ⟨rfl, ?_⟩, ?_⟩, ?_⟩
  · intro data hdata
    obtain rfl : lit "1/f\n" = data := Except.ok.inj hdata
    simp [Reader.room, arrived, Session.accepted, lit]
  · rintro fd ⟨rfl⟩
    decide
  · cases size <;> rfl

/-- The client does not take the file. -/
def afterTimeout : Watched Unit :=
  ((afterLine (.ok 3)).callback (oneFile (.ok 3)).os fileRequest .writeTimeout).2

set_option maxRecDepth 4000 in
theorem step_writeTimeout :
    (system (oneFile (.ok 3)).os fileRequest).step (afterLine (.ok 3)) .writeTimeout
      afterTimeout := by
  refine ⟨⟨fun res => ⟨_, rfl, rfl⟩, ?_⟩, rfl⟩
  rintro fd ⟨rfl⟩
  decide

end Runs

/-- A descriptor is not used after it was closed.  A file that was opened is that of the
session's writer, and open, or the session is gone: then the descriptor was closed
exactly once if and only if `fstat` told the size. -/
theorem file_closed_once_iff
    (os : Os ω) (data : RequestData)
    {sock : Nat} {add : AddResult} {session : Session}
    {w : ω} {is : List Input} {s : Watched ω}
    (hnew : Session.newSession sock add = .ok session)
    (hrun : Run (system os data) ⟨session, w, []⟩ is s) :
    (∀ fd, QuietAfterClose fd s.calls) ∧
      ∀ fd, .opened fd ∈ s.calls →
        s.session.file = some fd ∧ .closed fd ∉ s.calls ∨
          s.session.destroyed = true ∧
            (s.calls.count (.closed fd) = 1 ↔ SizeKnown os data w fd) := by
  have hstage := stage_of_run hnew hrun
  refine ⟨hstage.quiet, ?_⟩
  intro fd hopened
  cases hstage with
  | waiting => simp at hopened
  | @sending session w' calls h hclsock hfile hlog =>
      obtain ⟨fd', hfd'⟩ := Option.isSome_iff_exists.mp hfile
      have hclosed := hlog.closed_not_mem fd
      rw [hfd'] at hlog
      obtain rfl := hlog.eq_of_opened hopened
      exact Or.inl ⟨hfd', hclosed⟩
  | @dropped session w' calls file h hgone hlog =>
      have hopened : .opened fd ∈ calls := by
        simpa [lastCalls] using hopened
      exact Or.inr ⟨hgone, hlog.count_closed_iff hopened⟩

/-- A file of three bytes that a client does not take. -/
theorem file_closed_once_timeout :
    (∀ fd, QuietAfterClose fd afterTimeout.calls) ∧
      ∀ fd, .opened fd ∈ afterTimeout.calls →
        afterTimeout.session.file = some fd ∧ .closed fd ∉ afterTimeout.calls ∨
          afterTimeout.session.destroyed = true ∧
            (afterTimeout.calls.count (.closed fd) = 1 ↔
              SizeKnown (oneFile (.ok 3)).os fileRequest () fd) := by
  have hnew : Session.newSession 7 none = .ok (Session.accepted .pending) := rfl
  exact file_closed_once_iff (oneFile (.ok 3)).os fileRequest hnew
    (.cons (step_lineReceived (.ok 3)) (.cons step_writeTimeout (.nil _)))

set_option maxRecDepth 4000 in
/-- A file whose size cannot be found out stays open when its session is gone. -/
theorem unsized_file_never_closed :
    ∃ is s, Run (system (oneFile (.error 5)).os fileRequest) arrived is s ∧
      s.session.destroyed = true ∧ .opened 9 ∈ s.calls ∧ .closed 9 ∉ s.calls := by
  have hcalls : (afterLine (.error 5)).calls = [.opened 9, .used 9, .closed 7] := rfl
  refine ⟨_, _, .cons (step_lineReceived (.error 5)) (.nil _), rfl, ?_, ?_⟩
  · rw [hcalls]
    decide
  · rw [hcalls]
    decide

end Watched

end Goofy
