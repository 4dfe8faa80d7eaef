import Goofy.Lib.Transition
import Goofy.Gopher.Map
import Goofy.Gopher.ProtoReader

/-!
# Sessions

`session.h` and `session.cc`.  A session owns a socket, a reader and, once a line
has arrived, a writer.  It acts only in the callbacks of its two events, so it
is a transition system whose steps are those callbacks (`Session.system`).

An event is pending from its `event_add` on; the loop stops waiting for it
before it runs the callback.  `close` asks the server to drop the session: this
destroys the session while the callback of one of its events is still running.
-/

namespace Goofy

open Effect Gopher

/-- What a session writes to the standard error. -/
inductive Report where
  | eof
  | timedOut
  | error (e : Exn)
deriving DecidableEq

/-- What a session does to the outside world. -/
inductive Action where
  | report (r : Report)
  | shutdown (sock : Nat)
  | drop (id : Nat)
  | close (fd : Nat)
deriving DecidableEq

/-- A session, its `drop_callback` bound to an identifier of the server's, and
what it has done so far. -/
structure Session where
  clsock : Nat
  dropId : Nat
  reader : Reader
  writer : Option Writer
  destroyed : Bool
  actions : List Action

/-- The menu of a `catch` clause: an error and the text of the exception. -/
def errorMenu (title : Bytes) (e : Exn) : MenuWriter :=
  (({} : MenuWriter).error title 0).text e.what 0

/-- The `try` block of `got_line`: two kinds of user errors become menus. -/
def answerOf : Except Fail Body → Except Fail Body
  | .error (.exn (.lookupFailure sel)) =>
      .ok (.menu (errorMenu (lit "Lookup failure") (.lookupFailure sel)))
  | .error (.exn (.nodeFailure sel reason)) =>
      .ok (.menu (errorMenu (lit "Node failure") (.nodeFailure sel reason)))
  | res => res

/-- Look a request up and ask its node for a writer. -/
def Gopher.Map.serve {ω : Type} (os : Os ω) (m : Map) (request : Request) : Prog ω Body := do
  let node ← liftExn (m.lookupMap.lookup request)
  node.makeWriter os m.pathsMap request

namespace Session

/-- The destructor: the socket is closed, the writer and the reader go with their
events and with the file of the writer. -/
def destroy (s : Session) : Session :=
  { s with
    reader := s.reader.finish
    writer := none
    destroyed := true
    actions := s.actions ++ .close s.clsock ::
      match s.writer with
      | some ⟨_, .file f⟩ => [.close f.fdesc]
      | _ => [] }

/-- `Session::close`: the drop callback makes the server destroy the session. -/
def close (s : Session) : Session :=
  destroy { s with actions := s.actions ++ [.shutdown s.clsock, .drop s.dropId] }

/-- Write to the standard error, then close. -/
def giveUp (r : Report) (s : Session) : Session :=
  close { s with actions := s.actions ++ [.report r] }

def gotEof (s : Session) : Session :=
  giveUp .eof s

def gotTimeout (s : Session) : Session :=
  giveUp .timedOut s

def gotError (e : Exn) (s : Session) : Session :=
  giveUp (.error e) s

/-- `got_line`; `serve` is lookup and `make_writer`, `add` what `event_add` returns. -/
def gotLine (serve : Request → Except Fail Body) (add : AddResult)
    (line : Bytes) (s : Session) : Except Fail Bool × Session :=
  match answerOf (serve ⟨line⟩) with
  | .error f => (.error f, s)
  | .ok body =>
      match (Writer.create body).writeTo add with
      | (.error f, w) => (.error f, { s with writer := some w })
      | (.ok (), w) => (.ok false, { s with writer := some w })

def readParams (serve : Request → Except Fail Body) (add : AddResult) : ReadParams Session where
  gotLine := gotLine serve add
  gotEof := gotEof
  gotTimeout := gotTimeout
  gotError := gotError

def writeParams : WriteParams Session where
  gotSuccess := close
  gotError := gotError
  gotTimeout := gotTimeout

/-- The constructor.  The reader of a new session is not busy. -/
def create (clsock dropId : Nat) (add : AddResult) : Except Fail Session :=
  ((Reader.create 256).readFrom add).map
    (fun reader => ⟨clsock, dropId, reader, none, false, []⟩)

/-- What the world answers to one callback: the result of `read`, `write` or
`sendfile`, that of lookup and `make_writer`, and those of `event_add`. -/
inductive Input where
  | readable (res : Except Errno Bytes) (serve : Request → Except Exn Body)
      (readAdd writeAdd : AddResult)
  | readTimeout
  | writable (res : Except Errno Nat) (writeAdd : AddResult)
  | writeTimeout

/-- The events that the loop waits for, and what the kernel may answer. -/
def Possible (s : Session) : Input → Prop
  | .readable res _ _ _ =>
      s.reader.evRead = .pending ∧ ∀ data, res = .ok data → data.length ≤ s.reader.room
  | .readTimeout => s.reader.evRead = .pending
  | .writable res _ =>
      ∃ w, s.writer = some w ∧ w.evWrite = .pending ∧
        ∀ sent, res = .ok sent → sent ≤ w.asked
  | .writeTimeout => ∃ w, s.writer = some w ∧ w.evWrite = .pending

/-- A reader that ran a callback stays in its session, unless that is gone. -/
def putReader (out : Except Fail Unit × Reader × Session) : Except Fail Unit × Session :=
  (out.1, if out.2.2.destroyed then out.2.2 else { out.2.2 with reader := out.2.1 })

/-- A writer that ran a callback stays in its session, unless that is gone. -/
def putWriter (out : Except Fail Unit × Writer × Session) : Except Fail Unit × Session :=
  (out.1, if out.2.2.destroyed then out.2.2 else { out.2.2 with writer := some out.2.1 })

/-- The callback of an event, which the loop no longer waits for. -/
def callback (s : Session) : Input → Except Fail Unit × Session
  | .readable res serve readAdd writeAdd =>
      putReader (Reader.cbRead
        (readParams (fun r => (serve r).mapError Fail.exn) writeAdd) readAdd res
        { s.reader with evRead := s.reader.evRead.fired } s)
  | .readTimeout =>
      putReader (Reader.cbReadTimeout
        (readParams (fun _ => .error .undefined) none)
        { s.reader with evRead := s.reader.evRead.fired } s)
  | .writable res writeAdd =>
      match s.writer with
      | none => (.error .undefined, s)
      | some w => putWriter (Writer.cbWrite writeParams writeAdd res
          { w with evWrite := w.evWrite.fired } s)
  | .writeTimeout =>
      match s.writer with
      | none => (.error .undefined, s)
      | some w => putWriter (Writer.cbWriteTimeout writeParams
          { w with evWrite := w.evWrite.fired } s)

/-- `Server::new_session`: the drop callback gets the socket itself. -/
def newSession (clsock : Nat) (add : AddResult) : Except Fail Session :=
  create clsock clsock add

/-- A session as the event loop runs it. -/
def system : Transition.System Session Input where
  init s := ∃ clsock add, newSession clsock add = .ok s
  step s i t := s.Possible i ∧ s.callback i = (.ok (), t)

/-- The identifiers that were passed to the drop callback. -/
def drops (s : Session) : List Nat :=
  s.actions.filterMap (fun a =>
    match a with
    | .drop id => some id
    | _ => none)

/-- The reader's event is pending. -/
def readPending (s : Session) : Prop :=
  s.reader.evRead = .pending

/-- The writer's event is pending. -/
def writePending (s : Session) : Prop :=
  ∃ w, s.writer = some w ∧ w.evWrite = .pending

end Session

end Goofy
