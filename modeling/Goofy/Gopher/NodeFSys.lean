import Goofy.Gopher.Node
import Goofy.Gopher.ProtoWriter
import Goofy.Gopher.Request
import Goofy.Settings

/-!
# File system nodes

`gopher/node-fsys.h` and `gopher/node-fsys.cc`.  A `NodeFSys` serves a directory
tree: `analyzeRequest` turns a request into a path below the root and into the
selector of that path, `listDir` answers with a menu, `sendFile` with a file.
-/

namespace Goofy
namespace Gopher

open Effect

/-- A node that serves the directory tree below `rootPath`. -/
structure NodeFSys extends Node where
  rootPath : Bytes
  rootPath_slash : rootPath.getLast? = some SLASH

/-- What `analyze_request` finds out about a request. -/
structure RequestData where
  nodeType : NodeType
  fsysPath : Bytes
  selectorPath : Bytes
  requestedPath : Bytes
deriving DecidableEq

namespace NodeFSys

/-- The root path: the given path, closed by a slash.  `back` of an empty string
is undefined. -/
def rootOf (path : Bytes) :
    Except Fail {root : Bytes // root.getLast? = some SLASH} :=
  if path = [] then .error .undefined
  else if h : path.getLast? = some SLASH then .ok ⟨path, h⟩
  else .ok ⟨path ++ [SLASH], List.getLast?_concat⟩

variable {ω : Type}

def create (os : Os ω) (settings : Settings)
    (path displayName selector : Bytes) : Prog ω NodeFSys := do
  let node ← liftExn (Node.create .menu displayName selector
    settings.self.hostname settings.self.port)
  let root ← Prog.lift (rootOf path)
  let mode ← modeOf os path
  if fileType mode ≠ S_IFDIR then
    throw (.exn (.ioError (path ++ lit ": invalid root node") ENOTDIR))
  else pure ⟨node, root.1, root.2⟩

/-- The file path and the selector that `analyze_request` builds for a path
below the root. -/
def requestPaths (n : NodeFSys) (reqpath : Bytes) : Bytes × Bytes :=
  if reqpath.length > 0 then
    (n.rootPath ++ reqpath, n.info.selector ++ [SLASH] ++ reqpath)
  else (n.rootPath, n.info.selector)

theorem requestPaths_fst (n : NodeFSys) (reqpath : Bytes) :
    (n.requestPaths reqpath).1 = n.rootPath ++ reqpath := by
  cases reqpath <;> simp [requestPaths]

/-- The handler of `analyze_request`: missing files are lookup failures. -/
def missing (selectorPath : Bytes) (f : Fail) : Fail :=
  match f with
  | .exn (.ioError _ e) =>
      if e = ENOENT ∨ e = ENAMETOOLONG ∨ e = ENOTDIR then
        .exn (.lookupFailure selectorPath)
      else f
  | f => f

def analyzeRequest (os : Os ω) (n : NodeFSys) (request : Request) :
    Prog ω RequestData := do
  let reqpath ← Prog.lift request.asPath
  let paths := n.requestPaths reqpath
  let type ← tryCatch (GopherTypeGuesser.typeOf os paths.1)
    (fun f => throw (missing paths.2 f))
  if type = .menu then
    pure ⟨type, paths.1 ++ [SLASH], paths.2 ++ [SLASH], reqpath⟩
  else pure ⟨type, paths.1, paths.2, reqpath⟩

/-- `hidden`: dot files, `.` and `..`. -/
def hidden (name : Bytes) : Bool :=
  name.head? == some DOT

/-- `next_entry`: the next entry that is not hidden, and what follows it. -/
def nextEntry (failure : Option Errno) :
    List DirEntry → Except Exn (Option (DirEntry × List DirEntry))
  | [] =>
      match failure with
      | none => .ok none
      | some e => .error (.ioError (lit "readdir") e)
  | ent :: entries =>
      if hidden ent.name then nextEntry failure entries
      else .ok (some (ent, entries))

/-- The path of an entry in a listed directory. -/
def entryPath (data : RequestData) (ent : DirEntry) : Bytes :=
  data.fsysPath ++ ent.name

/-- How an entry of a listed directory is described. -/
def entryInfo (n : NodeFSys) (data : RequestData) (type : NodeType)
    (ent : DirEntry) : NodeInfo :=
  ⟨type.code, ent.name, data.selectorPath ++ ent.name, n.info.host, n.info.port⟩

/-- One round of the loop of `list_dir`. -/
def listEntry (os : Os ω) (n : NodeFSys) (data : RequestData)
    (writer : MenuWriter) (ent : DirEntry) : Prog ω MenuWriter :=
  tryCatch
    (do
      let type ← GopherTypeGuesser.typeOf os (entryPath data ent)
      pure (writer.node (n.entryInfo data type ent)))
    (fun f =>
      match f with
      | .exn (.ioError _ _) => pure (writer.error (lit "...") 0)
      | f => throw f)

/-- The loop of `list_dir` over the entries of an open directory. -/
def listEntries (os : Os ω) (n : NodeFSys) (data : RequestData)
    (failure : Option Errno) :
    Nat → MenuWriter → List DirEntry → Prog ω MenuWriter
  | 0, _, _ => throw .hang
  | fuel + 1, writer, entries =>
      match nextEntry failure entries with
      | .error e => throw (.exn e)
      | .ok none => pure writer
      | .ok (some (ent, rest)) => do
          let writer' ← listEntry os n data writer ent
          listEntries os n data failure fuel writer' rest

/-- The error of a directory that cannot be opened. -/
def opendirError (selectorPath : Bytes) (e : Errno) : Exn :=
  if e = ENOENT then .lookupFailure selectorPath else .ioError (lit "opendir") e

def listDir (os : Os ω) (n : NodeFSys) (data : RequestData) : Prog ω Body := do
  let dir ← sysCallWith (opendirError data.selectorPath)
    (os.opendir (cStr data.fsysPath))
  let writer ← listEntries os n data dir.failure (dir.entries.length + 1) {} dir.entries
  pure (.menu writer)

def sendFile (os : Os ω) (data : RequestData) : Prog ω Body := do
  let fd ← sysCall (lit "open") (os.openFile (cStr data.fsysPath))
  let writer ← FileWriter.create os fd
  pure (.file writer)

/-- The answer to a request whose path has been analysed. -/
def answer (os : Os ω) (n : NodeFSys) (data : RequestData) : Prog ω Body :=
  match data.nodeType with
  | .menu => listDir os n data
  | .plain => sendFile os data
  | .binary => sendFile os data
  | .gif => sendFile os data
  | .image => sendFile os data
  | _ => throw (.exn (.nodeFailure data.selectorPath (lit "not supported")))

def makeWriter (os : Os ω) (n : NodeFSys) (request : Request) : Prog ω Body := do
  let data ← analyzeRequest os n request
  answer os n data

/-- A request for a missing file ends at the first call, as a lookup failure of
its selector path. -/
theorem exec_makeWriter_missing
    {os : Os ω} {n : NodeFSys} {r : Request} {p : Bytes} {w w' : ω}
    (hp : r.asPath = .ok p)
    (hstat : os.stat (cStr (n.requestPaths p).1) w = (.error ENOENT, w')) :
    Prog.exec (n.makeWriter os r) w =
      (.error (.exn (.lookupFailure (n.requestPaths p).2)), w') := by
  have htype : Prog.exec (GopherTypeGuesser.typeOf os (n.requestPaths p).1) w =
      (.error (.exn (.ioError (lit "stat") ENOENT)), w') :=
    Prog.exec_bind_error (exec_sysCallWith_error _ hstat)
  have hanalyze : Prog.exec (n.analyzeRequest os r) w =
      (.error (.exn (.lookupFailure (n.requestPaths p).2)), w') := by
    rw [analyzeRequest, hp, Prog.exec_bind_ok (Prog.exec_lift (.ok p) w)]
    rw [Prog.exec_bind, Prog.exec_tryCatch, htype]
    rfl
  rw [makeWriter, Prog.exec_bind_error hanalyze]

end NodeFSys

/-- A name that is not hidden is neither `.` nor `..`. -/
theorem isDots_of_not_hidden {name : Bytes}
    (h : NodeFSys.hidden name = false) : isDots name = false := by
  rw [Bool.eq_false_iff] at h ⊢
  intro hdots
  apply h
  rw [isDots, Bool.or_eq_true, beq_iff_eq, beq_iff_eq] at hdots
  rcases hdots with rfl | rfl
  · decide
  · decide

/-- The node of `/srv`, registered under the virtual path `1`. -/
def srvNode : NodeFSys where
  info := ⟨NodeType.menu.code, lit "srv", lit "1", lit "localhost", 70⟩
  tab_not_mem := by decide
  rootPath := lit "/srv/"
  rootPath_slash := by decide

end Gopher
end Goofy
