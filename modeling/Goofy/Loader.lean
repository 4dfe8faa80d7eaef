import Goofy.Gopher.Map

/-!
# The loader

The `Loader` of `map_parser.h` and `map_parser.cc`.  It reads the root gophermap
once and registers what its local links name: a gophermap node for a regular
file, a file system node for a directory, nothing for a missing file.
-/

namespace Goofy

open Effect Util Gopher MapParser

namespace Loader

variable {ω : Type}

/-- A call into the system, made while a map is being loaded. -/
def outside {α : Type} (x : Prog ω α) : Prog (Map × ω) α :=
  Prog.zoom Prod.snd (fun w s => (s.1, w)) x

/-- The map as it is now. -/
def currentMap : Prog (Map × ω) Map :=
  Prog.prim (fun s => (.ok s.1, s))

/-- `paths_map.define`. -/
def define (path : Bytes) (defineAs : Option Bytes) : Prog (Map × ω) Bool :=
  Prog.prim (fun s =>
    match s.1.pathsMap.define path defineAs with
    | (fresh, pathsMap) => (.ok fresh, ({ s.1 with pathsMap := pathsMap }, s.2)))

/-- `lookup_map.insert`. -/
def insert (item : AnyNode) : Prog (Map × ω) Unit :=
  Prog.prim (fun s =>
    match s.1.lookupMap.insert item with
    | .error e => (.error (.exn e), s)
    | .ok lookupMap => (.ok (), ({ s.1 with lookupMap := lookupMap }, s.2)))

/-- `lookup_map.mknode<NodeGopherMap>`. -/
def mknodeGopherMap (path : Bytes) : Prog (Map × ω) Unit := do
  let m ← currentMap
  let node ← Prog.lift (NodeGopherMap.create m.lookupMap.settings m.pathsMap path)
  insert (.gopherMap node)

/-- `lookup_map.mknode<NodeFSys>`. -/
def mknodeFSys (os : Os ω) (path displayName selector : Bytes) :
    Prog (Map × ω) Unit := do
  let m ← currentMap
  let node ← outside (NodeFSys.create os m.lookupMap.settings path displayName selector)
  insert (.fsys node)

def addGopherfile (localnode : LocalNode) : Prog (Map × ω) Unit := do
  let fresh ← define localnode.selector.str none
  if fresh then mknodeGopherMap localnode.selector.str else pure ()

def addFilesystem (os : Os ω) (localnode : LocalNode) : Prog (Map × ω) Unit := do
  let fresh ← define localnode.selector.str none
  if fresh then do
    let m ← currentMap
    let virtualPath ← Prog.lift (m.pathsMap.virtualPathOf localnode.selector.str)
    mknodeFSys os localnode.selector.str localnode.displayName.str virtualPath
  else pure ()

/-- What `got_local_node` does with a link to something that exists. -/
def addByMode (os : Os ω) (info : LocalNode) (mode : Nat) : Prog (Map × ω) Unit :=
  if fileType mode = S_IFREG then addGopherfile info
  else if fileType mode = S_IFDIR then addFilesystem os info
  else throw (.exn (.configError (info.selector.str ++
    lit ": Unsupported file type. stat.st_mode : " ++ toDecimal mode)))

/-- The handler of `got_local_node`: missing files are ignored. -/
def ignoreMissing (f : Fail) : Prog (Map × ω) Unit :=
  match f with
  | .exn (.ioError _ e) => if e ≠ ENOENT then throw f else pure ()
  | f => throw f

def gotLocalNode (os : Os ω) (info : LocalNode) : Prog (Map × ω) Unit :=
  tryCatch
    (do
      let mode ← outside (modeOf os info.selector.str)
      addByMode os info mode)
    ignoreMissing

def parser (os : Os ω) (settings : Settings) : Parser (Map × ω) where
  settings := settings
  onLocalNode := some (gotLocalNode os)

/-- The constructor of `Loader`, which does all the work. -/
def load (os : Os ω) (settings : Settings) : Prog (Map × ω) Unit := do
  let fileReader ← outside (Util.Reader.feed os settings.content.rootGophermap)
  let _ ← define settings.content.rootGophermap (some [])
  mknodeGopherMap settings.content.rootGophermap
  fileReader.forEachLine (parser os settings).parseLine

end Loader

end Goofy
