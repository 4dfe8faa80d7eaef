import Goofy.Base

/-!
# The operating system, as the program calls it

Everything the program asks of the system and of libmagic goes through an `Os`:
a record of calls over a world `ω`, which a call may change.  An arbitrary `Os`
is a file system that changes between any two calls.  `FileSys` is a file
system that stays as it is, and `Os.traced` writes down every path that a call
receives.

Paths reach a call as C strings, so each wrapper below passes `cStr path`.
-/

namespace Goofy

open Effect

/-- The name of a directory entry: Unix file systems store no other names. -/
structure DirEntry where
  name : Bytes
  ne_nil : name ≠ []
  slash_not_mem : SLASH ∉ name
  nul_not_mem : NUL ∉ name

/-- What successive `readdir` calls give: entries, then an error or the end. -/
structure DirStream where
  entries : List DirEntry
  failure : Option Errno

/-- What can be read from an open file: bytes, then an error or the end. -/
structure FileStream where
  data : Bytes
  failure : Option Errno

/-- The calls into the system and into libmagic. -/
structure Os (ω : Type) where
  stat : Bytes → ω → Except Errno Nat × ω
  magicFile : Bytes → ω → Option Bytes × ω
  opendir : Bytes → ω → Except Errno DirStream × ω
  openFile : Bytes → ω → Except Errno Nat × ω
  fstat : Nat → ω → Except Errno Nat × ω
  fopen : Bytes → ω → Except Errno FileStream × ω

/-- A file system that does not change: every answer depends on the path only. -/
structure FileSys where
  stat : Bytes → Except Errno Nat
  magicFile : Bytes → Option Bytes
  opendir : Bytes → Except Errno DirStream
  openFile : Bytes → Except Errno Nat
  fstat : Nat → Except Errno Nat
  fopen : Bytes → Except Errno FileStream

/-- An unchanging file system, seen through the calls. -/
def FileSys.os (fs : FileSys) : Os Unit where
  stat path w := (fs.stat path, w)
  magicFile path w := (fs.magicFile path, w)
  opendir path w := (fs.opendir path, w)
  openFile path w := (fs.openFile path, w)
  fstat fd w := (fs.fstat fd, w)
  fopen path w := (fs.fopen path, w)

/-- Write down a path next to the world that the call leaves. -/
def record {ω β : Type} (path : Bytes) (call : ω → β × ω)
    (w : ω × List Bytes) : β × (ω × List Bytes) :=
  ((call w.1).1, (call w.1).2, w.2 ++ [path])

/-- The same system, with the paths that its calls received. -/
def Os.traced {ω : Type} (os : Os ω) : Os (ω × List Bytes) where
  stat path := record path (os.stat path)
  magicFile path := record path (os.magicFile path)
  opendir path := record path (os.opendir path)
  openFile path := record path (os.openFile path)
  fstat fd w := ((os.fstat fd w.1).1, (os.fstat fd w.1).2, w.2)
  fopen path := record path (os.fopen path)

section Calls

variable {ω α : Type}

/-- A system call whose failure is thrown as an exception made from the error number. -/
def sysCallWith (err : Errno → Exn) (call : ω → Except Errno α × ω) : Prog ω α :=
  Prog.prim (fun w =>
    match call w with
    | (.ok a, w') => (.ok a, w')
    | (.error e, w') => (.error (.exn (err e)), w'))

/-- A system call whose failure becomes an `IOError` with the error number. -/
def sysCall (operation : Bytes) (call : ω → Except Errno α × ω) : Prog ω α :=
  sysCallWith (.ioError operation) call

theorem exec_sysCallWith_ok
    (err : Errno → Exn) {call : ω → Except Errno α × ω}
    {w w' : ω} {a : α}
    (h : call w = (.ok a, w')) :
    Prog.exec (sysCallWith err call) w = (.ok a, w') := by
  simp [sysCallWith, h]

theorem exec_sysCallWith_error
    (err : Errno → Exn) {call : ω → Except Errno α × ω}
    {w w' : ω} {e : Errno}
    (h : call w = (.error e, w')) :
    Prog.exec (sysCallWith err call) w = (.error (.exn (err e)), w') := by
  simp [sysCallWith, h]

/-- A wrapped call returns what the system answered. -/
theorem exec_sysCallWith_eq_ok_iff
    (err : Errno → Exn) (call : ω → Except Errno α × ω)
    (w w' : ω) (a : α) :
    Prog.exec (sysCallWith err call) w = (.ok a, w') ↔ call w = (.ok a, w') := by
  rcases hcall : call w with ⟨res, w₁⟩
  cases res with
  | ok b =>
      rw [exec_sysCallWith_ok err hcall]
      simp
  | error e =>
      rw [exec_sysCallWith_error err hcall]
      simp

/-- A call ends in the state that the system leaves, whatever it answers. -/
theorem exec_sysCallWith_snd
    (err : Errno → Exn) (call : ω → Except Errno α × ω) (w : ω) :
    (Prog.exec (sysCallWith err call) w).2 = (call w).2 := by
  rcases h : call w with ⟨r, w'⟩
  cases r with
  | ok a => rw [exec_sysCallWith_ok err h]
  | error e => rw [exec_sysCallWith_error err h]

/-- A call throws nothing but the exceptions made from error numbers. -/
theorem exits_sysCallWith
    {E : Fail → Prop} {err : Errno → Exn} (h : ∀ e, E (.exn (err e)))
    (call : ω → Except Errno α × ω) :
    Exits (fun _ => True) E (sysCallWith err call) := by
  intro w _
  rcases hcall : call w with ⟨res, w'⟩
  cases res with
  | ok a =>
      rw [exec_sysCallWith_ok err hcall]
      simp
  | error e =>
      rw [exec_sysCallWith_error err hcall]
      simpa using h e

/-- A fallible computation without effects; its errors are exceptions. -/
def liftExn (x : Except Exn α) : Prog ω α :=
  Prog.lift (x.mapError Fail.exn)

/-- `mode_of`: the `st_mode` of the file, links resolved. -/
def modeOf (os : Os ω) (path : Bytes) : Prog ω Nat :=
  sysCall (lit "stat") (os.stat (cStr path))

end Calls

/-- A libevent event behind its owning pointer: the null pointer, an event the
loop does not wait for, or one it waits for. -/
inductive Event where
  | freed
  | idle
  | pending
deriving DecidableEq

/-- The loop stops waiting for an event before it runs the event's callback. -/
def Event.fired : Event → Event
  | freed => freed
  | idle => idle
  | pending => idle

/-- `event_add`: `some e` is the return value -1 with that error number. -/
abbrev AddResult : Type := Option Errno

/-- `S_IFMT` and the file types of `st_mode`. -/
abbrev S_IFMT : Nat := 0o170000
abbrev S_IFREG : Nat := 0o100000
abbrev S_IFDIR : Nat := 0o040000

/-- The file type bits of a mode. -/
def fileType (mode : Nat) : Nat :=
  mode &&& S_IFMT

end Goofy
