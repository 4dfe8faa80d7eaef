import Goofy.Site
import Goofy.Lib.Transition

/-!
# Registering a link while the file system changes

A local link is looked at with `stat`, its path is given a name, and then its node is
built; the node of a directory asks `stat` again.  Here the two answers may differ.  A
registration that is given up leaves no trace exactly when the path was not named before
(`leaves_no_trace_iff`): `Abandoned` says when that happens.
-/

namespace Goofy

open Effect Gopher MapParser Loader Transition

namespace Loader

variable {ω : Type}

/-- The body of the `try` of `got_local_node`. -/
def attempt (os : Os ω) (info : LocalNode) : Prog (Map × ω) Unit := do
  let mode ← outside (modeOf os info.selector.str)
  addByMode os info mode

theorem gotLocalNode_eq (os : Os ω) (info : LocalNode) :
    gotLocalNode os info = tryCatch (attempt os info) ignoreMissing := by
  rfl

/-- The part of a load before the first link: the root is read and registered. -/
def openRoot (os : Os ω) (settings : Settings) : Prog (Map × ω) Util.Reader := do
  let fileReader ← outside (Util.Reader.feed os settings.content.rootGophermap)
  let _ ← define settings.content.rootGophermap (some [])
  mknodeGopherMap settings.content.rootGophermap
  pure fileReader

theorem load_eq (os : Os ω) (settings : Settings) :
    load os settings =
      openRoot os settings >>= fun reader => reader.forEachLine (parser os settings).parseLine := by
  simp only [load, openRoot, bind_assoc, pure_bind]

/-- Links that a load follows: a step is a call of `got_local_node` that returns. -/
def links (os : Os ω) : System (Map × ω) LocalNode where
  init _ := True
  step s info t := Prog.exec (gotLocalNode os info) s = (.ok (), t)

/-- Both maps are as they were when `stat`, `add_filesystem` or `add_gopherfile` threw,
whether `got_local_node` swallows the exception or lets it through. -/
def LeavesNoTrace (os : Os ω) (info : LocalNode) (s : Map × ω) : Prop :=
  ∀ f t, Prog.exec (attempt os info) s = (.error f, t) →
    (Prog.exec (gotLocalNode os info) s).2.1 = s.1

/-- The first `stat` of a link. -/
def firstStat (os : Os ω) (info : LocalNode) (w : ω) : Except Errno Nat × ω :=
  os.stat (cStr info.selector.str) w

/-- The second `stat`, that of the constructor of a file system node. -/
def secondStat (os : Os ω) (info : LocalNode) (w : ω) : Except Errno Nat × ω :=
  os.stat (cStr info.selector.str) (firstStat os info w).2

/-- An answer of `stat` that says "directory". -/
def IsDirectory (answer : Except Errno Nat) : Prop :=
  ∃ mode, answer = .ok mode ∧ fileType mode = S_IFDIR

/-- A path that has no name yet is named as a directory, and then no node can be built:
it is no directory any more, or its texts are refused. -/
def Abandoned (os : Os ω) (info : LocalNode) (s : Map × ω) : Prop :=
  info.selector.str ∉ s.1.pathsMap.paths ∧
    IsDirectory (firstStat os info s.2).1 ∧
    ¬ (IsDirectory (secondStat os info s.2).1 ∧ TAB ∉ info.displayName.str ∧
      info.selector.str ≠ [])

/-- Every served path has a node under its virtual path. -/
def Complete (m : Map) : Prop :=
  ∀ p v, m.pathsMap.paths.lookup p = some v → v ∈ m.lookupMap.nodes

/-- What is known of a map after any links, also when some were given up: the paths are
named in order, and no node has a name that is still to come. -/
structure Consistent (settings : Settings) (m : Map) (paths : List Bytes) : Prop where
  settings : m.lookupMap.settings = settings
  names : Numbering.Names siteName paths m.pathsMap.paths
  nodes : ∀ i, siteName i ∈ m.lookupMap.nodes → i < paths.length
  root : paths ≠ []

/-- The map after `define`. -/
def named (m : Map) (p : Bytes) : Map :=
  { m with pathsMap := (m.pathsMap.define p none).2 }

/-- The map after `insert`. -/
def withNode (m : Map) (v : Bytes) (node : AnyNode) : Map :=
  { m with lookupMap := { m.lookupMap with nodes := m.lookupMap.nodes.insert v node } }

section Steps

variable {settings : Settings} {m : Map} {paths : List Bytes} {p : Bytes}

theorem tab_not_mem_siteName (i : ℕ) : TAB ∉ siteName i := by
  unfold siteName
  split_ifs
  · simp
  · exact Decimal.not_mem_encode rfl

/-- A path without a name gets the next one. -/
theorem Consistent.paths_named
    (h : Consistent settings m paths) (hp : p ∉ m.pathsMap.paths) :
    (named m p).pathsMap.paths = m.pathsMap.paths.insert p (siteName paths.length) := by
  have hsize : m.pathsMap.paths.entries.length = paths.length := h.names.size
  have hlen : paths.length ≠ 0 := by simpa using h.root
  simp only [named, VirtualPathsMap.define, if_neg hp, hsize, siteName, if_neg hlen]
  rfl

theorem Consistent.named
    (h : Consistent settings m paths) (hp : p ∉ m.pathsMap.paths) :
    Consistent settings (Loader.named m p) (paths ++ [p]) := by
  have hnames := h.names.insert hp
  rw [h.names.size, ← h.paths_named hp] at hnames
  refine ⟨h.settings, hnames, fun i hi => ?_, by simp⟩
  rw [List.length_append]
  exact Nat.lt_add_right _ (h.nodes i hi)

theorem exec_define_fresh {ω : Type} (hp : p ∉ m.pathsMap.paths) (w : ω) :
    Prog.exec (define p none) (m, w) = (.ok true, (named m p, w)) := by
  simp [define, VirtualPathsMap.define, hp, named]

theorem Consistent.virtualPathOf
    (h : Consistent settings m paths) (hp : p ∉ m.pathsMap.paths) :
    (Loader.named m p).pathsMap.virtualPathOf p = .ok (siteName paths.length) := by
  simp [VirtualPathsMap.virtualPathOf, h.paths_named hp]

/-- The next name has no node yet. -/
theorem Consistent.next_not_mem (h : Consistent settings m paths) :
    siteName paths.length ∉ m.lookupMap.nodes :=
  fun hmem => Nat.lt_irrefl _ (h.nodes _ hmem)

theorem exec_insert_fresh
    {ω : Type} {v : Bytes} {node : AnyNode} (hv : node.info.selector = v)
    (hfree : v ∉ m.lookupMap.nodes) (w : ω) :
    Prog.exec (insert node) (m, w) = (.ok (), (withNode m v node, w)) := by
  simp [insert, LookupMap.insert, hv, hfree, withNode]

/-- A named path with a node. -/
theorem Consistent.withNode
    (h : Consistent settings m paths) (hp : p ∉ m.pathsMap.paths) (node : AnyNode) :
    Consistent settings (Loader.withNode (Loader.named m p) (siteName paths.length) node)
      (paths ++ [p]) := by
  have hnamed := h.named hp
  refine ⟨hnamed.settings, hnamed.names, fun i hi => ?_, hnamed.root⟩
  rcases (AList.mem_insert (s := m.lookupMap.nodes)).mp hi with hi | hi
  · rw [siteName_injective hi, List.length_append]
    exact Nat.lt_add_one _
  · exact hnamed.nodes i hi

/-- It is as complete as the map before. -/
theorem Complete.withNode
    (hm : Complete m) (h : Consistent settings m paths) (hp : p ∉ m.pathsMap.paths)
    (node : AnyNode) :
    Complete (Loader.withNode (Loader.named m p) (siteName paths.length) node) := by
  intro q v hq
  have hlookup : (Loader.named m p).pathsMap.paths.lookup q = some v := hq
  rw [h.paths_named hp] at hlookup
  refine (AList.mem_insert (s := m.lookupMap.nodes)).mpr ?_
  by_cases heq : q = p
  · subst heq
    rw [AList.lookup_insert] at hlookup
    exact .inl (Option.some.inj hlookup).symm
  · rw [AList.lookup_insert_ne heq] at hlookup
    exact .inr (hm q v hlookup)

/-- A path that was named and left without a node. -/
theorem Consistent.not_complete_named
    (h : Consistent settings m paths) (hp : p ∉ m.pathsMap.paths) :
    ¬ Complete (Loader.named m p) := by
  intro hcomplete
  have hlookup : (Loader.named m p).pathsMap.paths.lookup p = some (siteName paths.length) := by
    rw [h.paths_named hp, AList.lookup_insert]
  exact h.next_not_mem (hcomplete p _ hlookup)

theorem named_ne (hp : p ∉ m.pathsMap.paths) (h : Consistent settings m paths) :
    Loader.named m p ≠ m := by
  intro heq
  apply hp
  rw [← heq, h.paths_named hp]
  exact (AList.mem_insert (s := m.pathsMap.paths)).mpr (.inl rfl)

end Steps

section Attempt

variable {settings : Settings} {m : Map} {paths : List Bytes} {os : Os ω}

theorem node_create_ok
    (type : NodeType) {displayName selector host : Bytes} (port : UInt16)
    (h : ∀ s ∈ [displayName, selector, host], TAB ∉ s) :
    ∃ node : Node, Node.create type displayName selector host port = .ok node ∧
      node.info.selector = selector := by
  refine ⟨_, dif_pos h, rfl⟩

theorem rootOf_ok {p : Bytes} (hp : p ≠ []) : ∃ root, NodeFSys.rootOf p = .ok root := by
  unfold NodeFSys.rootOf
  rw [if_neg hp]
  split_ifs
  · exact ⟨_, rfl⟩
  · exact ⟨_, rfl⟩

/-- The part of the constructor that asks for the mode. -/
theorem exec_create_of_node
    (os : Os ω) (p : Bytes) {displayName selector : Bytes} {node : Node} (w : ω)
    (hnode : Node.create .menu displayName selector settings.self.hostname
      settings.self.port = .ok node) :
    (p ≠ [] ∧ IsDirectory (os.stat (cStr p) w).1 ∧
        ∃ n : NodeFSys, Prog.exec (NodeFSys.create os settings p displayName selector) w =
          (.ok n, (os.stat (cStr p) w).2) ∧ n.info = node.info) ∨
      (¬ (p ≠ [] ∧ IsDirectory (os.stat (cStr p) w).1) ∧
        ∃ f w', Prog.exec (NodeFSys.create os settings p displayName selector) w =
          (.error f, w')) := by
  have hlift : (liftExn (.ok node) : Prog ω Node) = Prog.lift (.ok node) := rfl
  unfold NodeFSys.create
  rw [hnode, hlift, Prog.lift_ok_bind]
  by_cases hp : p = []
  · right
    refine ⟨fun h => h.1 hp, .undefined, w, ?_⟩
    simp [NodeFSys.rootOf, hp]
  · obtain ⟨root, hroot⟩ := rootOf_ok hp
    rw [hroot, Prog.lift_ok_bind]
    rcases hstat : os.stat (cStr p) w with ⟨answer, w'⟩
    cases answer with
    | error e =>
        right
        refine ⟨fun h => ?_, _, w', Prog.exec_bind_error (exec_sysCallWith_error _ hstat)⟩
        obtain ⟨mode, hmode, -⟩ := h.2
        cases hmode
    | ok mode =>
        have hmode : Prog.exec (modeOf os p) w = (.ok mode, w') := exec_sysCallWith_ok _ hstat
        rw [Prog.exec_bind_ok hmode]
        by_cases hdir : fileType mode = S_IFDIR
        · left
          rw [if_neg (not_not.mpr hdir)]
          exact ⟨hp, ⟨mode, rfl, hdir⟩, _, rfl, rfl⟩
        · right
          rw [if_pos hdir]
          refine ⟨fun h => ?_, _, w', rfl⟩
          obtain ⟨mode', hmode, hdir'⟩ := h.2
          cases hmode
          exact hdir hdir'

/-- A file system node is built on a directory, and only there. -/
theorem exec_create_fsys
    (os : Os ω) (p displayName : Bytes) {selector : Bytes} (w : ω)
    (htab : TAB ∉ settings.self.hostname) (hselector : TAB ∉ selector) :
    (IsDirectory (os.stat (cStr p) w).1 ∧ TAB ∉ displayName ∧ p ≠ [] ∧
        ∃ n : NodeFSys, Prog.exec (NodeFSys.create os settings p displayName selector) w =
            (.ok n, (os.stat (cStr p) w).2) ∧ n.info.selector = selector) ∨
      (¬ (IsDirectory (os.stat (cStr p) w).1 ∧ TAB ∉ displayName ∧ p ≠ []) ∧
        ∃ f w', Prog.exec (NodeFSys.create os settings p displayName selector) w =
          (.error f, w')) := by
  by_cases hdisplay : TAB ∈ displayName
  · right
    refine ⟨fun h => h.2.1 hdisplay, ?_⟩
    obtain ⟨e, hcreate⟩ : ∃ e, Node.create .menu displayName selector settings.self.hostname
        settings.self.port = .error e :=
      ⟨_, dif_neg (fun h => h displayName (by simp) hdisplay)⟩
    refine ⟨.exn e, w, ?_⟩
    rw [NodeFSys.create, hcreate]
    rfl
  · obtain ⟨node, hcreate, hnode⟩ := node_create_ok .menu settings.self.port
      (by simpa using ⟨hdisplay, hselector, htab⟩ :
        ∀ s ∈ [displayName, selector, settings.self.hostname], TAB ∉ s)
    rcases exec_create_of_node os p w hcreate with
      ⟨hp, hdir, n, hexec, hinfo⟩ | ⟨hnot, f, w', hexec⟩
    · left
      exact ⟨hdir, hdisplay, hp, n, hexec, by rw [hinfo, hnode]⟩
    · right
      exact ⟨fun h => hnot ⟨h.2.2, h.1⟩, f, w', hexec⟩

/-- A gophermap node is always built under a name that the path just got. -/
theorem exec_addGopherfile_fresh
    (h : Consistent settings m paths) (htab : TAB ∉ settings.self.hostname)
    (info : LocalNode) (hp : info.selector.str ∉ m.pathsMap.paths) (w : ω) :
    ∃ node, Prog.exec (addGopherfile info) (m, w) =
      (.ok (), (withNode (named m info.selector.str) (siteName paths.length) node, w)) := by
  obtain ⟨node, hcreate, hnode⟩ := node_create_ok .menu settings.self.port
    (by simpa using ⟨by decide, tab_not_mem_siteName paths.length, htab⟩ :
      ∀ s ∈ [lit "display", siteName paths.length, settings.self.hostname], TAB ∉ s)
  have hnamed := h.named hp
  have hmap : NodeGopherMap.create (named m info.selector.str).lookupMap.settings
      (named m info.selector.str).pathsMap info.selector.str =
        .ok ⟨node, settings, info.selector.str⟩ := by
    rw [hnamed.settings]
    simp [NodeGopherMap.create, h.virtualPathOf hp, hcreate]
  refine ⟨.gopherMap ⟨node, settings, info.selector.str⟩, ?_⟩
  rw [addGopherfile, Prog.exec_bind_ok (exec_define_fresh hp w), if_pos rfl]
  have hcurrent : Prog.exec currentMap (named m info.selector.str, w) =
      (.ok (named m info.selector.str), (named m info.selector.str, w)) := rfl
  rw [mknodeGopherMap, Prog.exec_bind_ok hcurrent, hmap, Prog.lift_ok_bind]
  have hselector : (AnyNode.gopherMap ⟨node, settings, info.selector.str⟩).info.selector =
      siteName paths.length := hnode
  exact exec_insert_fresh (m := named m info.selector.str) hselector h.next_not_mem w

/-- The node of a directory is built, or its path stays named without one. -/
theorem exec_addFilesystem_fresh
    (h : Consistent settings m paths) (htab : TAB ∉ settings.self.hostname)
    (info : LocalNode) (hp : info.selector.str ∉ m.pathsMap.paths) (w : ω) :
    (IsDirectory (os.stat (cStr info.selector.str) w).1 ∧ TAB ∉ info.displayName.str ∧
        info.selector.str ≠ [] ∧
        ∃ node w', Prog.exec (addFilesystem os info) (m, w) =
          (.ok (), (withNode (named m info.selector.str) (siteName paths.length) node, w'))) ∨
      (¬ (IsDirectory (os.stat (cStr info.selector.str) w).1 ∧ TAB ∉ info.displayName.str ∧
          info.selector.str ≠ []) ∧
        ∃ f w', Prog.exec (addFilesystem os info) (m, w) =
          (.error f, (named m info.selector.str, w'))) := by
  have hnamed := h.named hp
  have hcurrent : Prog.exec currentMap (named m info.selector.str, w) =
      (.ok (named m info.selector.str), (named m info.selector.str, w)) := rfl
  rw [addFilesystem, Prog.exec_bind_ok (exec_define_fresh hp w), if_pos rfl,
    Prog.exec_bind_ok hcurrent, h.virtualPathOf hp, Prog.lift_ok_bind, mknodeFSys,
    Prog.exec_bind_ok hcurrent, hnamed.settings]
  rcases exec_create_fsys os info.selector.str info.displayName.str w
    htab (tab_not_mem_siteName paths.length) with
    ⟨hdir, hdisplay, hne, n, hexec, hselector⟩ | ⟨hnot, f, w', hexec⟩
  · left
    refine ⟨hdir, hdisplay, hne, .fsys n, (os.stat (cStr info.selector.str) w).2, ?_⟩
    have houtside : Prog.exec (outside (NodeFSys.create os settings info.selector.str
        info.displayName.str (siteName paths.length))) (named m info.selector.str, w) =
        (.ok n, (named m info.selector.str, (os.stat (cStr info.selector.str) w).2)) := by
      simp [outside, hexec]
    have hnode : (AnyNode.fsys n).info.selector = siteName paths.length := hselector
    rw [Prog.exec_bind_ok houtside]
    exact exec_insert_fresh (m := named m info.selector.str) hnode h.next_not_mem _
  · right
    exact ⟨hnot, f, w', Prog.exec_bind_error (by simp [outside, hexec])⟩

/-- All that can become of a link: nothing changes, its path gets a name and a node, or
it gets a name and is abandoned. -/
inductive Processed (os : Os ω) (paths : List Bytes) (info : LocalNode) (s : Map × ω) :
    Except Fail Unit × (Map × ω) → Prop
  | unchanged (res : Except Fail Unit) (w' : ω) (hnot : ¬ Abandoned os info s) :
      Processed os paths info s (res, (s.1, w'))
  | added (node : AnyNode) (w' : ω) (hnot : ¬ Abandoned os info s)
      (hp : info.selector.str ∉ s.1.pathsMap.paths) :
      Processed os paths info s
        (.ok (), (withNode (named s.1 info.selector.str) (siteName paths.length) node, w'))
  | abandoned (f : Fail) (w' : ω) (h : Abandoned os info s) :
      Processed os paths info s (.error f, (named s.1 info.selector.str, w'))

theorem exec_define_known
    {p : Bytes} (hp : p ∈ m.pathsMap.paths) (register : Prog (Map × ω) Unit) (w : ω) :
    Prog.exec (define p none >>= fun fresh => if fresh then register else pure ()) (m, w) =
      (.ok (), (m, w)) := by
  rw [Prog.exec_bind_ok (exec_define_of_mem hp none w)]
  rfl

/-- A regular file. -/
theorem processed_addGopherfile
    (h : Consistent settings m paths) (htab : TAB ∉ settings.self.hostname)
    {info : LocalNode} {w : ω} (hnot : ¬ Abandoned os info (m, w)) (w₁ : ω) :
    Processed os paths info (m, w) (Prog.exec (addGopherfile info) (m, w₁)) := by
  by_cases hp : info.selector.str ∈ m.pathsMap.paths
  · rw [addGopherfile, exec_define_known hp]
    exact .unchanged _ w₁ hnot
  · obtain ⟨node, hexec⟩ := exec_addGopherfile_fresh h htab info hp w₁
    rw [hexec]
    exact .added node w₁ hnot hp

/-- A directory, which is looked at a second time. -/
theorem processed_addFilesystem
    (h : Consistent settings m paths) (htab : TAB ∉ settings.self.hostname)
    {info : LocalNode} {w w₁ : ω} {mode : Nat}
    (hfirst : (firstStat os info w).1 = .ok mode) (hdir : fileType mode = S_IFDIR)
    (hsecond : secondStat os info w = os.stat (cStr info.selector.str) w₁) :
    Processed os paths info (m, w) (Prog.exec (addFilesystem os info) (m, w₁)) := by
  by_cases hp : info.selector.str ∈ m.pathsMap.paths
  · rw [addFilesystem, exec_define_known hp]
    exact .unchanged _ w₁ (fun habandoned => habandoned.1 hp)
  · rcases @exec_addFilesystem_fresh _ _ _ _ os h htab info hp w₁ with
      ⟨hdir₂, hdisplay, hne, node, w₂, hexec⟩ | ⟨hnot, f, w₂, hexec⟩
    · rw [hexec]
      refine .added node w₂ ?_ hp
      rintro ⟨-, -, hnot⟩
      rw [hsecond] at hnot
      exact hnot ⟨hdir₂, hdisplay, hne⟩
    · rw [hexec]
      refine .abandoned f w₂ ⟨hp, ?_, ?_⟩
      · rw [hfirst]
        exact ⟨mode, rfl, hdir⟩
      · rw [hsecond]
        exact hnot

/-- One link, on any map of a load and with any answers of `stat`. -/
theorem processed_attempt
    (h : Consistent settings m paths) (htab : TAB ∉ settings.self.hostname)
    (os : Os ω) (info : LocalNode) (w : ω) :
    Processed os paths info (m, w) (Prog.exec (attempt os info) (m, w)) := by
  rcases hstat : firstStat os info w with ⟨answer, w₁⟩
  have hcall : os.stat (cStr info.selector.str) w = (answer, w₁) := hstat
  have hsecond : secondStat os info w = os.stat (cStr info.selector.str) w₁ := by
    rw [secondStat, hstat]
  have hfirst : (firstStat os info w).1 = answer := by rw [hstat]
  have hdirectory : Abandoned os info (m, w) →
      ∃ mode, answer = .ok mode ∧ fileType mode = S_IFDIR := by
    rintro ⟨-, ⟨mode, hok, hdir⟩, -⟩
    exact ⟨mode, hfirst.symm.trans hok, hdir⟩
  cases answer with
  | error e =>
      have hmode : Prog.exec (outside (modeOf os info.selector.str)) (m, w) =
          (.error (.exn (.ioError (lit "stat") e)), (m, w₁)) := by
        simp [outside, modeOf, sysCall, exec_sysCallWith_error _ hcall]
      rw [attempt, Prog.exec_bind_error hmode]
      refine .unchanged _ w₁ ?_
      intro habandoned
      obtain ⟨mode, hok, -⟩ := hdirectory habandoned
      cases hok
  | ok mode =>
      have hmode : Prog.exec (outside (modeOf os info.selector.str)) (m, w) =
          (.ok mode, (m, w₁)) := by
        simp [outside, modeOf, sysCall, exec_sysCallWith_ok _ hcall]
      have hkind : Abandoned os info (m, w) → fileType mode = S_IFDIR := by
        intro habandoned
        obtain ⟨_, hok, hdir⟩ := hdirectory habandoned
        rwa [← Except.ok.inj hok] at hdir
      rw [attempt, Prog.exec_bind_ok hmode, addByMode]
      by_cases hreg : fileType mode = S_IFREG
      · rw [if_pos hreg]
        refine processed_addGopherfile h htab ?_ w₁
        intro habandoned
        have hdir := hkind habandoned
        rw [hreg] at hdir
        exact absurd hdir (by decide)
      · rw [if_neg hreg]
        by_cases hdir : fileType mode = S_IFDIR
        · rw [if_pos hdir]
          exact processed_addFilesystem h htab hfirst hdir hsecond
        · rw [if_neg hdir]
          exact .unchanged _ w₁ (fun habandoned => hdir (hkind habandoned))

/-- The handler of `got_local_node` leaves the maps alone. -/
theorem exec_ignoreMissing_snd (f : Fail) (s : Map × ω) :
    (Prog.exec (ignoreMissing f) s).2 = s := by
  unfold ignoreMissing
  split
  · split_ifs
    · rfl
    · rfl
  · rfl

theorem exec_gotLocalNode_of_ok
    {os : Os ω} {info : LocalNode} {s t : Map × ω}
    (h : Prog.exec (attempt os info) s = (.ok (), t)) :
    Prog.exec (gotLocalNode os info) s = (.ok (), t) := by
  rw [gotLocalNode_eq, Prog.exec_tryCatch, h]

theorem exec_gotLocalNode_of_error
    {os : Os ω} {info : LocalNode} {s t : Map × ω} {f : Fail}
    (h : Prog.exec (attempt os info) s = (.error f, t)) :
    (Prog.exec (gotLocalNode os info) s).2 = t := by
  rw [gotLocalNode_eq, Prog.exec_tryCatch, h]
  exact exec_ignoreMissing_snd f t

/-- A link leaves no trace of a failed registration exactly when it is not abandoned. -/
theorem leavesNoTrace_iff
    (h : Consistent settings m paths) (htab : TAB ∉ settings.self.hostname)
    (os : Os ω) (info : LocalNode) (w : ω) :
    LeavesNoTrace os info (m, w) ↔ ¬ Abandoned os info (m, w) := by
  have hprocessed := processed_attempt h htab os info w
  generalize hexec : Prog.exec (attempt os info) (m, w) = out at hprocessed
  cases hprocessed with
  | unchanged res w' hnot =>
      refine ⟨fun _ => hnot, fun _ f t hfail => ?_⟩
      rw [exec_gotLocalNode_of_error hfail]
      rw [hexec] at hfail
      rw [← (Prod.mk.inj hfail).2]
  | added node w' hnot hp =>
      refine ⟨fun _ => hnot, fun _ f t hfail => ?_⟩
      rw [hexec] at hfail
      simp at hfail
  | abandoned f w' habandoned =>
      refine ⟨fun hnone => ?_, fun hnot => absurd habandoned hnot⟩
      have hmap := hnone f _ hexec
      rw [exec_gotLocalNode_of_error hexec] at hmap
      exact absurd hmap (named_ne habandoned.1 h)

/-- A call of `got_local_node` that returns keeps the names in order, and a complete map
complete exactly if the link is not abandoned. -/
theorem Consistent.step
    {w : ω} {info : LocalNode} {t : Map × ω}
    (h : Consistent settings m paths) (htab : TAB ∉ settings.self.hostname)
    (hstep : (links os).step (m, w) info t) :
    (∃ paths', Consistent settings t.1 paths') ∧
      (Complete m → (Complete t.1 ↔ ¬ Abandoned os info (m, w))) := by
  have hreturned : Prog.exec (gotLocalNode os info) (m, w) = (.ok (), t) := hstep
  have hprocessed := processed_attempt h htab os info w
  generalize hexec : Prog.exec (attempt os info) (m, w) = out at hprocessed
  cases hprocessed with
  | unchanged res w' hnot =>
      have hmap : t.1 = m := by
        cases res with
        | ok _ => rw [← (Prod.mk.inj ((exec_gotLocalNode_of_ok hexec).symm.trans hreturned)).2]
        | error f =>
            have hsame := exec_gotLocalNode_of_error hexec
            rw [hreturned] at hsame
            have ht : t = (m, w') := hsame
            rw [ht]
      rw [hmap]
      exact ⟨⟨paths, h⟩, fun hm => ⟨fun _ => hnot, fun _ => hm⟩⟩
  | added node w' hnot hp =>
      have ht := (Prod.mk.inj ((exec_gotLocalNode_of_ok hexec).symm.trans hreturned)).2
      rw [← ht]
      exact ⟨⟨_, h.withNode hp node⟩, fun hm => ⟨fun _ => hnot, fun _ => hm.withNode h hp node⟩⟩
  | abandoned f w' habandoned =>
      have ht := exec_gotLocalNode_of_error hexec
      rw [hreturned] at ht
      have ht : t = (Loader.named m info.selector.str, w') := ht
      rw [ht]
      refine ⟨⟨_, h.named habandoned.1⟩, fun _ => ⟨fun hcomplete => ?_, fun hnot => ?_⟩⟩
      · exact absurd hcomplete (h.not_complete_named habandoned.1)
      · exact absurd habandoned hnot

end Attempt

section Root

variable {settings : Settings} {ω : Type}

theorem Consistent.of_represents
    {m : Map} {site : Site} (h : Represents settings m site) (hsite : site ≠ []) :
    Consistent settings m (site.map Prod.fst) := by
  refine ⟨h.settings, h.names, fun i hi => ?_, by simpa using hsite⟩
  rw [← AList.lookup_isSome, Option.isSome_iff_exists] at hi
  obtain ⟨node, hnode⟩ := hi
  obtain ⟨j, hj, hname⟩ := (h.nodes _ node).mp hnode
  rw [siteName_injective hname, List.length_map]
  simpa using (List.getElem?_eq_some_iff.mp hj).1

/-- A map that represents a site is complete. -/
theorem Complete.of_represents
    {m : Map} {site : Site} (h : Represents settings m site) : Complete m := by
  intro p v hp
  obtain ⟨i, hi, rfl⟩ := (h.names.lookup p v).mp hp
  rw [List.getElem?_map, Option.map_eq_some_iff] at hi
  obtain ⟨e, he, -⟩ := hi
  rw [← AList.lookup_isSome, Option.isSome_iff_exists]
  exact ⟨e.2, (h.nodes _ e.2).mpr ⟨i, by simp [he], rfl⟩⟩

/-- The hostname of settings that a map was made of has no tab. -/
theorem tab_not_mem_hostname
    {m : Map} (h : Map.create settings = .ok m) : TAB ∉ settings.self.hostname := by
  intro htab
  have hrefused : Node.create .hypertext (lit "URL resolver") (lit "URL:")
      settings.self.hostname settings.self.port = .error (.nodeError _) :=
    dif_neg (fun h => h settings.self.hostname (by simp) htab)
  simp [Map.create, LookupMap.create, NodeRedirect.create, hrefused, Except.map] at h

/-- After the root is registered. -/
theorem exec_openRoot
    {os : Os ω} {m₀ : Map} {w₀ : ω} {reader : Util.Reader} {s₀ : Map × ω}
    (hm₀ : Map.create settings = .ok m₀)
    (hroot : Prog.exec (openRoot os settings) (m₀, w₀) = (.ok reader, s₀)) :
    ∃ node, Represents settings s₀.1 [(settings.content.rootGophermap, node)] := by
  have h := represents_create hm₀
  have hempty : settings.content.rootGophermap ∉ m₀.pathsMap.paths := by
    rw [h.names.mem_iff]
    simp
  have hname : (some [] : Option Bytes).getD (toDecimal 0) = siteName 0 := rfl
  obtain ⟨reader', s₁, hfeed, hrest⟩ := (Prog.exec_bind_eq_ok_iff _ _ _ _ _).mp hroot
  have hmap : s₁.1 = m₀ := by
    have hsnd := congrArg (fun out => out.2.1) hfeed
    simpa [outside] using hsnd.symm
  obtain ⟨m, w⟩ := s₁
  obtain rfl : m = m₀ := hmap
  obtain ⟨m', hdefine, hnamed⟩ := h.define hempty hname w
  rw [Prog.exec_bind_ok hdefine] at hrest
  rcases hnamed.exec_mknodeGopherMap w with ⟨g, m'', -, hexec, hm''⟩ | ⟨f, s, hexec, -⟩
  · rw [Prog.exec_bind_ok hexec] at hrest
    have hs₀ : (m'', w) = s₀ := (Prod.mk.inj hrest).2
    rw [← hs₀]
    exact ⟨.gopherMap g, hm''⟩
  · rw [Prog.exec_bind_error hexec] at hrest
    cases hrest

/-- The local links among the events of a gophermap. -/
def localNodes (events : List LineEvent) : List LocalNode :=
  events.filterMap (fun event =>
    match event with
    | .localNode node => some node
    | _ => none)

/-- Wherever a load is in its gophermap, it has followed the links so far. -/
theorem run_of_dispatch
    (os : Os ω) (settings : Settings) (events : List LineEvent) {s t : Map × ω}
    (h : Prog.exec (forM events (parser os settings).dispatch) s = (.ok (), t)) :
    Run (links os) s (localNodes events) t := by
  induction events generalizing s with
  | nil =>
      have hst : s = t := (Prod.mk.inj h).2
      rw [← hst]
      exact .nil s
  | cons event events ih =>
      rw [List.forM_cons] at h
      obtain ⟨_, s₁, hfirst, hrest⟩ := (Prog.exec_bind_eq_ok_iff _ _ _ _ _).mp h
      have hskip : localNodes (event :: events) = localNodes events →
          (parser os settings).dispatch event = pure () →
          Run (links os) s (localNodes (event :: events)) t := by
        intro hnodes hcall
        rw [hcall] at hfirst
        have hs₁ : s = s₁ := (Prod.mk.inj hfirst).2
        rw [hnodes, hs₁]
        exact ih hrest
      cases event with
      | localNode info => exact .cons hfirst (ih hrest)
      | remoteNode node => exact hskip rfl rfl
      | url url => exact hskip rfl rfl
      | text line => exact hskip rfl rfl

end Root

end Loader

open Loader

/-- In every load, for every link and all answers of `stat`: a registration that fails
leaves both maps as they were exactly when the link is not abandoned; and as long as no
link is abandoned, every path that is served has a node, which the next link keeps so
exactly when it is not abandoned. -/
theorem leaves_no_trace_iff
    {ω : Type} (os : Os ω) (settings : Settings) (m₀ : Map) (w₀ : ω)
    (reader : Util.Reader) (s₀ : Map × ω)
    (hm₀ : Map.create settings = .ok m₀)
    (hroot : Prog.exec (openRoot os settings) (m₀, w₀) = (.ok reader, s₀)) :
    (∀ infos s, Run (links os) s₀ infos s →
        ∀ info, LeavesNoTrace os info s ↔ ¬ Abandoned os info s) ∧
      ∀ infos s, Run ((links os).restrict (fun s info => ¬ Abandoned os info s)) s₀ infos s →
        Complete s.1 ∧ ∀ info t, (links os).step s info t →
          (Complete t.1 ↔ ¬ Abandoned os info s) := by
  have htab := tab_not_mem_hostname hm₀
  obtain ⟨node, hsite⟩ := exec_openRoot hm₀ hroot
  have hstart : ∃ paths, Consistent settings s₀.1 paths := ⟨_, .of_represents hsite (by simp)⟩
  constructor
  · intro infos s hrun info
    have hstep : ∀ (s : Map × ω) i t, (∃ paths, Consistent settings s.1 paths) →
        (links os).step s i t → ∃ paths, Consistent settings t.1 paths := by
      rintro s i t ⟨paths, hs⟩ h
      exact (hs.step htab h).1
    obtain ⟨paths, hs⟩ := hrun.invariant hstep hstart
    exact leavesNoTrace_iff hs htab os info s.2
  · intro infos s hrun
    have hstep : ∀ (s : Map × ω) i t,
        (∃ paths, Consistent settings s.1 paths) ∧ Complete s.1 →
        ((links os).restrict (fun s info => ¬ Abandoned os info s)).step s i t →
          (∃ paths, Consistent settings t.1 paths) ∧ Complete t.1 := by
      rintro s i t ⟨⟨paths, hs⟩, hcomplete⟩ ⟨hnot, h⟩
      obtain ⟨ht, hkeeps⟩ := hs.step htab h
      exact ⟨ht, (hkeeps hcomplete).mpr hnot⟩
    obtain ⟨⟨paths, hs⟩, hcomplete⟩ := hrun.invariant hstep ⟨hstart, .of_represents hsite⟩
    exact ⟨hcomplete, fun info t h => (hs.step htab h).2 hcomplete⟩

/-- A load of a gophermap with a link to a directory. -/
theorem leaves_no_trace_docs :
    (∀ infos s, Run (links (oneFile (lit "map") (lit "1docs\tdocs\n") (.ok S_IFDIR)).os)
          (rootMap, ()) infos s →
        ∀ info, LeavesNoTrace (oneFile (lit "map") (lit "1docs\tdocs\n") (.ok S_IFDIR)).os
            info s ↔
          ¬ Abandoned (oneFile (lit "map") (lit "1docs\tdocs\n") (.ok S_IFDIR)).os info s) ∧
      ∀ infos s, Run ((links (oneFile (lit "map") (lit "1docs\tdocs\n")
            (.ok S_IFDIR)).os).restrict (fun s info => ¬ Abandoned
              (oneFile (lit "map") (lit "1docs\tdocs\n") (.ok S_IFDIR)).os info s))
          (rootMap, ()) infos s →
        Complete s.1 ∧ ∀ info t,
          (links (oneFile (lit "map") (lit "1docs\tdocs\n") (.ok S_IFDIR)).os).step s info t →
            (Complete t.1 ↔ ¬ Abandoned
              (oneFile (lit "map") (lit "1docs\tdocs\n") (.ok S_IFDIR)).os info s) :=
  leaves_no_trace_iff (oneFile (lit "map") (lit "1docs\tdocs\n") (.ok S_IFDIR)).os shortSettings
    emptyMap () (.opened ⟨lit "1docs\tdocs\n", none⟩) (rootMap, ()) rfl rfl

/-- A directory that is gone when it is looked at for the second time; its world counts the
calls of `stat`. -/
def vanishing : Os Nat where
  stat _ n := (if n = 0 then .ok S_IFDIR else .error ENOENT, n + 1)
  magicFile _ n := (none, n)
  opendir _ n := (.error ENOENT, n)
  openFile _ n := (.error ENOENT, n)
  fstat _ n := (.error ENOENT, n)
  fopen _ n := (.ok ⟨lit "1docs\tdocs\n", none⟩, n)

/-- The load of a gophermap with a link to it completes: the path has a virtual path, and
no node has that name. -/
theorem vanishing_directory_named :
    ∃ m, Prog.exec (load vanishing shortSettings) (emptyMap, 0) = (.ok (), (m, 2)) ∧
      m.pathsMap.paths.lookup (lit "docs") = some (lit "1") ∧
      m.lookupMap.nodes.lookup (lit "1") = none :=
  ⟨_, rfl, rfl, rfl⟩

end Goofy
