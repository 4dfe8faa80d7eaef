import Goofy.Site

/-!
# Maps that only grow

Whatever the system answers, and also when an exception ends it, a load only adds to a
map: no node is replaced or removed, no path gets another selector, and every node is
found under the selector that it describes itself with (`load_grows`).
-/

namespace Goofy

open Effect Gopher MapParser Loader

/-- All that was registered in the first map is registered in the second one. -/
structure Gopher.Map.Grown (m m' : Map) : Prop where
  settings : m'.lookupMap.settings = m.lookupMap.settings
  redirector : m'.lookupMap.urlRedirector = m.lookupMap.urlRedirector
  nodes : Numbering.Extends m.lookupMap.nodes m'.lookupMap.nodes
  paths : Numbering.Extends m.pathsMap.paths m'.pathsMap.paths

/-- Every node is under its own selector. -/
def Gopher.Map.Keyed (m : Map) : Prop :=
  ∀ v node, m.lookupMap.nodes.lookup v = some node → node.info.selector = v

namespace Loader

variable {ω : Type}

/-- What a load keeps true of its map, when it started from `m`. -/
def Grows (m : Map) (s : Map × ω) : Prop :=
  m.Grown s.1 ∧ s.1.Keyed

variable {m : Map}

theorem grows_refl
    (hkeyed : m.Keyed) (w : ω) :
    Grows m (m, w) :=
  ⟨⟨rfl, rfl, Numbering.Extends.refl _, Numbering.Extends.refl _⟩, hkeyed⟩

theorem preserves_outside
    {α : Type} (x : Prog ω α) :
    Preserves (Grows m) (outside x) :=
  fun _ hs => hs

theorem preserves_currentMap :
    Preserves (Grows m) (currentMap : Prog (Map × ω) Map) :=
  fun _ hs => hs

/-- A path that has a selector keeps it. -/
theorem preserves_define
    (path : Bytes) (defineAs : Option Bytes) :
    Preserves (Grows m) (define path defineAs : Prog (Map × ω) Bool) := by
  rintro ⟨m', w⟩ ⟨hgrown, hkeyed⟩
  by_cases hpath : path ∈ m'.pathsMap.paths
  · rw [exec_define_of_mem hpath]
    exact ⟨hgrown, hkeyed⟩
  · simp only [define, VirtualPathsMap.define, if_neg hpath, Prog.exec_prim]
    exact ⟨⟨hgrown.settings, hgrown.redirector, hgrown.nodes, hgrown.paths.insert hpath _⟩,
      hkeyed⟩

/-- A node never takes the selector of another one. -/
theorem preserves_insert
    (item : AnyNode) :
    Preserves (Grows m) (insert item : Prog (Map × ω) Unit) := by
  rintro ⟨m', w⟩ ⟨hgrown, hkeyed⟩
  by_cases hmem : item.info.selector ∈ m'.lookupMap.nodes
  · simp only [insert, LookupMap.insert, if_pos hmem, Prog.exec_prim]
    exact ⟨hgrown, hkeyed⟩
  · simp only [insert, LookupMap.insert, if_neg hmem, Prog.exec_prim]
    refine ⟨⟨hgrown.settings, hgrown.redirector, hgrown.nodes.insert hmem _, hgrown.paths⟩, ?_⟩
    intro v node hlookup
    by_cases hv : v = item.info.selector
    · subst hv
      rw [AList.lookup_insert] at hlookup
      rw [Option.some.inj hlookup]
    · rw [AList.lookup_insert_ne hv] at hlookup
      exact hkeyed v node hlookup

theorem preserves_mknodeGopherMap
    (path : Bytes) :
    Preserves (Grows m) (mknodeGopherMap path : Prog (Map × ω) Unit) :=
  preserves_currentMap.bind (fun _ =>
    (Preserves.lift _).bind (fun _ => preserves_insert _))

theorem preserves_mknodeFSys
    (os : Os ω) (path displayName selector : Bytes) :
    Preserves (Grows m) (mknodeFSys os path displayName selector) :=
  preserves_currentMap.bind (fun _ =>
    (preserves_outside _).bind (fun _ => preserves_insert _))

theorem preserves_addGopherfile
    (info : LocalNode) :
    Preserves (Grows m) (addGopherfile info : Prog (Map × ω) Unit) := by
  refine (preserves_define _ _).bind ?_
  intro fresh
  split_ifs
  · exact preserves_mknodeGopherMap _
  · exact Preserves.pure _

theorem preserves_addFilesystem
    (os : Os ω) (info : LocalNode) :
    Preserves (Grows m) (addFilesystem os info) := by
  refine (preserves_define _ _).bind ?_
  intro fresh
  split_ifs
  · exact preserves_currentMap.bind (fun _ =>
      (Preserves.lift _).bind (fun _ => preserves_mknodeFSys os _ _ _))
  · exact Preserves.pure _

/-- The exceptions of a link are swallowed or let through; the maps stay as they are. -/
theorem preserves_gotLocalNode
    (os : Os ω) (info : LocalNode) :
    Preserves (Grows m) (gotLocalNode os info) := by
  refine Preserves.tryCatch ((preserves_outside _).bind ?_) ?_
  · intro mode
    unfold addByMode
    split_ifs
    · exact preserves_addGopherfile info
    · exact preserves_addFilesystem os info
    · exact Preserves.throw _
  · intro f
    unfold ignoreMissing
    split
    · split_ifs
      · exact Preserves.throw _
      · exact Preserves.pure _
    · exact Preserves.throw _

theorem preserves_dispatch
    (os : Os ω) (settings : Settings) (event : LineEvent) :
    Preserves (Grows m) ((parser os settings).dispatch event) := by
  cases event with
  | localNode info => exact preserves_gotLocalNode os info
  | remoteNode node => exact Preserves.pure _
  | url url => exact Preserves.pure _
  | text line => exact Preserves.pure _

/-- The lines of a root gophermap that was opened. -/
theorem preserves_forEachLine
    (os : Os ω) (settings : Settings) (file : FileStream) :
    Preserves (Grows m)
      (Util.Reader.forEachLine (parser os settings).parseLine (.opened file)) := by
  rw [forEachLine_parseLine (parser os settings) (Or.inl rfl) file]
  refine Preserves.bind ?_ ?_
  · exact Preserves.forM (fun event _ => preserves_dispatch os settings event)
  · intro _
    cases (report (parser os settings).settings file).2 with
    | none => exact Preserves.pure _
    | some f => exact Preserves.throw f

end Loader

/-- A map that was just created has no node. -/
theorem keyed_create
    {settings : Settings} {m : Map} (hm : Map.create settings = .ok m) :
    m.Keyed := by
  intro v node hlookup
  obtain ⟨i, hi, -⟩ := ((represents_create hm).nodes v node).mp hlookup
  simp at hi

/-- A load keeps what a map has. -/
theorem load_preserves
    {ω : Type} (os : Os ω) (settings : Settings) (m : Map) (w : ω)
    (hkeyed : m.Keyed) :
    Grows m (Prog.exec (load os settings) (m, w)).2 := by
  have hstart := grows_refl hkeyed w
  rcases hopen : os.fopen (cStr settings.content.rootGophermap) w with ⟨res, w'⟩
  cases res with
  | error e =>
      have hfeed : Prog.exec (outside (Util.Reader.feed os settings.content.rootGophermap))
          (m, w) = (.error (.exn (.ioError
            (lit "fopen " ++ cStr settings.content.rootGophermap) e)), (m, w')) := by
        simp [outside, Util.Reader.exec_feed_error hopen]
      rw [load, Prog.exec_bind_error hfeed]
      exact hstart
  | ok file =>
      have hfeed : Prog.exec (outside (Util.Reader.feed os settings.content.rootGophermap))
          (m, w) = (.ok (.opened file), (m, w')) := by
        simp [outside, Util.Reader.exec_feed_ok hopen]
      rw [load, Prog.exec_bind_ok hfeed]
      have hrest : Preserves (Grows m) (define settings.content.rootGophermap (some []) >>=
          fun _ => mknodeGopherMap settings.content.rootGophermap >>= fun _ =>
            Util.Reader.forEachLine (parser os settings).parseLine (.opened file)) :=
        (preserves_define _ _).bind (fun _ => (preserves_mknodeGopherMap _).bind
          (fun _ => preserves_forEachLine os settings file))
      exact hrest (m, w') hstart

/-- Whatever the system answers and however the load ends, and also when it is not the
first load of the map: no node is replaced or removed, no path gets another selector, and
every node is still found under its own selector. -/
theorem load_grows
    {ω : Type} (os : Os ω) (settings : Settings) (m : Map) (w : ω)
    (hkeyed : m.Keyed) :
    m.Grown (Prog.exec (load os settings) (m, w)).2.1 ∧
      (Prog.exec (load os settings) (m, w)).2.1.Keyed :=
  load_preserves os settings m w hkeyed

/-- A map that was loaded once, and is loaded again when its gophermap is gone. -/
theorem docs_load_grows :
    docsMap.Keyed ∧
      docsMap.Grown (Prog.exec (load (oneFile (lit "other") [] (.error ENOENT)).os
        shortSettings) (docsMap, ())).2.1 := by
  have hload : Prog.exec (load (oneFile (lit "map") (lit "1docs\tdocs\n")
      (.ok S_IFDIR)).os shortSettings) (emptyMap, ()) = (.ok (), (docsMap, ())) := by
    rfl
  have hcreate : Map.create shortSettings = .ok emptyMap := rfl
  have hfirst := load_grows (oneFile (lit "map") (lit "1docs\tdocs\n") (.ok S_IFDIR)).os
    shortSettings emptyMap () (keyed_create hcreate)
  rw [hload] at hfirst
  exact ⟨hfirst.2, (load_grows _ shortSettings docsMap () hfirst.2).1⟩

/-- Every node of a loaded map is found under its own selector. -/
theorem keyed_of_load
    {ω : Type} {os : Os ω} {settings : Settings} {m₀ m : Map} {w w' : ω}
    (hm₀ : Map.create settings = .ok m₀)
    (hload : Prog.exec (load os settings) (m₀, w) = (.ok (), (m, w'))) :
    m.Keyed := by
  have hkeyed := (load_preserves os settings m₀ w (keyed_create hm₀)).2
  rwa [hload] at hkeyed

/-- The root of a load that completes is the node of a gophermap. -/
theorem exists_root_of_load
    {ω : Type} {os : Os ω} {settings : Settings} {m₀ m : Map} {w w' : ω}
    (hm₀ : Map.create settings = .ok m₀)
    (hload : Prog.exec (load os settings) (m₀, w) = (.ok (), (m, w'))) :
    ∃ g, m.lookupMap.nodes.lookup [] = some (.gopherMap g) := by
  let root := settings.content.rootGophermap
  have h := represents_create hm₀
  have hempty : root ∉ m₀.pathsMap.paths := by
    rw [h.names.mem_iff]
    simp
  have hname : (some [] : Option Bytes).getD (toDecimal 0) = siteName 0 := rfl
  rcases hopen : os.fopen (cStr root) w with ⟨res, w₁⟩
  cases res with
  | error e =>
      have hfeed : Prog.exec (outside (Util.Reader.feed os root)) (m₀, w) =
          (.error (.exn (.ioError (lit "fopen " ++ cStr root) e)), (m₀, w₁)) := by
        simp [outside, Util.Reader.exec_feed_error hopen]
      rw [load, Prog.exec_bind_error hfeed] at hload
      simp at hload
  | ok file =>
      have hfeed : Prog.exec (outside (Util.Reader.feed os root)) (m₀, w) =
          (.ok (.opened file), (m₀, w₁)) := by
        simp [outside, Util.Reader.exec_feed_ok hopen]
      obtain ⟨m₁, hdefine, hnamed⟩ := h.define hempty hname w₁
      rw [load, Prog.exec_bind_ok hfeed, Prog.exec_bind_ok hdefine] at hload
      rcases hnamed.exec_mknodeGopherMap w₁ with ⟨g, m₂, -, hexec, hm₂⟩ | ⟨f, s, hexec, -⟩
      · rw [Prog.exec_bind_ok hexec] at hload
        have hroot : m₂.lookupMap.nodes.lookup [] = some (.gopherMap g) :=
          (hm₂.nodes _ _).mpr ⟨0, rfl, rfl⟩
        have hfirst := preserves_define root (some []) (m₀, w₁) (grows_refl (keyed_create hm₀) w₁)
        rw [hdefine] at hfirst
        have hsecond := preserves_mknodeGopherMap root (m₁, w₁) hfirst
        rw [hexec] at hsecond
        have hrest := preserves_forEachLine os settings file (m₂, w₁) (grows_refl hsecond.2 w₁)
        rw [hload] at hrest
        exact ⟨g, hrest.1.nodes _ _ hroot⟩
      · rw [Prog.exec_bind_error hexec] at hload
        simp at hload

end Goofy
