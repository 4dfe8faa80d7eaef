import Goofy.Site

/-!
# Serving the gophermaps of a loaded map

The loader defines a path for the root and for every link of the root gophermap
that leads to something.  The node of a gophermap looks up every local link of
the file that it serves, and there is an assertion that the path is defined.

The two agree on some files only (`served_links_defined_iff`): a link to a
missing file, which the loader skips, and a link that only a linked gophermap
has, which the loader never reads, both abort the server when they are served.
-/

namespace Goofy

open Effect Util Gopher MapParser Loader

/-- Serving what a parser reports aborts exactly on an undefined local link. -/
theorem exec_dispatch_eq_assertion_iff
    (n : NodeGopherMap) (vpaths : VirtualPathsMap) {last : Option Fail}
    (hlast : last ≠ some .assertion) (events : List LineEvent) (writer : MenuWriter) :
    (Prog.exec (forM events (n.mapParser vpaths).dispatch >>= fun _ => finish last)
        writer).1 = .error .assertion
      ↔
    ∃ p ∈ localPaths events, p ∉ vpaths.paths := by
  induction events generalizing writer with
  | nil =>
      cases last with
      | none => simp [finish, localPaths]
      | some f =>
          have hne : f ≠ .assertion := fun h => hlast (by rw [h])
          simp [finish, localPaths, hne]
  | cons event events ih =>
      have hemit : ∀ f : MenuWriter → MenuWriter,
          (n.mapParser vpaths).dispatch event = NodeGopherMap.emit f →
          ((Prog.exec (forM (event :: events) (n.mapParser vpaths).dispatch >>= fun _ =>
            finish last) writer).1 = .error .assertion ↔
            ∃ p ∈ localPaths events, p ∉ vpaths.paths) := by
        intro f hcall
        have hexec : Prog.exec (NodeGopherMap.emit f) writer = (.ok (), f writer) := rfl
        rw [List.forM_cons, bind_assoc, hcall, Prog.exec_bind_ok hexec]
        exact ih (f writer)
      cases event with
      | localNode node =>
          have hpaths : localPaths (.localNode node :: events) =
              node.selector.str :: localPaths events := rfl
          rw [hpaths]
          cases hlookup : vpaths.paths.lookup node.selector.str with
          | none =>
              have habort : Prog.exec ((n.mapParser vpaths).dispatch (.localNode node))
                  writer = (.error .assertion, writer) := by
                simp [Parser.dispatch, NodeGopherMap.mapParser, call,
                  VirtualPathsMap.virtualPathOf, hlookup]
              rw [List.forM_cons, bind_assoc, Prog.exec_bind_error habort]
              simp [AList.lookup_eq_none.mp hlookup]
          | some v =>
              have hmem : node.selector.str ∈ vpaths.paths := by
                rw [← AList.lookup_isSome, hlookup]
                rfl
              rw [hemit _ (by
                simp only [Parser.dispatch, NodeGopherMap.mapParser, call,
                  VirtualPathsMap.virtualPathOf, hlookup, Prog.lift_ok_bind]
                rfl)]
              simp [hmem]
      | remoteNode node => exact hemit _ rfl
      | url url => exact hemit _ rfl
      | text line => exact hemit _ rfl

/-- A request to a gophermap node aborts exactly when a local link of the served
file has no virtual path. -/
theorem makeWriter_eq_assertion_iff
    (fs : FileSys) (n : NodeGopherMap) (vpaths : VirtualPathsMap) (r : Request) :
    (Prog.exec ((AnyNode.gopherMap n).makeWriter fs.os vpaths r) ()).1 = .error .assertion
      ↔
    ∃ f, fs.fopen (cStr n.filePath) = .ok f ∧
      ∃ p ∈ localPaths (report n.settings f).1, p ∉ vpaths.paths := by
  have hmake : (AnyNode.gopherMap n).makeWriter fs.os vpaths r =
      n.makeWriter fs.os vpaths := rfl
  rw [hmake, NodeGopherMap.makeWriter]
  cases hopen : fs.fopen (cStr n.filePath) with
  | error e =>
      have hcall : fs.os.fopen (cStr n.filePath) () = (.error e, ()) := by
        simp [FileSys.os, hopen]
      rw [Prog.exec_bind_error (Util.Reader.exec_feed_error hcall)]
      simp
  | ok f =>
      have hcall : fs.os.fopen (cStr n.filePath) () = (.ok f, ()) := by
        simp [FileSys.os, hopen]
      have hlast : (report n.settings f).2 ≠ some .assertion := by
        intro h
        rcases report_failure h with hbad | ⟨e, he⟩
        · cases hbad
        · simp at he
      have hparse := forEachLine_parseLine (n.mapParser vpaths) (Or.inl rfl) f
      rw [Prog.exec_bind_ok (Util.Reader.exec_feed_ok hcall), Prog.exec_lift,
        NodeGopherMap.writeMenu, hparse]
      have hiff := exec_dispatch_eq_assertion_iff n vpaths hlast (report n.settings f).1 {}
      have hmap : ∀ x : Except Fail Unit, ∀ body : Body,
          x.map (fun _ => body) = .error .assertion ↔ x = .error .assertion := by
        intro x body
        cases x <;> simp [Except.map]
      rw [hmap]
      have hsettings : (n.mapParser vpaths).settings = n.settings := rfl
      rw [hsettings, hiff]
      simp

/-- The loader gives a virtual path to the root, and to the links of the root
gophermap that lead to something. -/
def Registers (fs : FileSys) (settings : Settings) (p : Bytes) : Prop :=
  p = settings.content.rootGophermap ∨
    ∃ f, fs.fopen (cStr settings.content.rootGophermap) = .ok f ∧
      p ∈ localPaths (report settings f).1 ∧ fs.stat (cStr p) ≠ .error ENOENT

/-- The gophermap nodes of a loaded map have the settings of the load. -/
theorem settings_of_loaded
    {fs : FileSys} {settings : Settings} {m : Map} {site : Site}
    (hm : Represents settings m site)
    (hbuilt : ∀ e ∈ site, BuiltFor fs settings e.1 e.2)
    {v : Bytes} {g : NodeGopherMap}
    (hg : m.lookupMap.nodes.lookup v = some (.gopherMap g)) :
    g.settings = settings := by
  have hcreate : ∀ {vpaths : VirtualPathsMap} {p : Bytes},
      NodeGopherMap.create settings vpaths p = .ok g → g.settings = settings := by
    intro vpaths p h
    unfold NodeGopherMap.create at h
    cases hpath : vpaths.virtualPathOf p with
    | error f => simp [hpath] at h
    | ok virtualPath =>
        cases hnode : Node.create .menu (lit "display") virtualPath
            settings.self.hostname settings.self.port with
        | error e => simp [hpath, hnode] at h
        | ok node =>
            simp only [hpath, hnode, Except.ok.injEq] at h
            rw [← h]
  obtain ⟨i, hi, -⟩ := (hm.nodes v _).mp hg
  rw [List.getElem?_map, Option.map_eq_some_iff] at hi
  obtain ⟨⟨p, node⟩, he, hnode⟩ := hi
  obtain rfl : node = .gopherMap g := hnode
  cases hbuilt _ (List.mem_of_getElem? he) with
  | root _ hg => exact hcreate hg
  | file _ _ hg => exact hcreate hg

/-- Every local link of a served gophermap is defined, and no request for it
aborts the server, exactly when every one of them is the root or a link of the
root gophermap that leads to something. -/
theorem served_links_defined_iff
    (fs : FileSys) (settings : Settings) (m₀ m : Map)
    (hm₀ : Map.create settings = .ok m₀)
    (hload : Prog.exec (load fs.os settings) (m₀, ()) = (.ok (), (m, ())))
    (v : Bytes) (g : NodeGopherMap)
    (hg : m.lookupMap.nodes.lookup v = some (.gopherMap g)) :
    ((∀ f, fs.fopen (cStr g.filePath) = .ok f →
          ∀ p ∈ localPaths (report g.settings f).1, p ∈ m.pathsMap.paths) ∧
        ∀ r, (Prog.exec ((AnyNode.gopherMap g).makeWriter fs.os m.pathsMap r) ()).1 ≠
          .error .assertion)
      ↔
    ∀ f, fs.fopen (cStr g.filePath) = .ok f →
      ∀ p ∈ localPaths (report settings f).1, Registers fs settings p := by
  obtain ⟨site, rootFile, node, hopen, hm, hbuilt, -, hpaths⟩ :=
    of_load_completed hm₀ hload
  rw [settings_of_loaded hm hbuilt hg]
  have hregisters : ∀ p, Registers fs settings p ↔ p ∈ m.pathsMap.paths := by
    intro p
    rw [hpaths, Registers, hopen]
    simp
  simp only [hregisters]
  constructor
  · exact fun h => h.1
  · intro hall
    refine ⟨hall, ?_⟩
    intro r habort
    obtain ⟨f, hf, p, hp, hundefined⟩ := (makeWriter_eq_assertion_iff fs g _ r).mp habort
    rw [settings_of_loaded hm hbuilt hg] at hp
    exact hundefined (hall f hf p hp)

/-- A gophermap that links to a directory: the request for it does not abort. -/
theorem docs_link_served :
    (Prog.exec ((AnyNode.gopherMap rootNode).makeWriter
        (oneFile (lit "map") (lit "1docs\tdocs\n") (.ok S_IFDIR)).os docsMap.pathsMap ⟨[]⟩)
        ()).1 ≠ .error .assertion := by
  have hiff := served_links_defined_iff
    (oneFile (lit "map") (lit "1docs\tdocs\n") (.ok S_IFDIR)) shortSettings emptyMap docsMap
    rfl rfl [] rootNode rfl
  refine (hiff.mpr ?_).2 ⟨[]⟩
  intro f hf p hp
  obtain rfl : (⟨lit "1docs\tdocs\n", none⟩ : FileStream) = f := Except.ok.inj hf
  have hpaths : localPaths (report shortSettings ⟨lit "1docs\tdocs\n", none⟩).1 =
      [lit "docs"] := by
    decide
  rw [hpaths, List.mem_singleton] at hp
  subst hp
  refine Or.inr ⟨_, rfl, ?_, ?_⟩
  · rw [hpaths]
    simp
  · have hstat : (oneFile (lit "map") (lit "1docs\tdocs\n") (.ok S_IFDIR)).stat
        (cStr (lit "docs")) = .ok S_IFDIR := rfl
    rw [hstat]
    simp

/-- A gophermap that links to a missing file loads, and the first request for it
aborts the server. -/
theorem missing_link_aborts :
    Prog.exec (load (oneFile (lit "map") (lit "0foo\tmissing\n") (.error ENOENT)).os
        shortSettings) (emptyMap, ()) = (.ok (), (rootMap, ())) ∧
      rootMap.lookupMap.lookup ⟨[]⟩ = .ok (.gopherMap rootNode) ∧
      (Prog.exec ((AnyNode.gopherMap rootNode).makeWriter
        (oneFile (lit "map") (lit "0foo\tmissing\n") (.error ENOENT)).os
        rootMap.pathsMap ⟨[]⟩) ()).1 = .error .assertion :=
  ⟨rfl, rfl, rfl⟩

end Goofy
