import Goofy.Lib.Numbering
import Goofy.Loader

/-!
# The site behind a loaded map

What a loaded map is, abstractly, is a site: the served paths with their nodes
in the order of registration.  The `i`-th path has the `i`-th name, and a map
represents a site when its two tables agree with it.

On sites, following a link does nothing or adds one path (`LinkStep`).  The
loader refines this: every step of it takes a map that represents a site to one
that represents the next site (`exec_gotLocalNode`, `exec_load`).
-/

namespace Goofy

open Effect Util Gopher MapParser Loader

/-- The name of the `i`-th served path; the root has the empty name. -/
def siteName (i : ℕ) : Bytes :=
  if i = 0 then [] else toDecimal i

theorem siteName_injective : Function.Injective siteName := by
  intro i j h
  unfold siteName at h
  split_ifs at h with hi hj hj
  · rw [hi, hj]
  · exact absurd h.symm (Decimal.encode_ne_nil j)
  · exact absurd h (Decimal.encode_ne_nil i)
  · exact Decimal.encode_injective h

/-- The served paths, each with its node, in the order of registration. -/
abbrev Site : Type :=
  List (Bytes × AnyNode)

/-- The tables of a map hold a site. -/
structure Represents (settings : Settings) (m : Map) (site : Site) : Prop where
  settings : m.lookupMap.settings = settings
  names : Numbering.Names siteName (site.map Prod.fst) m.pathsMap.paths
  nodes : Numbering.Values siteName (site.map Prod.snd) m.lookupMap.nodes

/-- Between `define` and `insert` a path has a name, but no node yet. -/
structure Named (settings : Settings) (m : Map) (site : Site) (p : Bytes) : Prop where
  settings : m.lookupMap.settings = settings
  names : Numbering.Names siteName (site.map Prod.fst ++ [p]) m.pathsMap.paths
  nodes : Numbering.Values siteName (site.map Prod.snd) m.lookupMap.nodes

/-- The node that the loader builds for a path. -/
inductive BuiltFor (fs : FileSys) (settings : Settings) (p : Bytes) : AnyNode → Prop where
  | root {vpaths : VirtualPathsMap} {g : NodeGopherMap}
      (hroot : p = settings.content.rootGophermap)
      (hg : NodeGopherMap.create settings vpaths p = .ok g) :
      BuiltFor fs settings p (.gopherMap g)
  | file {vpaths : VirtualPathsMap} {g : NodeGopherMap} {mode : Nat}
      (hstat : fs.stat (cStr p) = .ok mode)
      (hmode : fileType mode = S_IFREG)
      (hg : NodeGopherMap.create settings vpaths p = .ok g) :
      BuiltFor fs settings p (.gopherMap g)
  | directory {displayName selector : Bytes} {n : NodeFSys}
      (hn : Prog.exec (NodeFSys.create fs.os settings p displayName selector) () =
        (.ok n, ())) :
      BuiltFor fs settings p (.fsys n)

/-- What following one link does to a site. -/
inductive LinkStep (fs : FileSys) (settings : Settings) (site : Site) (p : Bytes) :
    Site → Prop where
  | skip (h : p ∈ site.map Prod.fst ∨ fs.stat (cStr p) = .error ENOENT) :
      LinkStep fs settings site p site
  | add {node : AnyNode}
      (hfresh : p ∉ site.map Prod.fst)
      (hstat : fs.stat (cStr p) ≠ .error ENOENT)
      (hnode : BuiltFor fs settings p node) :
      LinkStep fs settings site p (site ++ [(p, node)])

/-- What following a list of links does to a site. -/
inductive Follow (fs : FileSys) (settings : Settings) : Site → List Bytes → Site → Prop where
  | nil (site : Site) : Follow fs settings site [] site
  | cons {site mid last : Site} {p : Bytes} {ps : List Bytes}
      (hstep : LinkStep fs settings site p mid)
      (hrest : Follow fs settings mid ps last) :
      Follow fs settings site (p :: ps) last

section Follow

variable {fs : FileSys} {settings : Settings}

/-- The paths of a site after following links: the old ones and those of the
links that lead to something. -/
theorem Follow.mem_paths_iff {site last : Site} {ps : List Bytes}
    (h : Follow fs settings site ps last) (q : Bytes) :
    q ∈ last.map Prod.fst ↔
      q ∈ site.map Prod.fst ∨ q ∈ ps ∧ fs.stat (cStr q) ≠ .error ENOENT := by
  induction h with
  | nil site => simp
  | @cons site mid last p ps hstep _ ih =>
      rw [ih]
      cases hstep with
      | skip hskip =>
          constructor
          · rintro (hq | ⟨hq, hstat⟩)
            · exact Or.inl hq
            · exact Or.inr ⟨List.mem_cons_of_mem _ hq, hstat⟩
          · rintro (hq | ⟨hq, hstat⟩)
            · exact Or.inl hq
            · rcases List.mem_cons.mp hq with rfl | hq
              · rcases hskip with hskip | hskip
                · exact Or.inl hskip
                · exact absurd hskip hstat
              · exact Or.inr ⟨hq, hstat⟩
      | add hfresh hstat hnode =>
          simp only [List.map_append, List.map_cons, List.map_nil, List.mem_append,
            List.mem_cons, List.not_mem_nil, or_false]
          constructor
          · rintro ((hq | rfl) | ⟨hq, hq'⟩)
            · exact Or.inl hq
            · exact Or.inr ⟨Or.inl rfl, hstat⟩
            · exact Or.inr ⟨Or.inr hq, hq'⟩
          · rintro (hq | ⟨rfl | hq, hq'⟩)
            · exact Or.inl (Or.inl hq)
            · exact Or.inl (Or.inr rfl)
            · exact Or.inr ⟨hq, hq'⟩

/-- Following links keeps the nodes of a site and builds the others. -/
theorem Follow.builtFor {site last : Site} {ps : List Bytes}
    (h : Follow fs settings site ps last)
    (hsite : ∀ e ∈ site, BuiltFor fs settings e.1 e.2) :
    ∀ e ∈ last, BuiltFor fs settings e.1 e.2 := by
  induction h with
  | nil site => exact hsite
  | @cons site mid last p ps hstep _ ih =>
      apply ih
      cases hstep with
      | skip hskip => exact hsite
      | @add node hfresh hstat hnode =>
          intro e he
          rcases List.mem_append.mp he with he | he
          · exact hsite e he
          · rw [List.mem_singleton.mp he]
            exact hnode

/-- Following links registers behind what is there. -/
theorem Follow.keeps {site last : Site} {ps : List Bytes}
    (h : Follow fs settings site ps last) : site <+: last := by
  induction h with
  | nil site => exact List.prefix_rfl
  | cons hstep _ ih =>
      cases hstep with
      | skip hskip => exact ih
      | add hfresh hstat hnode => exact (List.prefix_append _ _).trans ih

end Follow

section Registration

variable {settings : Settings} {m : Map} {site : Site} {p : Bytes} {ω : Type}

/-- A fresh path gets the next name of the site. -/
theorem Represents.define
    (h : Represents settings m site) (hp : p ∉ m.pathsMap.paths)
    {defineAs : Option Bytes}
    (hname : defineAs.getD (toDecimal site.length) = siteName site.length) (w : ω) :
    ∃ m', Prog.exec (Loader.define p defineAs) (m, w) = (.ok true, (m', w)) ∧
      Named settings m' site p := by
  have hsize : m.pathsMap.paths.entries.length = site.length := by
    rw [h.names.size, List.length_map]
  have hnames := h.names.insert hp
  rw [hsize, ← hname, ← hsize] at hnames
  refine ⟨{ m with pathsMap :=
    ⟨m.pathsMap.paths.insert p (defineAs.getD (toDecimal m.pathsMap.paths.entries.length))⟩ },
    ?_, ⟨h.settings, hnames, h.nodes⟩⟩
  simp [Loader.define, VirtualPathsMap.define, hp]

/-- A path that is there keeps its name. -/
theorem exec_define_of_mem
    (hp : p ∈ m.pathsMap.paths) (defineAs : Option Bytes) (w : ω) :
    Prog.exec (define p defineAs) (m, w) = (.ok false, (m, w)) := by
  simp [define, VirtualPathsMap.define, hp]

/-- The name of the path that was just defined. -/
theorem Named.virtualPathOf (h : Named settings m site p) :
    m.pathsMap.virtualPathOf p = .ok (siteName site.length) := by
  have hlookup : m.pathsMap.paths.lookup p = some (siteName site.length) := by
    refine (h.names.lookup p _).mpr ⟨site.length, ?_, rfl⟩
    rw [List.getElem?_append_right (by simp)]
    simp
  simp [VirtualPathsMap.virtualPathOf, hlookup]

/-- A node under the next name completes the registration. -/
theorem Named.insert
    (h : Named settings m site p) {node : AnyNode}
    (hnode : node.info.selector = siteName site.length) (w : ω) :
    ∃ m', Prog.exec (Loader.insert node) (m, w) = (.ok (), (m', w)) ∧
      Represents settings m' (site ++ [(p, node)]) := by
  have hlen : (site.map Prod.snd).length = site.length := List.length_map _
  have hfree := h.nodes.next_notMem siteName_injective
  have hnodes := h.nodes.insert siteName_injective node
  rw [hlen] at hfree hnodes
  refine ⟨{ m with lookupMap :=
    { m.lookupMap with nodes := m.lookupMap.nodes.insert (siteName site.length) node } },
    ?_, ⟨h.settings, ?_, ?_⟩⟩
  · simp [Loader.insert, LookupMap.insert, hnode, hfree]
  · simpa using h.names
  · simpa using hnodes

/-- The ways in which a constructor refuses a node. -/
inductive Refused : Fail → Prop where
  | badText (msg : Bytes) : Refused (.exn (.nodeError msg))
  | emptyPath : Refused .undefined

/-- Registering a gophermap node under the name that its path just got. -/
theorem Named.exec_mknodeGopherMap (h : Named settings m site p) (w : ω) :
    (∃ g m', NodeGopherMap.create settings m.pathsMap p = .ok g ∧
        Prog.exec (mknodeGopherMap p) (m, w) = (.ok (), (m', w)) ∧
        Represents settings m' (site ++ [(p, .gopherMap g)])) ∨
      ∃ f s, Prog.exec (mknodeGopherMap p) (m, w) = (.error f, s) ∧ Refused f := by
  have hexec : Prog.exec (mknodeGopherMap p) (m, w) =
      Prog.exec (Prog.lift (NodeGopherMap.create settings m.pathsMap p) >>= fun node =>
        Loader.insert (.gopherMap node)) (m, w) := by
    rw [mknodeGopherMap, ← h.settings]
    rfl
  rw [hexec]
  cases hnode : Node.create .menu (lit "display") (siteName site.length)
      settings.self.hostname settings.self.port with
  | error e =>
      right
      have hcreate : NodeGopherMap.create settings m.pathsMap p = .error (.exn e) := by
        simp [NodeGopherMap.create, h.virtualPathOf, hnode]
      obtain ⟨msg, rfl⟩ := Node.create_error hnode
      exact ⟨_, _, by rw [hcreate]; rfl, .badText msg⟩
  | ok node =>
      left
      have hcreate : NodeGopherMap.create settings m.pathsMap p =
          .ok ⟨node, settings, p⟩ := by
        simp [NodeGopherMap.create, h.virtualPathOf, hnode]
      have hselector : (AnyNode.gopherMap ⟨node, settings, p⟩).info.selector =
          siteName site.length := by
        show node.info.selector = _
        rw [Node.info_of_create_eq_ok hnode]
      obtain ⟨m', hinsert, hm'⟩ := h.insert hselector w
      refine ⟨_, m', hcreate, ?_, hm'⟩
      rw [hcreate, Prog.lift_ok_bind]
      exact hinsert

end Registration

section Links

variable {fs : FileSys} {settings : Settings} {m : Map} {site : Site} {p : Bytes}

/-- The constructor of a file system node, on a directory. -/
theorem exec_create_directory
    {mode : Nat} (hstat : fs.stat (cStr p) = .ok mode) (hmode : fileType mode = S_IFDIR)
    (displayName selector : Bytes) :
    (∃ n : NodeFSys,
        Prog.exec (NodeFSys.create fs.os settings p displayName selector) () =
          (.ok n, ()) ∧ n.info.selector = selector) ∨
      ∃ f, Prog.exec (NodeFSys.create fs.os settings p displayName selector) () =
          (.error f, ()) ∧ Refused f := by
  unfold NodeFSys.create
  cases hnode : Node.create .menu displayName selector
      settings.self.hostname settings.self.port with
  | error e =>
      right
      obtain ⟨msg, rfl⟩ := Node.create_error hnode
      exact ⟨_, rfl, .badText msg⟩
  | ok node =>
      have hlift : (liftExn (.ok node) : Prog Unit Node) = Prog.lift (.ok node) := rfl
      rw [hlift, Prog.lift_ok_bind]
      cases hroot : NodeFSys.rootOf p with
      | error f =>
          right
          refine ⟨f, rfl, ?_⟩
          unfold NodeFSys.rootOf at hroot
          split_ifs at hroot
          rw [← Except.error.inj hroot]
          exact .emptyPath
      | ok root =>
          left
          have hmodeOf : Prog.exec (modeOf fs.os p) () = (.ok mode, ()) :=
            exec_sysCallWith_ok _ (by simp [FileSys.os, hstat])
          refine ⟨⟨node, root.1, root.2⟩, ?_, ?_⟩
          · rw [Prog.lift_ok_bind, Prog.exec_bind_ok hmodeOf, if_neg (not_not.mpr hmode)]
            rfl
          · show node.info.selector = selector
            rw [Node.info_of_create_eq_ok hnode]

/-- Registering a file system node under the name that its path just got. -/
theorem Named.exec_mknodeFSys
    (h : Named settings m site p)
    {mode : Nat} (hstat : fs.stat (cStr p) = .ok mode) (hmode : fileType mode = S_IFDIR)
    (displayName : Bytes) :
    (∃ n m', Prog.exec (NodeFSys.create fs.os settings p displayName
          (siteName site.length)) () = (.ok n, ()) ∧
        Prog.exec (mknodeFSys fs.os p displayName (siteName site.length)) (m, ()) =
          (.ok (), (m', ())) ∧
        Represents settings m' (site ++ [(p, .fsys n)])) ∨
      ∃ f s, Prog.exec (mknodeFSys fs.os p displayName (siteName site.length)) (m, ()) =
        (.error f, s) ∧ Refused f := by
  have hexec : Prog.exec (mknodeFSys fs.os p displayName (siteName site.length)) (m, ()) =
      Prog.exec (outside (NodeFSys.create fs.os settings p displayName
        (siteName site.length)) >>= fun node => Loader.insert (.fsys node)) (m, ()) := by
    rw [mknodeFSys, ← h.settings]
    rfl
  rw [hexec]
  rcases exec_create_directory hstat hmode displayName (siteName site.length) with
    ⟨n, hcreate, hselector⟩ | ⟨f, hcreate, hf⟩
  · left
    have hnode : (AnyNode.fsys n).info.selector = siteName site.length := hselector
    obtain ⟨m', hinsert, hm'⟩ := h.insert hnode ()
    refine ⟨n, m', hcreate, ?_, hm'⟩
    have houtside : Prog.exec (outside (NodeFSys.create fs.os settings p displayName
        (siteName site.length))) (m, ()) = (.ok n, (m, ())) := by
      simp [outside, hcreate]
    rw [Prog.exec_bind_ok houtside]
    exact hinsert
  · right
    exact ⟨f, (m, ()), Prog.exec_bind_error (by simp [outside, hcreate]), hf⟩

/-- The outcome of registering the path of a link. -/
inductive Registered (fs : FileSys) (settings : Settings) (site : Site) (p : Bytes) :
    Except Fail Unit × (Map × Unit) → Prop where
  | done {m' : Map} {site' : Site}
      (hstep : LinkStep fs settings site p site')
      (hm' : Represents settings m' site') :
      Registered fs settings site p (.ok (), (m', ()))
  | refused {f : Fail} {s : Map × Unit} (hf : Refused f) :
      Registered fs settings site p (.error f, s)

/-- A link to a path that is there changes nothing. -/
theorem registered_of_mem
    (h : Represents settings m site) (hp : p ∈ m.pathsMap.paths)
    (register : Prog (Map × Unit) Unit) :
    Registered fs settings site p
      (Prog.exec (Loader.define p none >>= fun fresh =>
        if fresh then register else pure ()) (m, ())) := by
  rw [Prog.exec_bind_ok (exec_define_of_mem hp none ())]
  exact .done (.skip (Or.inl ((h.names.mem_iff p).mp hp))) h

/-- The default name of a path behind the root. -/
theorem toDecimal_eq_siteName (hsite : site ≠ []) :
    (none : Option Bytes).getD (toDecimal site.length) = siteName site.length := by
  have hlen : site.length ≠ 0 := by simpa using hsite
  rw [siteName, if_neg hlen]
  rfl

theorem registered_addGopherfile
    (h : Represents settings m site) (hsite : site ≠ [])
    (info : LocalNode)
    {mode : Nat} (hstat : fs.stat (cStr info.selector.str) = .ok mode)
    (hmode : fileType mode = S_IFREG) :
    Registered fs settings site info.selector.str
      (Prog.exec (addGopherfile info) (m, ())) := by
  by_cases hp : info.selector.str ∈ m.pathsMap.paths
  · exact registered_of_mem h hp _
  · obtain ⟨m', hdefine, hnamed⟩ := h.define hp (toDecimal_eq_siteName hsite) ()
    rw [addGopherfile, Prog.exec_bind_ok hdefine, if_pos rfl]
    rcases hnamed.exec_mknodeGopherMap () with ⟨g, m'', hg, hexec, hm''⟩ | ⟨f, s, hexec, hf⟩
    · rw [hexec]
      refine .done (.add ?_ (by simp [hstat]) (.file hstat hmode hg)) hm''
      exact fun hmem => hp ((h.names.mem_iff _).mpr hmem)
    · rw [hexec]
      exact .refused hf

theorem registered_addFilesystem
    (h : Represents settings m site) (hsite : site ≠ [])
    (info : LocalNode)
    {mode : Nat} (hstat : fs.stat (cStr info.selector.str) = .ok mode)
    (hmode : fileType mode = S_IFDIR) :
    Registered fs settings site info.selector.str
      (Prog.exec (addFilesystem fs.os info) (m, ())) := by
  by_cases hp : info.selector.str ∈ m.pathsMap.paths
  · exact registered_of_mem h hp _
  · obtain ⟨m', hdefine, hnamed⟩ := h.define hp (toDecimal_eq_siteName hsite) ()
    have hmap : Prog.exec currentMap (m', ()) = (.ok m', (m', ())) := rfl
    rw [addFilesystem, Prog.exec_bind_ok hdefine, if_pos rfl, Prog.exec_bind_ok hmap,
      hnamed.virtualPathOf, Prog.lift_ok_bind]
    rcases hnamed.exec_mknodeFSys hstat hmode info.displayName.str with
      ⟨n, m'', hn, hexec, hm''⟩ | ⟨f, s, hexec, hf⟩
    · rw [hexec]
      refine .done (.add ?_ (by simp [hstat]) (.directory hn)) hm''
      exact fun hmem => hp ((h.names.mem_iff _).mpr hmem)
    · rw [hexec]
      exact .refused hf

/-- The outcome of a part of the load: a represented site, or an error, which is
never that of a duplicate. -/
def Outcome (settings : Settings) (next : Site → Prop)
    (res : Except Fail Unit × (Map × Unit)) : Prop :=
  (∃ m' site', res = (.ok (), (m', ())) ∧ Represents settings m' site' ∧ next site') ∨
    ∃ f s, res = (.error f, s) ∧ ∀ selector, f ≠ .exn (.duplicatedError selector)

theorem Refused.ne_duplicated {f : Fail} (h : Refused f) (selector : Bytes) :
    f ≠ .exn (.duplicatedError selector) := by
  cases h <;> simp

/-- The handler of `got_local_node` lets a refusal through. -/
theorem Registered.outcome {x y : Prog (Map × Unit) Unit}
    (h : Registered fs settings site p (Prog.exec y (m, ())))
    (hxy : Prog.exec x (m, ()) = Prog.exec y (m, ())) :
    Outcome settings (LinkStep fs settings site p)
      (Prog.exec (tryCatch x ignoreMissing) (m, ())) := by
  rw [Prog.exec_tryCatch, hxy]
  rcases hexec : Prog.exec y (m, ()) with ⟨res, s⟩
  rw [hexec] at h
  cases h with
  | done hstep hm' => exact Or.inl ⟨_, _, rfl, hm', hstep⟩
  | @refused f _ hf =>
      right
      refine ⟨f, s, ?_, hf.ne_duplicated⟩
      cases hf with
      | badText msg => rfl
      | emptyPath => rfl

/-- One local link, as the loader handles it, is one link step of the site. -/
theorem exec_gotLocalNode
    (h : Represents settings m site) (hsite : site ≠ []) (info : LocalNode) :
    Outcome settings (LinkStep fs settings site info.selector.str)
      (Prog.exec (gotLocalNode fs.os info) (m, ())) := by
  cases hstat : fs.stat (cStr info.selector.str) with
  | error e =>
      have hcall : fs.os.stat (cStr info.selector.str) () = (.error e, ()) := by
        simp [FileSys.os, hstat]
      have hmode : Prog.exec (outside (modeOf fs.os info.selector.str)) (m, ()) =
          (.error (.exn (.ioError (lit "stat") e)), (m, ())) := by
        simp [outside, modeOf, sysCall, exec_sysCallWith_error _ hcall]
      rw [gotLocalNode, Prog.exec_tryCatch, Prog.exec_bind_error hmode]
      by_cases he : e = ENOENT
      · left
        refine ⟨m, site, ?_, h, .skip (Or.inr ?_)⟩
        · simp [ignoreMissing, he]
        · rw [hstat, he]
      · right
        refine ⟨.exn (.ioError (lit "stat") e), (m, ()), ?_, by simp⟩
        simp [ignoreMissing, he]
  | ok mode =>
      have hcall : fs.os.stat (cStr info.selector.str) () = (.ok mode, ()) := by
        simp [FileSys.os, hstat]
      have hmode : Prog.exec (outside (modeOf fs.os info.selector.str)) (m, ()) =
          (.ok mode, (m, ())) := by
        simp [outside, modeOf, sysCall, exec_sysCallWith_ok _ hcall]
      have hbody := Prog.exec_bind_ok (f := addByMode fs.os info) hmode
      by_cases hreg : fileType mode = S_IFREG
      · rw [addByMode, if_pos hreg] at hbody
        exact (registered_addGopherfile h hsite info hstat hreg).outcome hbody
      · rw [addByMode, if_neg hreg] at hbody
        by_cases hdir : fileType mode = S_IFDIR
        · rw [if_pos hdir] at hbody
          exact (registered_addFilesystem h hsite info hstat hdir).outcome hbody
        · rw [if_neg hdir] at hbody
          right
          rw [gotLocalNode, Prog.exec_tryCatch, hbody]
          exact ⟨_, _, rfl, by simp⟩

/-- The paths that the local links of a report name. -/
def localPaths (events : List LineEvent) : List Bytes :=
  events.filterMap (fun event =>
    match event with
    | .localNode node => some node.selector.str
    | _ => none)

/-- Handling what a parser reports is following its local links. -/
theorem exec_dispatch (last : Option Fail)
    (hlast : ∀ f, last = some f → ∀ selector, f ≠ .exn (.duplicatedError selector)) :
    ∀ (events : List LineEvent) (m : Map) (site : Site),
      Represents settings m site → site ≠ [] →
      Outcome settings (fun site' => last = none ∧
          Follow fs settings site (localPaths events) site')
        (Prog.exec (forM events (parser fs.os settings).dispatch >>= fun _ => finish last)
          (m, ()))
  | [], m, site, h, _ => by
      cases last with
      | none => exact Or.inl ⟨m, site, rfl, h, rfl, .nil site⟩
      | some f => exact Or.inr ⟨f, (m, ()), rfl, hlast f rfl⟩
  | event :: events, m, site, h, hsite => by
      rw [List.forM_cons, bind_assoc]
      have hskip : (parser fs.os settings).dispatch event = pure () →
          localPaths (event :: events) = localPaths events →
          Outcome settings (fun site' => last = none ∧
              Follow fs settings site (localPaths (event :: events)) site')
            (Prog.exec ((parser fs.os settings).dispatch event >>= fun _ =>
              forM events (parser fs.os settings).dispatch >>= fun _ => finish last)
              (m, ())) := by
        intro hcall hpaths
        rw [hcall, hpaths, pure_bind]
        exact exec_dispatch last hlast events m site h hsite
      cases event with
      | localNode info =>
          have hcall : (parser fs.os settings).dispatch (.localNode info) =
              gotLocalNode fs.os info := rfl
          rw [hcall]
          rcases exec_gotLocalNode h hsite info with
            ⟨m', mid, hexec, hm', hstep⟩ | ⟨f, s, hexec, hf⟩
          · rw [Prog.exec_bind_ok hexec]
            have hmid : mid ≠ [] := by
              cases hstep with
              | skip _ => exact hsite
              | add _ _ _ => simp
            rcases exec_dispatch last hlast events m' mid hm' hmid with
              ⟨m'', site', hrun, hm'', hnone, hfollow⟩ | hfail
            · exact Or.inl ⟨m'', site', hrun, hm'', hnone, .cons hstep hfollow⟩
            · exact Or.inr hfail
          · exact Or.inr ⟨f, s, Prog.exec_bind_error hexec, hf⟩
      | remoteNode node => exact hskip rfl rfl
      | url url => exact hskip rfl rfl
      | text line => exact hskip rfl rfl

end Links

/-- A new map represents the empty site. -/
theorem represents_create {settings : Settings} {m : Map}
    (h : Map.create settings = .ok m) : Represents settings m [] := by
  unfold Map.create LookupMap.create at h
  cases hredirector : NodeRedirect.create settings with
  | error e => simp [hredirector, Except.map] at h
  | ok redirector =>
      simp only [hredirector, Except.map, Except.ok.injEq] at h
      rw [← h]
      exact ⟨rfl, Numbering.Names.empty, Numbering.Values.empty⟩

/-- What the loader makes of a root gophermap: the root, and what its links name. -/
theorem exec_load
    (fs : FileSys) {settings : Settings} {m : Map}
    (h : Represents settings m []) :
    Outcome settings (fun site => ∃ f node,
        fs.fopen (cStr settings.content.rootGophermap) = .ok f ∧
        (report settings f).2 = none ∧
        BuiltFor fs settings settings.content.rootGophermap node ∧
        Follow fs settings [(settings.content.rootGophermap, node)]
          (localPaths (report settings f).1) site)
      (Prog.exec (load fs.os settings) (m, ())) := by
  let root := settings.content.rootGophermap
  cases hopen : fs.fopen (cStr root) with
  | error e =>
      right
      have hcall : fs.os.fopen (cStr root) () = (.error e, ()) := by
        simp [FileSys.os, hopen]
      have hfeed : Prog.exec (outside (Util.Reader.feed fs.os root)) (m, ()) =
          (.error (.exn (.ioError (lit "fopen " ++ cStr root) e)), (m, ())) := by
        simp [outside, Util.Reader.exec_feed_error hcall]
      exact ⟨_, _, Prog.exec_bind_error hfeed, by simp⟩
  | ok f =>
      have hcall : fs.os.fopen (cStr root) () = (.ok f, ()) := by
        simp [FileSys.os, hopen]
      have hfeed : Prog.exec (outside (Util.Reader.feed fs.os root)) (m, ()) =
          (.ok (.opened f), (m, ())) := by
        simp [outside, Util.Reader.exec_feed_ok hcall]
      have hempty : root ∉ m.pathsMap.paths := by
        rw [h.names.mem_iff]
        simp
      have hname : (some [] : Option Bytes).getD (toDecimal 0) = siteName 0 := rfl
      obtain ⟨m', hdefine, hnamed⟩ := h.define hempty hname ()
      rw [load, Prog.exec_bind_ok hfeed, Prog.exec_bind_ok hdefine]
      rcases hnamed.exec_mknodeGopherMap () with
        ⟨g, m'', hg, hexec, hm''⟩ | ⟨fail, s, hexec, hfail⟩
      · have hparse := forEachLine_parseLine (parser fs.os settings) (Or.inl rfl) f
        have hlast : ∀ fail, (report settings f).2 = some fail →
            ∀ selector, fail ≠ .exn (.duplicatedError selector) := by
          intro fail hfail selector
          rcases report_failure hfail with hbad | ⟨e, rfl⟩
          · cases hbad <;> simp
          · simp
        rw [Prog.exec_bind_ok hexec, hparse]
        rcases exec_dispatch (report settings f).2 hlast (report settings f).1 m''
            [(root, .gopherMap g)] hm'' (by simp) with
          ⟨m₃, site, hrun, hm₃, hnone, hfollow⟩ | hfailed
        · exact Or.inl ⟨m₃, site, hrun, hm₃, f, .gopherMap g, rfl, hnone,
            .root rfl hg, hfollow⟩
        · exact Or.inr hfailed
      · right
        exact ⟨fail, s, Prog.exec_bind_error hexec, hfail.ne_duplicated⟩

/-- What is known about a map when its load has completed. -/
theorem of_load_completed
    {fs : FileSys} {settings : Settings} {m₀ m : Map}
    (hm₀ : Map.create settings = .ok m₀)
    (hload : Prog.exec (load fs.os settings) (m₀, ()) = (.ok (), (m, ()))) :
    ∃ site f node,
      fs.fopen (cStr settings.content.rootGophermap) = .ok f ∧
      Represents settings m site ∧
      (∀ e ∈ site, BuiltFor fs settings e.1 e.2) ∧
      site[0]? = some (settings.content.rootGophermap, node) ∧
      ∀ p, p ∈ m.pathsMap.paths ↔ p = settings.content.rootGophermap ∨
        p ∈ localPaths (report settings f).1 ∧ fs.stat (cStr p) ≠ .error ENOENT := by
  rcases exec_load fs (represents_create hm₀) with
    ⟨m', site, hexec, hm', f, node, hopen, -, hnode, hfollow⟩ | ⟨fail, s, hexec, -⟩
  · rw [hexec] at hload
    simp only [Prod.mk.injEq, true_and, and_true] at hload
    rw [hload] at hm'
    refine ⟨site, f, node, hopen, hm', hfollow.builtFor ?_, ?_, ?_⟩
    · intro e he
      rw [List.mem_singleton.mp he]
      exact hnode
    · exact List.prefix_iff_getElem?.mp hfollow.keeps 0 (by simp)
    · intro p
      rw [hm'.names.mem_iff, hfollow.mem_paths_iff]
      simp
  · rw [hexec] at hload
    simp at hload

/-- A file system with one file, and with one answer about every other path. -/
def oneFile (path content : Bytes) (others : Except Errno Nat) : FileSys where
  stat p := if p = path then .ok S_IFREG else others
  magicFile _ := none
  opendir _ := .ok ⟨[], none⟩
  openFile _ := .error ENOENT
  fstat _ := .error ENOENT
  fopen p := if p = path then .ok ⟨content, none⟩ else .error ENOENT

/-- The default settings, for a root gophermap with a short name. -/
def shortSettings : Settings where
  content := ⟨lit "map"⟩

/-- The map of these settings before a load. -/
def emptyMap : Map where
  lookupMap :=
    { settings := shortSettings
      urlRedirector :=
        ⟨⟨⟨NodeType.hypertext.code, lit "URL resolver", lit "URL:", lit "localhost", 70⟩,
          by decide⟩⟩
      nodes := ∅ }
  pathsMap := ⟨∅⟩

/-- The node of the root gophermap. -/
def rootNode : NodeGopherMap where
  info := ⟨NodeType.menu.code, lit "display", [], lit "localhost", 70⟩
  tab_not_mem := by decide
  settings := shortSettings
  filePath := lit "map"

/-- The node of a linked directory. -/
def docsNode : NodeFSys where
  info := ⟨NodeType.menu.code, lit "docs", lit "1", lit "localhost", 70⟩
  tab_not_mem := by decide
  rootPath := lit "docs/"
  rootPath_slash := by decide

/-- The map of a root gophermap that links to nothing. -/
def rootMap : Map where
  lookupMap :=
    { emptyMap.lookupMap with nodes := AList.insert [] (.gopherMap rootNode) ∅ }
  pathsMap := ⟨AList.insert (lit "map") [] ∅⟩

/-- The map of a root gophermap that links to the directory `docs`. -/
def docsMap : Map where
  lookupMap :=
    { rootMap.lookupMap with
      nodes := AList.insert (lit "1") (.fsys docsNode) rootMap.lookupMap.nodes }
  pathsMap := ⟨AList.insert (lit "docs") (lit "1") rootMap.pathsMap.paths⟩

end Goofy
