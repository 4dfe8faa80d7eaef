import Goofy.ErrorMenus
import Goofy.Gopher.InternalErrors
import Goofy.Gopher.Listing
import Goofy.Gopher.ListingMenu
import Goofy.MapGrowth
import Goofy.Serving
import Goofy.SiteRouting

/-!
# Links that lead somewhere

Following the links of the server, a client of an unchanging file system never gets a
user error.  `Alive` says that of one selector; `Coherent` is what the file system has to
do for it: repeated slashes are one, and a directory is there under its name with a slash
behind it.

Every menu of a loaded map is the menu of its `Calls`, one for each line of a gophermap or
each entry of a listing.  Every link among them was either written out by the author of a
gophermap, with a host of its own, or is listed for a file of no known kind, or is for this
server and alive (`served_links_alive`).
-/

namespace Goofy

open Delimited Effect Util Gopher MapParser Loader Rfc1436

/-- Paths are resolved as usual, the limit on their length aside. -/
structure FileSys.Coherent (fs : FileSys) : Prop where
  stat : ∀ p p', squeeze SLASH p = squeeze SLASH p' → fs.stat p = fs.stat p'
  magicFile : ∀ p p', squeeze SLASH p = squeeze SLASH p' → fs.magicFile p = fs.magicFile p'
  closed : ∀ p mode, fs.stat p = .ok mode → fileType mode = S_IFDIR →
    fs.stat (p ++ [SLASH]) = .ok mode
  present : ∀ p mode, fs.stat p = .ok mode → fileType mode = S_IFDIR →
    fs.opendir p ≠ .error ENOENT

/-- A request with this line is answered, or fails without a user error. -/
def Alive (fs : FileSys) (m : Map) (line : Bytes) : Prop :=
  ∀ f, (Prog.exec (m.serve fs.os ⟨line⟩) ()).1 = .error f → Internal f

/-- A call that a remote link of a gophermap leads to. -/
def Remote (fs : FileSys) (m : Map) (r : Request) (info : NodeInfo) : Prop :=
  ∃ g file line node, m.lookupMap.lookup r = .ok (.gopherMap g) ∧
    fs.fopen (cStr g.filePath) = .ok file ∧ line ∈ file.lines.1 ∧
    classify g.settings (.of line.str) = .ok (.remoteNode node) ∧
    info = ⟨node.type, node.displayName.str, node.selector.str, node.hostname.str, node.port⟩

/-- An entry of a listed directory that leads to a file of no known kind. -/
def UnknownKind (fs : FileSys) (m : Map) (r : Request) (info : NodeInfo) : Prop :=
  ∃ n data dir ent, m.lookupMap.lookup r = .ok (.fsys n) ∧
    Prog.exec (n.analyzeRequest fs.os r) () = (.ok data, ()) ∧
    fs.opendir (cStr data.fsysPath) = .ok dir ∧ ent ∈ dir.entries ∧
    Prog.exec (GopherTypeGuesser.typeOf fs.os (NodeFSys.entryPath data ent)) () =
      (.ok .error, ()) ∧
    info = n.entryInfo data .error ent

/-- The calls of the menu writer that answer a request: one for each line of a gophermap, or
one for each entry of a directory that is not hidden. -/
inductive Calls (fs : FileSys) (m : Map) (r : Request) : List MenuCall → Prop
  | gophermap {g : NodeGopherMap} {file : FileStream} {calls : List MenuCall}
      (hlookup : m.lookupMap.lookup r = .ok (.gopherMap g))
      (hopen : fs.fopen (cStr g.filePath) = .ok file)
      (hlines : List.Forall₂ (fun line c => g.callOf m.pathsMap line = .ok c)
        file.lines.1 calls) :
      Calls fs m r calls
  | listing {n : NodeFSys} {data : RequestData} {dir : DirStream}
      {typed : List (DirEntry × Option NodeType)}
      (hlookup : m.lookupMap.lookup r = .ok (.fsys n))
      (hdata : Prog.exec (n.analyzeRequest fs.os r) () = (.ok data, ()))
      (hopen : fs.opendir (cStr data.fsysPath) = .ok dir)
      (htyped : NodeFSys.Typed fs.os data () dir.entries typed ()) :
      Calls fs m r (typed.map (n.listCall data))

section Coherence

variable {fs : FileSys}

/-- What the type guesser finds in a file system that does not change. -/
theorem exec_typeOf
    (fs : FileSys) (path : Bytes) :
    Prog.exec (GopherTypeGuesser.typeOf fs.os path) () =
      match fs.stat (cStr path) with
      | .error e => (.error (.exn (.ioError (lit "stat") e)), ())
      | .ok mode =>
          (if fileType mode = S_IFREG then GopherTypeGuesser.ofMagic (fs.magicFile (cStr path))
            else if fileType mode = S_IFDIR then .ok .menu else .ok .error, ()) := by
  cases hstat : fs.stat (cStr path) with
  | error e =>
      have hcall : fs.os.stat (cStr path) () = (.error e, ()) := by
        simp [FileSys.os, hstat]
      exact Prog.exec_bind_error (exec_sysCallWith_error _ hcall)
  | ok mode =>
      have hcall : fs.os.stat (cStr path) () = (.ok mode, ()) := by
        simp [FileSys.os, hstat]
      have hmode : Prog.exec (modeOf fs.os path) () = (.ok mode, ()) :=
        exec_sysCallWith_ok _ hcall
      rw [GopherTypeGuesser.typeOf, Prog.exec_bind_ok hmode]
      by_cases hreg : fileType mode = S_IFREG
      · simp only [if_pos hreg]
        rfl
      · by_cases hdir : fileType mode = S_IFDIR
        · simp only [if_neg hreg, if_pos hdir]
          rfl
        · simp only [if_neg hreg, if_neg hdir]
          rfl

/-- Guessing gives a menu for directories only, and never gives some of the types. -/
theorem typeOf_cases
    {path : Bytes} {type : NodeType}
    (htype : Prog.exec (GopherTypeGuesser.typeOf fs.os path) () = (.ok type, ())) :
    type ≠ .info ∧ type ≠ .hypertext ∧
      (type = .menu → ∃ mode, fs.stat (cStr path) = .ok mode ∧ fileType mode = S_IFDIR) := by
  rw [exec_typeOf] at htype
  cases hstat : fs.stat (cStr path) with
  | error e => simp [hstat] at htype
  | ok mode =>
      rw [hstat] at htype
      have htype := congrArg Prod.fst htype
      simp only at htype
      split_ifs at htype with hreg hdir
      · cases hmagic : fs.magicFile (cStr path) with
        | none => simp [hmagic, GopherTypeGuesser.ofMagic] at htype
        | some got =>
            simp only [hmagic, GopherTypeGuesser.ofMagic] at htype
            split_ifs at htype
            all_goals
              obtain rfl := Except.ok.inj htype
              simp
      · obtain rfl := Except.ok.inj htype
        exact ⟨by simp, by simp, fun _ => ⟨mode, rfl, hdir⟩⟩
      · obtain rfl := Except.ok.inj htype
        simp

/-- A directory is guessed as a menu. -/
theorem typeOf_directory
    {path : Bytes} {mode : Nat}
    (hstat : fs.stat (cStr path) = .ok mode) (hdir : fileType mode = S_IFDIR) :
    Prog.exec (GopherTypeGuesser.typeOf fs.os path) () = (.ok .menu, ()) := by
  have hne : ¬ S_IFDIR = S_IFREG := by
    decide
  rw [exec_typeOf, hstat]
  simp only [hdir, if_neg hne, if_true]

/-- Repeated slashes do not matter to the C strings either. -/
theorem squeeze_cStr
    {p p' : Bytes} (h : squeeze SLASH p = squeeze SLASH p') :
    squeeze SLASH (cStr p) = squeeze SLASH (cStr p') := by
  have hne : SLASH ≠ NUL := by
    decide
  rw [cStr, cStr, squeeze_upTo hne, squeeze_upTo hne, h]

/-- The same file has the same type. -/
theorem FileSys.Coherent.typeOf
    (hfs : fs.Coherent) {p p' : Bytes} (h : squeeze SLASH p = squeeze SLASH p') :
    Prog.exec (GopherTypeGuesser.typeOf fs.os p) () =
      Prog.exec (GopherTypeGuesser.typeOf fs.os p') () := by
  have hcStr := squeeze_cStr h
  rw [exec_typeOf, exec_typeOf, hfs.stat _ _ hcStr, hfs.magicFile _ _ hcStr]

/-- A directory with a slash behind it is a directory, as a C string too. -/
theorem FileSys.Coherent.stat_closed
    (hfs : fs.Coherent) {p : Bytes} {mode : Nat}
    (hstat : fs.stat (cStr p) = .ok mode) (hdir : fileType mode = S_IFDIR) :
    fs.stat (cStr (p ++ [SLASH])) = .ok mode := by
  by_cases hnul : NUL ∈ p
  · have hcut : cStr (p ++ [SLASH]) = cStr p := upTo_append_of_mem hnul _
    rw [hcut, hstat]
  · have hself : cStr p = p := upTo_of_not_mem hnul
    have hcut : cStr (p ++ [SLASH]) = p ++ [SLASH] := by
      have happend : cStr (p ++ [SLASH]) = p ++ cStr [SLASH] := upTo_append_of_not_mem hnul _
      rw [happend]
      rfl
    rw [hself] at hstat
    rw [hcut]
    exact hfs.closed p mode hstat hdir

end Coherence

section Links

variable {fs : FileSys} {settings : Settings} {m : Map}

/-- A file system node answers without a user error when the path of the request was found
and its type is known. -/
theorem internal_of_fsys
    (hfs : fs.Coherent) {n : NodeFSys} {r : Request}
    (hpath : r.asPath = .error .hang ∨
      ∃ p type, r.asPath = .ok p ∧ type ≠ .error ∧
        Prog.exec (GopherTypeGuesser.typeOf fs.os (n.requestPaths p).1) () = (.ok type, ())) :
    ∀ f, (Prog.exec (n.makeWriter fs.os r) ()).1 = .error f → Internal f := by
  rcases hpath with hhang | ⟨p, type, hp, hne, htype⟩
  · have hanalyze : Prog.exec (n.analyzeRequest fs.os r) () = (.error .hang, ()) := by
      rw [NodeFSys.analyzeRequest, hhang]
      rfl
    rw [NodeFSys.makeWriter, Prog.exec_bind_error hanalyze]
    intro f hf
    rw [← Except.error.inj hf]
    exact internal_abort (by simp)
  · obtain ⟨hinfo, hhypertext, hmenu⟩ := typeOf_cases htype
    have hanalyze := (NodeFSys.exec_analyzeRequest_eq_ok_iff fs n r _).mpr
      ⟨p, type, hp, htype, rfl⟩
    rw [NodeFSys.makeWriter, Prog.exec_bind_ok hanalyze]
    refine (exits_answer_internal fs.os n _ ⟨hne, hinfo, hhypertext⟩ ?_ () trivial).2
    rintro rfl w
    obtain ⟨mode, hstat, hdir⟩ := hmenu rfl
    exact hfs.present _ mode (hfs.stat_closed hstat hdir) hdir

/-- The selector of a listed entry of known type is alive. -/
theorem alive_entry
    (hfs : fs.Coherent) {n : NodeFSys} {k : Nat}
    (hnode : m.lookupMap.nodes.lookup (toDecimal k) = some (.fsys n))
    (hname : n.info.selector = toDecimal k)
    {r : Request} {data : RequestData}
    (hdata : Prog.exec (n.analyzeRequest fs.os r) () = (.ok data, ()))
    (hmenu : data.nodeType = .menu)
    {ent : DirEntry} {type : NodeType} (hvisible : NodeFSys.hidden ent.name = false)
    (htype : Prog.exec (GopherTypeGuesser.typeOf fs.os (NodeFSys.entryPath data ent)) () =
      (.ok type, ()))
    (hne : type ≠ .error) :
    Alive fs m (n.entryInfo data type ent).selector := by
  obtain ⟨p, found, hpath, -, hfound⟩ :=
    (NodeFSys.exec_analyzeRequest_eq_ok_iff fs n r data).mp hdata
  obtain ⟨comps, hcomps, hp⟩ := Request.exists_accepted_of_asPath hpath
  obtain rfl : found = .menu := by
    rw [hfound] at hmenu
    exact hmenu
  have hfsys : data.fsysPath = (n.requestPaths p).1 ++ [SLASH] := by
    rw [hfound]
    rfl
  have hselector : data.selectorPath = (n.requestPaths p).2 ++ [SLASH] := by
    rw [hfound]
    rfl
  have hlink : (n.entryInfo data type ent).selector =
      toDecimal k ++ SLASH :: ((if p = [] then [] else p ++ [SLASH]) ++ ent.name) := by
    simp only [NodeFSys.entryInfo, hselector, n.selectorPath_of_menu, hname,
      List.append_assoc, List.cons_append]
  have hlookup : m.lookupMap.lookup ⟨(n.entryInfo data type ent).selector⟩ =
      .ok (.fsys n) := by
    rw [hlink]
    exact LookupMap.lookup_toDecimal hnode (Or.inr rfl)
  intro f hf
  rw [exec_serve_of_lookup fs.os hlookup] at hf
  refine internal_of_fsys hfs ?_ f hf
  by_cases hlen : (n.entryInfo data type ent).selector.length < 2 ^ 32
  · obtain ⟨q, hq, hsqueeze⟩ :=
      (leadsTo_entry fs hname hcomps hp hfsys hselector type hvisible hlen).asPath
    exact Or.inr ⟨q, type, hq, hne, (hfs.typeOf hsqueeze).trans htype⟩
  · refine Or.inl (Request.asPath_hang ?_ (by simpa using hlen))
    rw [hlink]
    exact Request.isUrl_of_toDecimal k _

/-- A URL link is alive: the redirector takes it. -/
theorem alive_url
    (fs : FileSys) (m : Map) {href : Bytes} (hhref : find (lit "URL:") href = some 0) :
    Alive fs m href := by
  intro f hf
  rw [exec_serve_of_lookup fs.os (m.lookupMap.lookup_url hhref).1] at hf
  exact (exits_redirect_internal m.lookupMap.urlRedirector ⟨href⟩ () trivial).2 f hf

/-- A name of a site is a request for its node, with no path. -/
theorem asPath_siteName
    (i : ℕ) :
    (⟨siteName i⟩ : Request).asPath = .ok [] ∨ (⟨siteName i⟩ : Request).asPath = .error .hang := by
  have hurl : (⟨siteName i⟩ : Request).isUrl = false := by
    unfold siteName
    split_ifs
    · exact Request.isUrl_eq_false_of_head (by simp)
    · simpa using Request.isUrl_of_toDecimal i []
  have hslash : SLASH ∉ siteName i := by
    unfold siteName
    split_ifs
    · simp
    · exact slash_not_mem_toDecimal i
  by_cases hlen : (siteName i).length < 2 ^ 32
  · have hbelow : (⟨siteName i⟩ : Request).below = [] := by
      simp [Request.below, List.splitOn_eq_singleton hslash]
    left
    rw [Request.asPath_eq hurl hlen, hbelow]
    rfl
  · exact Or.inr (Request.asPath_hang hurl (by simpa using hlen))

/-- The constructor of a file system node was given a directory, which is its root. -/
theorem of_create_fsys
    {p displayName selector : Bytes} {n : NodeFSys}
    (hn : Prog.exec (NodeFSys.create fs.os settings p displayName selector) () = (.ok n, ())) :
    n.info.host = settings.self.hostname ∧ n.info.port = settings.self.port ∧
      (n.rootPath = p ∨ n.rootPath = p ++ [SLASH]) ∧
      ∃ mode, fs.stat (cStr p) = .ok mode ∧ fileType mode = S_IFDIR := by
  unfold NodeFSys.create at hn
  obtain ⟨node, w₁, hnode, hn⟩ := (Prog.exec_bind_eq_ok_iff _ _ _ _ _).mp hn
  obtain ⟨root, w₂, hroot, hn⟩ := (Prog.exec_bind_eq_ok_iff _ _ _ _ _).mp hn
  obtain ⟨mode, w₃, hmode, hn⟩ := (Prog.exec_bind_eq_ok_iff _ _ _ _ _).mp hn
  have hcreate : Node.create .menu displayName selector settings.self.hostname
      settings.self.port = .ok node := by
    cases hcreate : Node.create .menu displayName selector settings.self.hostname
        settings.self.port with
    | error e => simp [liftExn, hcreate, Except.mapError] at hnode
    | ok node' =>
        simp only [liftExn, hcreate, Except.mapError, Prog.exec_lift, Prod.mk.injEq,
          Except.ok.injEq] at hnode
        rw [hnode.1]
  have hinfo := Node.info_of_create_eq_ok hcreate
  have hstat : fs.stat (cStr p) = .ok mode :=
    congrArg Prod.fst ((exec_sysCallWith_eq_ok_iff _ _ _ _ _).mp hmode)
  split_ifs at hn with hdir
  · simp at hn
  · simp only [Prog.exec_pure, Prod.mk.injEq, Except.ok.injEq] at hn
    obtain ⟨rfl, -⟩ := hn
    refine ⟨by rw [hinfo], by rw [hinfo], ?_, mode, hstat, not_not.mp hdir⟩
    have hrootOf : NodeFSys.rootOf p = .ok root := congrArg Prod.fst hroot
    unfold NodeFSys.rootOf at hrootOf
    split_ifs at hrootOf
    · rw [← Except.ok.inj hrootOf]
      exact Or.inl rfl
    · rw [← Except.ok.inj hrootOf]
      exact Or.inr rfl

/-- The selector that a loaded map gave to a path is alive. -/
theorem alive_path
    (hfs : fs.Coherent) (hroutes : RoutesBack fs settings m)
    {p : Bytes} {i : ℕ} (hpath : m.pathsMap.paths.lookup p = some (siteName i)) :
    Alive fs m (siteName i) := by
  obtain ⟨node, hnode, hbuilt⟩ := hroutes.node p _ hpath
  have hlookup : m.lookupMap.lookup ⟨siteName i⟩ = .ok node := by
    by_cases hroot : p = settings.content.rootGophermap
    · rw [hroot, hroutes.root] at hpath
      rw [← Option.some.inj hpath] at hnode ⊢
      exact hroutes.rootRoute node hnode 0
    · simpa using hroutes.route p _ node hpath hroot hnode [] (Or.inl rfl)
  intro f hf
  rw [exec_serve_of_lookup fs.os hlookup] at hf
  cases hbuilt with
  | @root _ g _ _ => exact (exits_gopherMap_internal fs.os g _ () trivial).2 f hf
  | @file _ g _ _ _ _ => exact (exits_gopherMap_internal fs.os g _ () trivial).2 f hf
  | @directory _ _ n hn =>
      obtain ⟨-, -, hrootPath, mode, hstat, hdir⟩ := of_create_fsys hn
      refine internal_of_fsys hfs ?_ f hf
      rcases asPath_siteName i with hok | hhang
      · refine Or.inr ⟨[], .menu, hok, by simp, ?_⟩
        have hself : (n.requestPaths []).1 = n.rootPath := rfl
        rw [hself]
        rcases hrootPath with hsame | hclosed
        · rw [hsame]
          exact typeOf_directory hstat hdir
        · rw [hclosed]
          exact typeOf_directory (hfs.stat_closed hstat hdir) hdir
      · exact Or.inl hhang

/-- An outcome with a type is that of a visible entry. -/
theorem of_mem_typed
    {data : RequestData} {entries : List DirEntry}
    {typed : List (DirEntry × Option NodeType)} {w w' : Unit}
    (h : NodeFSys.Typed fs.os data w entries typed w')
    {ent : DirEntry} {type : NodeType} (hmem : (ent, some type) ∈ typed) :
    ent ∈ entries ∧ NodeFSys.hidden ent.name = false ∧
      Prog.exec (GopherTypeGuesser.typeOf fs.os (NodeFSys.entryPath data ent)) () =
        (.ok type, ()) := by
  induction h with
  | nil w =>
      cases hmem
  | skipped _ _ ih =>
      exact ⟨List.mem_cons_of_mem _ (ih hmem).1, (ih hmem).2⟩
  | known hvisible htype _ ih =>
      rcases List.mem_cons.mp hmem with heq | hmem
      · simp only [Prod.mk.injEq, Option.some.injEq] at heq
        obtain ⟨rfl, rfl⟩ := heq
        exact ⟨List.mem_cons_self, hvisible, htype⟩
      · exact ⟨List.mem_cons_of_mem _ (ih hmem).1, (ih hmem).2⟩
  | failed _ _ _ ih =>
      rcases List.mem_cons.mp hmem with heq | hmem
      · simp at heq
      · exact ⟨List.mem_cons_of_mem _ (ih hmem).1, (ih hmem).2⟩

/-- A menu of a file system node is the listing of the directory that was asked for. -/
theorem listDir_of_makeWriter
    {ω : Type} {os : Os ω} {n : NodeFSys} {r : Request} {writer : MenuWriter} {w w' : ω}
    (h : Prog.exec (n.makeWriter os r) w = (.ok (.menu writer), w')) :
    ∃ data w₁, Prog.exec (n.analyzeRequest os r) w = (.ok data, w₁) ∧
      data.nodeType = .menu ∧ Prog.exec (n.listDir os data) w₁ = (.ok (.menu writer), w') := by
  obtain ⟨data, w₁, hdata, hanswer⟩ := (Prog.exec_bind_eq_ok_iff _ _ _ _ _).mp h
  have hfile : Prog.exec (NodeFSys.sendFile os data) w₁ ≠ (.ok (.menu writer), w') := by
    intro hsend
    obtain ⟨fd, w₂, -, hrest⟩ := (Prog.exec_bind_eq_ok_iff _ _ _ _ _).mp hsend
    obtain ⟨f, w₃, -, hpure⟩ := (Prog.exec_bind_eq_ok_iff _ _ _ _ _).mp hrest
    simp at hpure
  refine ⟨data, w₁, hdata, ?_⟩
  unfold NodeFSys.answer at hanswer
  cases htype : data.nodeType with
  | menu =>
      rw [htype] at hanswer
      exact ⟨rfl, hanswer⟩
  | plain =>
      rw [htype] at hanswer
      exact absurd hanswer hfile
  | binary =>
      rw [htype] at hanswer
      exact absurd hanswer hfile
  | gif =>
      rw [htype] at hanswer
      exact absurd hanswer hfile
  | image =>
      rw [htype] at hanswer
      exact absurd hanswer hfile
  | error =>
      rw [htype] at hanswer
      simp at hanswer
  | info =>
      rw [htype] at hanswer
      simp at hanswer
  | hypertext =>
      rw [htype] at hanswer
      simp at hanswer

/-- A link of this server, which leads somewhere. -/
def Leads (fs : FileSys) (settings : Settings) (m : Map) (info : NodeInfo) : Prop :=
  info.host = settings.self.hostname ∧ info.port = settings.self.port ∧
    Alive fs m info.selector

/-- The links of a listing lead somewhere, unless they are for files of no known kind. -/
theorem leads_of_listing
    (hfs : fs.Coherent) {n : NodeFSys} {k : Nat}
    (hnode : m.lookupMap.nodes.lookup (toDecimal k) = some (.fsys n))
    (hname : n.info.selector = toDecimal k)
    (hself : n.info.host = settings.self.hostname ∧ n.info.port = settings.self.port)
    {r : Request} (hlookup : m.lookupMap.lookup r = .ok (.fsys n))
    {writer : MenuWriter}
    (h : Prog.exec (n.makeWriter fs.os r) () = (.ok (.menu writer), ())) :
    ∃ calls, Calls fs m r calls ∧ writer = MenuWriter.run {} calls ∧
      ∀ info, .node info ∈ calls → UnknownKind fs m r info ∨ Leads fs settings m info := by
  obtain ⟨data, _, hdata, hmenu, hlist⟩ := listDir_of_makeWriter h
  obtain ⟨dir, _, typed, hopendir, htyped, hbody⟩ := NodeFSys.exists_typed_of_listDir hlist
  have hopen : fs.opendir (cStr data.fsysPath) = .ok dir := congrArg Prod.fst hopendir
  refine ⟨typed.map (n.listCall data), .listing hlookup hdata hopen htyped,
    by simpa using hbody, ?_⟩
  intro info hinfo
  obtain ⟨⟨ent, type⟩, hmem, hcall⟩ := List.mem_map.mp hinfo
  cases type with
  | none =>
      simp [NodeFSys.listCall] at hcall
  | some type =>
      obtain ⟨hent, hvisible, htype⟩ := of_mem_typed htyped hmem
      simp only [NodeFSys.listCall, MenuCall.node.injEq] at hcall
      obtain rfl := hcall
      by_cases herror : type = .error
      · subst herror
        exact .inl ⟨n, data, dir, ent, hlookup, hdata, hopen, hent, htype, rfl⟩
      · refine .inr ⟨hself.1, hself.2, ?_⟩
        exact alive_entry hfs hnode hname hdata hmenu hvisible htype herror

/-- The links of a gophermap are remote, or lead somewhere. -/
theorem leads_of_gophermap
    (hfs : fs.Coherent) (hroutes : RoutesBack fs settings m)
    (hnames : ∀ p v, m.pathsMap.paths.lookup p = some v → ∃ i, v = siteName i)
    {g : NodeGopherMap} (hsettings : g.settings = settings)
    {r : Request} (hlookup : m.lookupMap.lookup r = .ok (.gopherMap g))
    {writer : MenuWriter}
    (h : Prog.exec (g.makeWriter fs.os m.pathsMap) () = (.ok (.menu writer), ())) :
    ∃ calls, Calls fs m r calls ∧ writer = MenuWriter.run {} calls ∧
      ∀ info, .node info ∈ calls → Remote fs m r info ∨ Leads fs settings m info := by
  obtain ⟨file, writer', hopen, hmenu, hbody⟩ :=
    (g.exec_makeWriter_eq_ok_iff fs.os m.pathsMap () () _).mp h
  obtain ⟨-, calls, hcalls, hrun⟩ := (g.writeMenu_eq_ok_iff m.pathsMap file writer').mp hmenu
  have hopen : fs.fopen (cStr g.filePath) = .ok file := congrArg Prod.fst hopen
  refine ⟨calls, .gophermap hlookup hopen hcalls, by rw [← hrun]; simpa using hbody, ?_⟩
  intro info hinfo
  obtain ⟨line, hline, hcall⟩ := NodeGopherMap.exists_line_of_mem_calls hcalls hinfo
  obtain ⟨event, hclassify, hevent⟩ := NodeGopherMap.exists_event_of_callOf hcall
  cases event with
  | localNode node =>
      cases hpath : m.pathsMap.virtualPathOf node.selector.str with
      | error f => simp [NodeGopherMap.lineCall, hpath, Except.map] at hevent
      | ok v =>
          simp only [NodeGopherMap.lineCall, hpath, Except.map, Except.ok.injEq,
            MenuCall.node.injEq] at hevent
          obtain rfl := hevent
          have hlookup' := (m.pathsMap.virtualPathOf_eq_ok_iff _ _).mp hpath
          obtain ⟨i, rfl⟩ := hnames _ _ hlookup'
          refine Or.inr ⟨by rw [hsettings], by rw [hsettings], ?_⟩
          exact alive_path hfs hroutes hlookup'
  | remoteNode node =>
      have hnode := Except.ok.inj hevent
      simp only [MenuCall.node.injEq] at hnode
      exact Or.inl ⟨g, file, line, node, hlookup, hopen, hline, hclassify, hnode.symm⟩
  | url url =>
      have hnode := Except.ok.inj hevent
      simp only [MenuCall.node.injEq] at hnode
      obtain rfl := hnode
      refine Or.inr ⟨by rw [hsettings], by rw [hsettings], ?_⟩
      exact alive_url fs m (find_url_of_classify hclassify)
  | text text =>
      simp [NodeGopherMap.lineCall] at hevent

/-- A request that is no URL selects a node of the table. -/
theorem nodes_of_lookup
    {lm : LookupMap} {r : Request} {node : AnyNode} (hlookup : lm.lookup r = .ok node)
    (hnode : ∀ n, node ≠ .redirect n) :
    lm.nodes.lookup r.selector = some node := by
  unfold LookupMap.lookup at hlookup
  split_ifs at hlookup with hurl
  · exact absurd (Except.ok.inj hlookup).symm (hnode _)
  · cases hfound : lm.nodes.lookup r.selector with
    | none => simp [hfound] at hlookup
    | some found =>
        rw [hfound] at hlookup
        rw [Except.ok.inj hlookup]

/-- The file system nodes of a site are for this server. -/
theorem self_of_site
    {site : Site} (hbuilt : ∀ e ∈ site, BuiltFor fs settings e.1 e.2)
    {i : ℕ} {n : NodeFSys} (hi : (site.map Prod.snd)[i]? = some (.fsys n)) :
    n.info.host = settings.self.hostname ∧ n.info.port = settings.self.port := by
  rw [List.getElem?_map, Option.map_eq_some_iff] at hi
  obtain ⟨⟨p, node⟩, he, hnode⟩ := hi
  obtain rfl : node = .fsys n := hnode
  cases hbuilt _ (List.mem_of_getElem? he) with
  | directory hn =>
      obtain ⟨hhost, hport, -, -⟩ := of_create_fsys hn
      exact ⟨hhost, hport⟩

end Links

/-- The root of a loaded map is alive, and every menu that answers a request is the menu of
the calls for its lines or entries, and decodes to them when their texts are clean.  Every
link among the calls leads to this server and to something that it answers without a user
error, or is a remote link of a gophermap, or is listed for a file of no known kind. -/
theorem served_links_alive
    (fs : FileSys) (settings : Settings) (m₀ m : Map)
    (hfs : fs.Coherent)
    (hm₀ : Map.create settings = .ok m₀)
    (hload : Prog.exec (load fs.os settings) (m₀, ()) = (.ok (), (m, ()))) :
    Alive fs m [] ∧
      ∀ r writer, Prog.exec (m.serve fs.os r) () = (.ok (.menu writer), ()) →
        ∃ calls, Calls fs m r calls ∧ writer = MenuWriter.run {} calls ∧
          ((∀ c ∈ calls, c.Clean) →
            decode writer.beforeWrite.buffer = some (calls.map MenuCall.entry)) ∧
          ∀ info, .node info ∈ calls →
            Remote fs m r info ∨ UnknownKind fs m r info ∨ Leads fs settings m info := by
  obtain ⟨site, rootFile, node, -, hm, hbuilt, hroot, -⟩ := of_load_completed hm₀ hload
  have hroutes := routesBack_of_represents hm hroot hbuilt
  have hkeyed := keyed_of_load hm₀ hload
  obtain ⟨root, hrootNode⟩ := exists_root_of_load hm₀ hload
  have hnames : ∀ p v, m.pathsMap.paths.lookup p = some v → ∃ i, v = siteName i := by
    intro p v hp
    obtain ⟨i, -, hv⟩ := (hm.names.lookup p v).mp hp
    exact ⟨i, hv⟩
  refine ⟨alive_path (i := 0) hfs hroutes hroutes.root, ?_⟩
  intro r writer hserved
  cases hlookup : m.lookupMap.lookup r with
  | error e =>
      rw [Gopher.Map.serve, hlookup] at hserved
      cases hserved
  | ok node =>
      rw [exec_serve_of_lookup fs.os hlookup] at hserved
      cases node with
      | redirect n =>
          obtain ⟨page, _, -, hpage⟩ := (Prog.exec_bind_eq_ok_iff _ _ _ _ _).mp hserved
          simp at hpage
      | gopherMap g =>
          have hnode := nodes_of_lookup hlookup (by simp)
          have hsettings := settings_of_loaded hm hbuilt hnode
          obtain ⟨calls, hcalls, rfl, hleads⟩ :=
            leads_of_gophermap hfs hroutes hnames hsettings hlookup hserved
          exact ⟨calls, hcalls, rfl, decode_run,
            fun info hinfo => (hleads info hinfo).imp_right .inr⟩
      | fsys n =>
          have hnode := nodes_of_lookup hlookup (by simp)
          obtain ⟨i, hi, hselector⟩ := (hm.nodes _ _).mp hnode
          have hpos : i ≠ 0 := by
            rintro rfl
            rw [hselector] at hnode
            cases hrootNode.symm.trans hnode
          rw [siteName, if_neg hpos] at hselector
          have hname : n.info.selector = toDecimal i := by
            rw [← hselector]
            exact hkeyed _ _ hnode
          rw [hselector] at hnode
          obtain ⟨calls, hcalls, rfl, hleads⟩ :=
            leads_of_listing hfs hnode hname (self_of_site hbuilt hi) hlookup hserved
          exact ⟨calls, hcalls, rfl, decode_run, fun info hinfo => .inr (hleads info hinfo)⟩

/-- Every path is a directory with one entry, and every file links to a directory. -/
def endlessDocs : FileSys where
  stat _ := .ok S_IFDIR
  magicFile _ := none
  opendir _ := .ok ⟨[⟨lit "doc", by decide, by decide, by decide⟩], none⟩
  openFile _ := .error ENOENT
  fstat _ := .error ENOENT
  fopen _ := .ok ⟨lit "1docs\tdocs\n", none⟩

theorem coherent_endlessDocs : endlessDocs.Coherent where
  stat _ _ _ := rfl
  magicFile _ _ _ := rfl
  closed _ _ hstat _ := hstat
  present _ _ _ _ := by simp [endlessDocs]

/-- The root, and the link to the one entry of its directory. -/
theorem endlessDocs_links_alive :
    Alive endlessDocs docsMap [] ∧ Alive endlessDocs docsMap (lit "1/doc") := by
  have halive := served_links_alive endlessDocs shortSettings emptyMap docsMap
    coherent_endlessDocs rfl rfl
  refine ⟨halive.1, ?_⟩
  obtain ⟨calls, hcalls, -, -, hlinks⟩ := halive.2 ⟨lit "1"⟩ _ rfl
  have hdocs : docsMap.lookupMap.lookup ⟨lit "1"⟩ = .ok (.fsys docsNode) := rfl
  have hanalyzed : Prog.exec (docsNode.analyzeRequest endlessDocs.os ⟨lit "1"⟩) () =
      (.ok ⟨.menu, lit "docs//", lit "1/", []⟩, ()) := rfl
  cases hcalls with
  | gophermap hlookup => exact absurd (hdocs.symm.trans hlookup) (by simp)
  | listing hlookup hdata hopen htyped =>
      cases hdocs.symm.trans hlookup
      cases hanalyzed.symm.trans hdata
      cases hopen
      cases htyped with
      | skipped hhidden => exact absurd hhidden (by decide)
      | failed _ htype => cases htype
      | known _ htype hrest =>
          cases htype
          cases hrest
          rcases hlinks _ List.mem_cons_self with hremote | hunknown | hleads
          · obtain ⟨g, _, _, _, hroot, -⟩ := hremote
            exact absurd (hdocs.symm.trans hroot) (by simp)
          · obtain ⟨_, _, _, _, -, -, -, -, htype, -⟩ := hunknown
            cases htype
          · exact hleads.2.2

end Goofy
