import Goofy.LiveLinks
import Goofy.StableSelectors

/-!
# Browsing a server

A client starts at the root, decodes the menus that it gets, and follows the links to
this server (`Browsed`).  Below an exported directory it finds every file that no dot
hides: whatever is `Visible` there is browsed, under the selector of the directory with
the names on the way behind it, and a file is served under its selector
(`visible_files_browsed`).

The induction goes down the visible path.  Its invariant is that the directory so far
was browsed, so that its listing gives the link to the next name.
-/

namespace Goofy

open Delimited Effect Util Gopher MapParser Loader Rfc1436

/-- Repeated slashes do not matter to the calls that open something, either. -/
structure FileSys.Resolving (fs : FileSys) : Prop extends FileSys.Coherent fs where
  opendir : ∀ p p', squeeze SLASH p = squeeze SLASH p' → fs.opendir p = fs.opendir p'
  openFile : ∀ p p', squeeze SLASH p = squeeze SLASH p' → fs.openFile p = fs.openFile p'

/-- What a client can ask for: the root, and what the menus that it gets link to on this
server. -/
inductive Browsed (fs : FileSys) (settings : Settings) (m : Map) : Bytes → Prop
  | root :
      Browsed fs settings m []
  | link {line : Bytes} {writer : MenuWriter} {entries : List Entry} {e : Entry}
      (hline : Browsed fs settings m line)
      (hserved : Prog.exec (m.serve fs.os ⟨line⟩) () = (.ok (.menu writer), ()))
      (hdecode : decode writer.beforeWrite.buffer = some entries)
      (hentry : e ∈ entries)
      (hhost : e.host = settings.self.hostname)
      (hport : e.port = settings.self.port.toNat) :
      Browsed fs settings m e.selector

/-- A directory whose entries can all be listed in a menu. -/
structure Listed (fs : FileSys) (path : Bytes) (dir : DirStream) : Prop where
  isDir : ∃ mode, fs.stat (cStr path) = .ok mode ∧ fileType mode = S_IFDIR
  opens : fs.opendir (cStr (path ++ [SLASH])) = .ok dir
  ends : dir.failure = none
  /-- libmagic knows every regular file. -/
  guessed : ∀ ent ∈ dir.entries, ∀ mode,
    fs.stat (cStr (path ++ SLASH :: ent.name)) = .ok mode → fileType mode = S_IFREG →
      fs.magicFile (cStr (path ++ SLASH :: ent.name)) ≠ none
  names : ∀ ent ∈ dir.entries, NodeFSys.hidden ent.name = false → FieldText ent.name

/-- What is below a directory: names, each behind a slash. -/
def descend (names : List Bytes) : Bytes :=
  names.flatMap (SLASH :: ·)

/-- The names lead from a path to a file below it, through directories that can be listed
and without hidden entries. -/
inductive Visible (fs : FileSys) : Bytes → List Bytes → Prop
  | here (path : Bytes) :
      Visible fs path []
  | into {path : Bytes} {names : List Bytes} {dir : DirStream} {ent : DirEntry}
      {type : NodeType}
      (hlisted : Listed fs path dir)
      (hent : ent ∈ dir.entries)
      (hshown : NodeFSys.hidden ent.name = false)
      (htype : Prog.exec (GopherTypeGuesser.typeOf fs.os (path ++ SLASH :: ent.name)) () =
        (.ok type, ()))
      (hrest : Visible fs (path ++ SLASH :: ent.name) names) :
      Visible fs path (ent.name :: names)

/-- In a directory that can be listed, only an error of `stat` leaves an entry without a
type. -/
theorem Listed.ioError_of_typeOf
    {fs : FileSys} {path : Bytes} {dir : DirStream} (h : Listed fs path dir)
    {ent : DirEntry} (hent : ent ∈ dir.entries) {f : Fail}
    (hf : (Prog.exec (GopherTypeGuesser.typeOf fs.os (path ++ SLASH :: ent.name)) ()).1 =
      .error f) :
    ∃ operation e, f = .exn (.ioError operation e) := by
  rw [exec_typeOf] at hf
  cases hstat : fs.stat (cStr (path ++ SLASH :: ent.name)) with
  | error e =>
      rw [hstat] at hf
      exact ⟨_, e, (Except.error.inj hf).symm⟩
  | ok mode =>
      rw [hstat] at hf
      simp only at hf
      split_ifs at hf with hreg hdir
      cases hmagic : fs.magicFile (cStr (path ++ SLASH :: ent.name)) with
      | none => exact absurd hmagic (h.guessed ent hent mode hstat hreg)
      | some got =>
          rw [hmagic, GopherTypeGuesser.ofMagic] at hf
          split_ifs at hf

section Listing

variable {n : NodeFSys} {data : RequestData}

/-- A round of the loop of `list_dir` for an entry that is shown. -/
theorem exec_listEntries_shown
    {ω : Type} {os : Os ω} {ent : DirEntry} {writer writer' : MenuWriter} {w w₁ : ω}
    (hvisible : NodeFSys.hidden ent.name = false)
    (hentry : Prog.exec (n.listEntry os data writer ent) w = (.ok writer', w₁))
    (fuel : Nat) (entries : List DirEntry) :
    Prog.exec (n.listEntries os data none (fuel + 1) writer (ent :: entries)) w =
      Prog.exec (n.listEntries os data none fuel writer' entries) w₁ := by
  have hnext : NodeFSys.nextEntry none (ent :: entries) = .ok (some (ent, entries)) := by
    simp [NodeFSys.nextEntry, hvisible]
  rw [NodeFSys.listEntries, hnext]
  exact Prog.exec_bind_ok hentry

/-- The loop of `list_dir` ends with the calls for all outcomes. -/
theorem exec_listEntries_of_typed
    {ω : Type} {os : Os ω} {w w' : ω} {entries : List DirEntry}
    {typed : List (DirEntry × Option NodeType)}
    (h : NodeFSys.Typed os data w entries typed w') :
    ∀ (fuel : Nat) (writer : MenuWriter),
      Prog.exec (n.listEntries os data none (entries.length + 1 + fuel) writer entries) w =
        (.ok (writer.run (typed.map (n.listCall data))), w') := by
  induction h with
  | nil w =>
      intro fuel writer
      rw [List.length_nil, Nat.add_comm, Nat.zero_add]
      rfl
  | @skipped ent entries typed w w' hhidden _ ih =>
      intro fuel writer
      have hskip : ∀ k, n.listEntries os data none (k + 1) writer (ent :: entries) =
          n.listEntries os data none (k + 1) writer entries := by
        intro k
        rw [NodeFSys.listEntries, NodeFSys.listEntries, NodeFSys.nextEntry, if_pos hhidden]
      rw [List.length_cons, Nat.add_right_comm _ 1 fuel, hskip]
      exact ih (fuel + 1) writer
  | @known ent entries typed w w₁ w' type hvisible htype _ ih =>
      intro fuel writer
      have hentry : Prog.exec (n.listEntry os data writer ent) w =
          (.ok ((n.listCall data (ent, some type)).apply writer), w₁) := by
        rw [NodeFSys.listEntry, Prog.exec_tryCatch, Prog.exec_bind_ok htype]
        rfl
      rw [List.length_cons, Nat.add_right_comm _ 1 fuel,
        exec_listEntries_shown hvisible hentry]
      exact ih fuel _
  | @failed ent entries typed w w₁ w' operation e hvisible htype _ ih =>
      intro fuel writer
      have hentry : Prog.exec (n.listEntry os data writer ent) w =
          (.ok ((n.listCall data (ent, none)).apply writer), w₁) := by
        rw [NodeFSys.listEntry, Prog.exec_tryCatch, Prog.exec_bind_error htype]
        rfl
      rw [List.length_cons, Nat.add_right_comm _ 1 fuel,
        exec_listEntries_shown hvisible hentry]
      exact ih fuel _

/-- When no entry ends the listing, each one that is shown has its outcome. -/
theorem exists_typed
    {fs : FileSys} (entries : List DirEntry)
    (h : ∀ ent ∈ entries, ∀ f,
      (Prog.exec (GopherTypeGuesser.typeOf fs.os (NodeFSys.entryPath data ent)) ()).1 =
        .error f → ∃ operation e, f = .exn (.ioError operation e)) :
    ∃ typed, NodeFSys.Typed fs.os data () entries typed () ∧
      ∀ ent ∈ entries, ∀ type, NodeFSys.hidden ent.name = false →
        Prog.exec (GopherTypeGuesser.typeOf fs.os (NodeFSys.entryPath data ent)) () =
          (.ok type, ()) → (ent, some type) ∈ typed := by
  induction entries with
  | nil =>
      exact ⟨[], .nil (), by simp⟩
  | cons first entries ih =>
      obtain ⟨typed, htyped, hmem⟩ := ih (fun ent hent => h ent (List.mem_cons_of_mem _ hent))
      by_cases hhidden : NodeFSys.hidden first.name = true
      · refine ⟨typed, .skipped hhidden htyped, ?_⟩
        intro ent hent type hshown
        rcases List.mem_cons.mp hent with rfl | hent
        · simp [hhidden] at hshown
        · exact hmem ent hent type hshown
      · have hvisible : NodeFSys.hidden first.name = false := by
          simpa using hhidden
        rcases hfirst : Prog.exec (GopherTypeGuesser.typeOf fs.os
            (NodeFSys.entryPath data first)) () with ⟨res, w⟩
        cases res with
        | ok found =>
            refine ⟨(first, some found) :: typed, .known hvisible hfirst htyped, ?_⟩
            intro ent hent type hshown htype
            rcases List.mem_cons.mp hent with rfl | hent
            · rw [hfirst] at htype
              simp only [Prod.mk.injEq, Except.ok.injEq] at htype
              rw [htype.1]
              exact List.mem_cons_self ..
            · exact List.mem_cons_of_mem _ (hmem ent hent type hshown htype)
        | error f =>
            obtain ⟨operation, e, rfl⟩ := h first (List.mem_cons_self ..) f (by rw [hfirst])
            refine ⟨(first, none) :: typed, .failed hvisible hfirst htyped, ?_⟩
            intro ent hent type hshown htype
            rcases List.mem_cons.mp hent with rfl | hent
            · rw [hfirst] at htype
              simp at htype
            · exact List.mem_cons_of_mem _ (hmem ent hent type hshown htype)

end Listing

/-- The name of an entry that is shown is accepted in a request. -/
theorem DirEntry.accepted
    {ent : DirEntry} (hshown : NodeFSys.hidden ent.name = false) :
    (ent.name ≠ [] ∧ SLASH ∉ ent.name) ∧ isDots ent.name = false :=
  ⟨⟨ent.ne_nil, ent.slash_not_mem⟩, isDots_of_not_hidden hshown⟩

section Descent

variable {fs : FileSys} {n : NodeFSys} {p : Bytes} {names : List Bytes}

@[simp] theorem descend_nil : descend [] = [] :=
  rfl

theorem descend_append (front names : List Bytes) :
    descend (front ++ names) = descend front ++ descend names := by
  simp [descend]

@[simp] theorem descend_singleton (name : Bytes) : descend [name] = SLASH :: name := by
  simp [descend]

/-- The names behind their first slash are joined as in the path of a request. -/
theorem descend_eq (hne : names ≠ []) :
    descend names = SLASH :: [SLASH].intercalate names :=
  flatMap_cons_eq hne

/-- The names below a selector are the path of the request. -/
theorem asPath_descend
    {k : Nat} (haccepted : Accepted names)
    (hlen : (toDecimal k ++ descend names).length < 2 ^ 32) :
    (⟨toDecimal k ++ descend names⟩ : Request).asPath = .ok ([SLASH].intercalate names) := by
  by_cases hnil : names = []
  · subst hnil
    have hbelow : (⟨toDecimal k ++ descend []⟩ : Request).below = [] := by
      simp [Request.below, List.splitOn_eq_singleton (slash_not_mem_toDecimal k)]
    rw [Request.asPath_eq (Request.isUrl_of_toDecimal k _) hlen, hbelow]
    rfl
  · rw [descend_eq hnil] at hlen ⊢
    exact Request.asPath_of_name (Request.isUrl_of_toDecimal k _) hlen
      (slash_not_mem_toDecimal k) (pieces_intercalate (fun c hc => (haccepted c hc).1))
      haccepted

/-- The selector that is listed for the names is the one that was asked for. -/
theorem requestPaths_snd (haccepted : Accepted names) :
    (n.requestPaths ([SLASH].intercalate names)).2 = n.info.selector ++ descend names := by
  by_cases hnil : names = []
  · subst hnil
    simp [NodeFSys.requestPaths]
  · have hpos : ([SLASH].intercalate names).length > 0 := by
      have hpieces : pieces SLASH ([SLASH].intercalate names) = names :=
        pieces_intercalate (fun c hc => (haccepted c hc).1)
      refine List.length_pos_of_ne_nil ?_
      intro hempty
      rw [hempty, pieces_nil] at hpieces
      exact hnil hpieces.symm
    rw [NodeFSys.requestPaths, if_pos hpos, descend_eq hnil, List.append_assoc]
    rfl

end Descent

/-- A directory that the map serves under a number. -/
structure Exported (settings : Settings) (m : Map) (p : Bytes) (k : Nat) (n : NodeFSys) :
    Prop where
  node : m.lookupMap.nodes.lookup (toDecimal k) = some (.fsys n)
  selector : n.info.selector = toDecimal k
  host : n.info.host = settings.self.hostname
  port : n.info.port = settings.self.port
  rootPath : n.rootPath = p ∨ n.rootPath = p ++ [SLASH]

namespace Exported

variable {fs : FileSys} {settings : Settings} {m : Map} {p : Bytes} {k : Nat} {n : NodeFSys}
variable {names : List Bytes}

/-- What is behind the root path is below the directory. -/
theorem squeeze_rootPath
    (h : Exported settings m p k n) (t : Bytes) :
    squeeze SLASH (n.rootPath ++ t) = squeeze SLASH (p ++ SLASH :: t) := by
  rcases h.rootPath with hsame | hclosed
  · obtain ⟨root, hroot⟩ : ∃ root, n.rootPath = root ++ [SLASH] :=
      List.getLast?_eq_some_iff.mp n.rootPath_slash
    rw [← hsame, hroot]
    simpa using (squeeze_append_cons_cons root t).symm
  · rw [hclosed]
    simp

/-- The path of a request below the directory, with something behind it. -/
theorem squeeze_behind
    (h : Exported settings m p k n) (names : List Bytes) (t : Bytes) :
    squeeze SLASH ((n.requestPaths ([SLASH].intercalate names)).1 ++ SLASH :: t) =
      squeeze SLASH (p ++ descend names ++ SLASH :: t) := by
  rw [NodeFSys.requestPaths_fst, List.append_assoc, h.squeeze_rootPath]
  by_cases hnil : names = []
  · subst hnil
    simpa using squeeze_append_cons_cons p t
  · rw [descend_eq hnil]
    simp

/-- The path of a request for something below the directory. -/
theorem squeeze_below
    (h : Exported settings m p k n) (hne : names ≠ []) :
    squeeze SLASH (n.requestPaths ([SLASH].intercalate names)).1 =
      squeeze SLASH (p ++ descend names) := by
  rw [NodeFSys.requestPaths_fst, h.squeeze_rootPath, descend_eq hne]

/-- The file that a request below the directory leads to has the type of the file. -/
theorem typeOf_request
    (h : Exported settings m p k n) (hfs : fs.Coherent) {type : NodeType}
    (htype : Prog.exec (GopherTypeGuesser.typeOf fs.os (p ++ descend names)) () =
      (.ok type, ()))
    (hmenu : names = [] → type = .menu) :
    Prog.exec (GopherTypeGuesser.typeOf fs.os
        (n.requestPaths ([SLASH].intercalate names)).1) () = (.ok type, ()) := by
  by_cases hnil : names = []
  · obtain rfl := hmenu hnil
    subst hnil
    obtain ⟨mode, hstat, hdir⟩ := (typeOf_cases htype).2.2 rfl
    rw [descend_nil, List.append_nil] at hstat
    have hself : (n.requestPaths ([SLASH].intercalate [])).1 = n.rootPath := rfl
    rw [hself]
    rcases h.rootPath with hsame | hclosed
    · rw [hsame]
      exact typeOf_directory hstat hdir
    · rw [hclosed]
      exact typeOf_directory (hfs.stat_closed hstat hdir) hdir
  · rw [hfs.typeOf (h.squeeze_below hnil)]
    exact htype

/-- A request below the directory is analysed to the path and the selector of the file. -/
theorem exec_analyzeRequest
    (h : Exported settings m p k n) (hfs : fs.Coherent)
    (haccepted : Accepted names) (hlen : (toDecimal k ++ descend names).length < 2 ^ 32)
    {type : NodeType}
    (htype : Prog.exec (GopherTypeGuesser.typeOf fs.os (p ++ descend names)) () =
      (.ok type, ()))
    (hmenu : names = [] → type = .menu) :
    Prog.exec (n.analyzeRequest fs.os ⟨toDecimal k ++ descend names⟩) () =
      (.ok ⟨type,
        (n.requestPaths ([SLASH].intercalate names)).1 ++ (if type = .menu then [SLASH] else []),
        toDecimal k ++ descend names ++ (if type = .menu then [SLASH] else []),
        [SLASH].intercalate names⟩, ()) := by
  refine (NodeFSys.exec_analyzeRequest_eq_ok_iff fs n _ _).mpr
    ⟨_, type, asPath_descend haccepted hlen, h.typeOf_request hfs htype hmenu, ?_⟩
  rw [requestPaths_snd haccepted, h.selector]

/-- A line below the number of the directory is served by its node. -/
theorem exec_serve
    (h : Exported settings m p k n) (names : List Bytes) :
    Prog.exec (m.serve fs.os ⟨toDecimal k ++ descend names⟩) () =
      Prog.exec (n.makeWriter fs.os ⟨toDecimal k ++ descend names⟩) () := by
  have hlookup : m.lookupMap.lookup ⟨toDecimal k ++ descend names⟩ = .ok (.fsys n) := by
    refine LookupMap.lookup_toDecimal h.node ?_
    cases names with
    | nil => exact Or.inl rfl
    | cons name names => exact Or.inr rfl
  exact exec_serve_of_lookup fs.os hlookup ()

/-- A file below the directory is served. -/
theorem exec_serve_file
    (h : Exported settings m p k n) (hfs : fs.Resolving)
    (haccepted : Accepted names) (hne : names ≠ [])
    (hlen : (toDecimal k ++ descend names).length < 2 ^ 32)
    {type : NodeType} {fd size : Nat}
    (htype : Prog.exec (GopherTypeGuesser.typeOf fs.os (p ++ descend names)) () =
      (.ok type, ()))
    (hmenu : type ≠ .menu) (herror : type ≠ .error)
    (hopen : fs.openFile (cStr (p ++ descend names)) = .ok fd)
    (hsize : fs.fstat fd = .ok size) :
    Prog.exec (m.serve fs.os ⟨toDecimal k ++ descend names⟩) () =
      (.ok (.file ⟨fd, 0, size⟩), ()) := by
  have hdata := h.exec_analyzeRequest hfs.toCoherent haccepted hlen htype
    (fun hnil => absurd hnil hne)
  rw [h.exec_serve, NodeFSys.makeWriter, Prog.exec_bind_ok hdata]
  simp only [if_neg hmenu, List.append_nil]
  have hpath := hfs.openFile _ _ (squeeze_cStr (h.squeeze_below hne))
  rw [hopen] at hpath
  have hsend : ∀ data : RequestData,
      data.fsysPath = (n.requestPaths ([SLASH].intercalate names)).1 →
      Prog.exec (NodeFSys.sendFile fs.os data) () = (.ok (.file ⟨fd, 0, size⟩), ()) := by
    intro data hdata
    have hcall : fs.os.openFile (cStr data.fsysPath) () = (.ok fd, ()) := by
      rw [hdata]
      simp [FileSys.os, hpath]
    have hfstat : fs.os.fstat fd () = (.ok size, ()) := by
      simp [FileSys.os, hsize]
    rw [NodeFSys.sendFile, sysCall, Prog.exec_bind_ok (exec_sysCallWith_ok _ hcall),
      Prog.exec_bind_ok (FileWriter.exec_create fs.os hfstat)]
    rfl
  obtain ⟨hinfo, hhypertext, -⟩ := typeOf_cases htype
  cases type with
  | menu => exact absurd rfl hmenu
  | error => exact absurd rfl herror
  | info => exact absurd rfl hinfo
  | hypertext => exact absurd rfl hhypertext
  | plain => exact hsend _ rfl
  | binary => exact hsend _ rfl
  | gif => exact hsend _ rfl
  | image => exact hsend _ rfl

/-- The path under which a listing types an entry. -/
theorem squeeze_entryPath
    (h : Exported settings m p k n) {data : RequestData}
    (hdata : data.fsysPath = (n.requestPaths ([SLASH].intercalate names)).1 ++ [SLASH])
    (ent : DirEntry) :
    squeeze SLASH (NodeFSys.entryPath data ent) =
      squeeze SLASH (p ++ descend names ++ SLASH :: ent.name) := by
  rw [NodeFSys.entryPath, hdata, List.append_assoc, List.singleton_append, h.squeeze_behind]

/-- A directory that can be listed is listed: the menu has a link for each entry that is
shown and has a type. -/
theorem exec_serve_listing
    (h : Exported settings m p k n) (hfs : fs.Resolving)
    (haccepted : Accepted names)
    (hlen : (toDecimal k ++ descend names).length < 2 ^ 32)
    {dir : DirStream} (hlisted : Listed fs (p ++ descend names) dir) :
    ∃ (data : RequestData) (typed : List (DirEntry × Option NodeType)),
      Prog.exec (m.serve fs.os ⟨toDecimal k ++ descend names⟩) () =
        (.ok (.menu (MenuWriter.run {} (typed.map (n.listCall data)))), ()) ∧
      data.selectorPath = toDecimal k ++ descend names ++ [SLASH] ∧
      typed.map Prod.fst = dir.entries.filter (fun ent => !NodeFSys.hidden ent.name) ∧
      ∀ ent ∈ dir.entries, ∀ type, NodeFSys.hidden ent.name = false →
        Prog.exec (GopherTypeGuesser.typeOf fs.os
          (p ++ descend names ++ SLASH :: ent.name)) () = (.ok type, ()) →
        (ent, some type) ∈ typed := by
  obtain ⟨mode, hstat, hdir⟩ := hlisted.isDir
  have hdata := h.exec_analyzeRequest hfs.toCoherent haccepted hlen
    (typeOf_directory hstat hdir) (fun _ => rfl)
  simp only [if_true] at hdata
  generalize hfound : (⟨.menu, _, _, _⟩ : RequestData) = data at hdata
  have hfsys : data.fsysPath =
      (n.requestPaths ([SLASH].intercalate names)).1 ++ [SLASH] := by
    rw [← hfound]
  have htypeOf : ∀ ent, Prog.exec (GopherTypeGuesser.typeOf fs.os
        (NodeFSys.entryPath data ent)) () =
      Prog.exec (GopherTypeGuesser.typeOf fs.os
        (p ++ descend names ++ SLASH :: ent.name)) () :=
    fun ent => hfs.toCoherent.typeOf (h.squeeze_entryPath hfsys ent)
  have hguessed : ∀ ent ∈ dir.entries, ∀ f,
      (Prog.exec (GopherTypeGuesser.typeOf fs.os (NodeFSys.entryPath data ent)) ()).1 =
        .error f → ∃ operation e, f = .exn (.ioError operation e) := by
    intro ent hent f hf
    rw [htypeOf] at hf
    exact hlisted.ioError_of_typeOf hent hf
  obtain ⟨typed, htyped, hmem⟩ := exists_typed dir.entries hguessed
  refine ⟨data, typed, ?_, by rw [← hfound], htyped.map_fst, ?_⟩
  · have hopen : fs.os.opendir (cStr data.fsysPath) () = (.ok dir, ()) := by
      have hpath := hfs.opendir _ _ (squeeze_cStr (h.squeeze_behind names []))
      rw [hlisted.opens, ← hfsys] at hpath
      simp [FileSys.os, hpath]
    have hloop := exec_listEntries_of_typed (n := n) htyped 0 {}
    rw [Nat.add_zero, ← hlisted.ends] at hloop
    have hlist : Prog.exec (n.listDir fs.os data) () =
        (.ok (.menu (MenuWriter.run {} (typed.map (n.listCall data)))), ()) := by
      rw [NodeFSys.listDir, Prog.exec_bind_ok (exec_sysCallWith_ok _ hopen),
        Prog.exec_bind_ok hloop]
      rfl
    rw [h.exec_serve, NodeFSys.makeWriter, Prog.exec_bind_ok hdata, ← hlist, ← hfound]
    rfl
  · intro ent hent type hshown htype
    exact hmem ent hent type hshown ((htypeOf ent).trans htype)

/-- The links of a browsed listing are browsed. -/
theorem browsed_entry
    (h : Exported settings m p k n) (hfs : fs.Resolving)
    (haccepted : Accepted names)
    (hlen : (toDecimal k ++ descend names).length < 2 ^ 32)
    (hfield : FieldText (toDecimal k ++ descend names))
    (hhost : FieldText settings.self.hostname)
    (hbrowsed : Browsed fs settings m (toDecimal k ++ descend names))
    {dir : DirStream} (hlisted : Listed fs (p ++ descend names) dir)
    {ent : DirEntry} {type : NodeType} (hent : ent ∈ dir.entries)
    (hshown : NodeFSys.hidden ent.name = false)
    (htype : Prog.exec (GopherTypeGuesser.typeOf fs.os
      (p ++ descend names ++ SLASH :: ent.name)) () = (.ok type, ())) :
    Browsed fs settings m (toDecimal k ++ descend (names ++ [ent.name])) := by
  obtain ⟨data, typed, hserved, hselector, hfst, hmem⟩ :=
    h.exec_serve_listing hfs haccepted hlen hlisted
  have hclean : ∀ c ∈ typed.map (n.listCall data), c.Clean := by
    intro c hc
    obtain ⟨outcome, houtcome, rfl⟩ := List.mem_map.mp hc
    refine (NodeFSys.clean_listCall_iff n data outcome).mpr (fun _ => ?_)
    have hmember := List.mem_map_of_mem (f := Prod.fst) houtcome
    rw [hfst, List.mem_filter, Bool.not_eq_true'] at hmember
    refine ⟨hlisted.names _ hmember.1 hmember.2, ?_, by rwa [h.host]⟩
    rw [hselector, field_append]
    exact ⟨hfield, by decide⟩
  have hentry : (n.listCall data (ent, some type)).entry ∈
      (typed.map (n.listCall data)).map MenuCall.entry :=
    List.mem_map_of_mem (List.mem_map_of_mem (hmem ent hent type hshown htype))
  have hlink : (n.listCall data (ent, some type)).entry.selector =
      toDecimal k ++ descend (names ++ [ent.name]) := by
    rw [descend_append, descend_singleton]
    simp [NodeFSys.listCall, MenuCall.entry, NodeFSys.entryInfo, hselector]
  rw [← hlink]
  exact .link hbrowsed hserved (decode_run hclean) hentry h.host (by rw [← h.port]; rfl)

/-- From a browsed directory, everything that is visible below it is browsed. -/
theorem browsed_visible
    (h : Exported settings m p k n) (hfs : fs.Resolving)
    (hhost : FieldText settings.self.hostname)
    {path : Bytes} {names : List Bytes} (hvisible : Visible fs path names) :
    ∀ front : List Bytes, path = p ++ descend front → Accepted front →
      FieldText (toDecimal k ++ descend front) →
      (toDecimal k ++ descend (front ++ names)).length < 2 ^ 32 →
      Browsed fs settings m (toDecimal k ++ descend front) →
      Browsed fs settings m (toDecimal k ++ descend (front ++ names)) := by
  induction hvisible with
  | here path =>
      intro front hpath haccepted hfield hlen hbrowsed
      rwa [List.append_nil]
  | @into path names dir ent type hlisted hent hshown htype _ ih =>
      intro front hpath haccepted hfield hlen hbrowsed
      subst hpath
      have hsplit : front ++ ent.name :: names = (front ++ [ent.name]) ++ names := by
        simp
      rw [hsplit] at hlen ⊢
      have hshort : (toDecimal k ++ descend front).length < 2 ^ 32 := by
        simp only [descend_append, List.length_append] at hlen ⊢
        omega
      refine ih (front ++ [ent.name]) ?_ ?_ ?_ hlen ?_
      · rw [descend_append, descend_singleton, List.append_assoc]
      · intro c hc
        rcases List.mem_append.mp hc with hc | hc
        · exact haccepted c hc
        · rw [List.mem_singleton.mp hc]
          exact DirEntry.accepted hshown
      · rw [descend_append, descend_singleton, ← List.append_assoc, field_append]
        refine ⟨hfield, ?_⟩
        intro b hb
        rcases List.mem_cons.mp hb with rfl | hb
        · rfl
        · exact hlisted.names ent hent hshown b hb
      · exact h.browsed_entry hfs haccepted hshort hfield hhost hbrowsed hlisted hent hshown
          htype

end Exported

/-- Visible names are accepted in a request. -/
theorem Visible.accepted
    {fs : FileSys} {path : Bytes} {names : List Bytes} (h : Visible fs path names) :
    Accepted names := by
  induction h with
  | here path =>
      simp [Accepted]
  | @into path names dir ent type _ _ hshown _ _ ih =>
      intro c hc
      rcases List.mem_cons.mp hc with rfl | hc
      · exact DirEntry.accepted hshown
      · exact ih c hc

/-- Something is visible in directories only. -/
theorem Visible.exists_listed
    {fs : FileSys} {path : Bytes} {names : List Bytes} (h : Visible fs path names)
    (hne : names ≠ []) :
    ∃ dir, Listed fs path dir := by
  cases h with
  | here => exact absurd rfl hne
  | into hlisted _ _ _ _ => exact ⟨_, hlisted⟩

section RootMenu

variable {fs : FileSys} {settings : Settings} {m : Map} {g : NodeGopherMap}

/-- The gophermap that is built for a path reads the file there. -/
theorem of_builtFor_gopherMap
    {p : Bytes} (h : BuiltFor fs settings p (.gopherMap g)) :
    g.filePath = p ∧ g.settings = settings := by
  have hcreate : ∀ {vpaths : VirtualPathsMap},
      NodeGopherMap.create settings vpaths p = .ok g →
        g.filePath = p ∧ g.settings = settings := by
    intro vpaths h
    unfold NodeGopherMap.create at h
    cases hpath : vpaths.virtualPathOf p with
    | error f => simp [hpath] at h
    | ok virtualPath =>
        cases hnode : Node.create .menu (lit "display") virtualPath
            settings.self.hostname settings.self.port with
        | error e => simp [hpath, hnode] at h
        | ok node =>
            simp only [hpath, hnode, Except.ok.injEq] at h
            rw [← h]
            exact ⟨rfl, rfl⟩
  cases h with
  | root _ hg => exact hcreate hg
  | file _ _ hg => exact hcreate hg

/-- The events of a report are those of the lines. -/
theorem mem_reportLines
    {lines : List StrRef} (h : (reportLines settings lines).2 = none) (event : LineEvent) :
    event ∈ (reportLines settings lines).1 ↔
      ∃ line ∈ lines, classify settings line = .ok event := by
  induction lines with
  | nil =>
      simp [reportLines]
  | cons line lines ih =>
      rw [reportLines] at h ⊢
      cases hline : classify settings line with
      | error f =>
          simp [hline] at h
      | ok found =>
          rw [hline] at h
          simp [ih h, hline, eq_comm]

/-- Every line has an event when none ends the report. -/
theorem exists_event_of_reportLines
    {lines : List StrRef} (h : (reportLines settings lines).2 = none) :
    ∀ line ∈ lines, ∃ event, classify settings line = .ok event := by
  induction lines with
  | nil =>
      simp
  | cons line lines ih =>
      rw [reportLines] at h
      cases hline : classify settings line with
      | error f =>
          simp [hline] at h
      | ok found =>
          rw [hline] at h
          intro line' hmem
          rcases List.mem_cons.mp hmem with rfl | hmem
          · exact ⟨found, hline⟩
          · exact ih h line' hmem

/-- When every local link has a virtual path, every line has its call. -/
theorem exists_callOf
    {lines : List StrRef} (h : (reportLines g.settings lines).2 = none)
    {vpaths : VirtualPathsMap}
    (hdefined : ∀ q ∈ localPaths (reportLines g.settings lines).1,
      ∃ v, vpaths.paths.lookup q = some v) :
    ∀ line ∈ lines, ∃ c, g.callOf vpaths line = .ok c := by
  intro line hline
  obtain ⟨event, hevent⟩ := exists_event_of_reportLines h line hline
  rw [NodeGopherMap.callOf, hevent]
  cases event with
  | localNode node =>
      have hmem : node.selector.str ∈ localPaths (reportLines g.settings lines).1 := by
        refine List.mem_filterMap.mpr ⟨.localNode node, ?_, rfl⟩
        exact (mem_reportLines h _).mpr ⟨line, hline, hevent⟩
      obtain ⟨v, hv⟩ := hdefined _ hmem
      have hpath := (vpaths.virtualPathOf_eq_ok_iff _ _).mpr hv
      simp [NodeGopherMap.lineCall, hpath, Except.map]
  | remoteNode node => exact ⟨_, rfl⟩
  | url url => exact ⟨_, rfl⟩
  | text text => exact ⟨_, rfl⟩

/-- The local links of a root menu that fits are browsed. -/
theorem browsed_of_link
    (hg : m.lookupMap.lookup ⟨[]⟩ = .ok (.gopherMap g))
    {file : FileStream} (hopen : fs.fopen (cStr g.filePath) = .ok file)
    (hsettings : g.settings = settings)
    (hreport : (report settings file).2 = none)
    (hdefined : ∀ q ∈ localPaths (report settings file).1,
      ∃ v, m.pathsMap.paths.lookup q = some v)
    (hfits : ∀ line ∈ file.lines.1, g.LineFits m.pathsMap line.str)
    {p v : Bytes} (hp : p ∈ localPaths (report settings file).1)
    (hv : m.pathsMap.paths.lookup p = some v) :
    Browsed fs settings m v ∧ FieldText settings.self.hostname ∧ FieldText v := by
  subst hsettings
  obtain ⟨hlines, hends⟩ := Option.or_eq_none_iff.mp hreport
  have hcalls := exists_callOf hlines hdefined
  have hnonempty : Nonempty MenuCall := ⟨.textString []⟩
  choose! callAt hcallAt using hcalls
  have hmenu : g.writeMenu m.pathsMap (.opened file) =
      (.ok (), MenuWriter.run {} (file.lines.1.map callAt)) := by
    refine (g.writeMenu_eq_ok_iff m.pathsMap file _).mpr ⟨by simpa using hends, _, ?_, rfl⟩
    rw [List.forall₂_map_right_iff, List.forall₂_same]
    exact hcallAt
  have hserved : Prog.exec (m.serve fs.os ⟨[]⟩) () =
      (.ok (.menu (MenuWriter.run {} (file.lines.1.map callAt))), ()) := by
    rw [exec_serve_of_lookup fs.os hg]
    refine (g.exec_makeWriter_eq_ok_iff fs.os m.pathsMap () () _).mpr ⟨file, _, ?_, hmenu, rfl⟩
    simp [FileSys.os, hopen]
  have hclean : ∀ c ∈ file.lines.1.map callAt, c.Clean := by
    intro c hc
    obtain ⟨line, hline, rfl⟩ := List.mem_map.mp hc
    exact (NodeGopherMap.clean_callOf_iff (hcallAt line hline)).mpr (hfits line hline)
  obtain ⟨event, hevent, hselector⟩ := List.mem_filterMap.mp hp
  obtain ⟨line, hline, hclassify⟩ := (mem_reportLines hlines event).mp hevent
  cases event with
  | localNode node =>
      obtain rfl : node.selector.str = p := Option.some.inj hselector
      have hpath := (m.pathsMap.virtualPathOf_eq_ok_iff _ _).mpr hv
      have hcall := hcallAt line hline
      simp only [NodeGopherMap.callOf, hclassify, NodeGopherMap.lineCall, hpath, Except.map,
        Except.ok.injEq] at hcall
      have hmem : callAt line ∈ file.lines.1.map callAt := List.mem_map_of_mem hline
      have hfields := hclean _ hmem
      rw [← hcall] at hfields hmem
      refine ⟨?_, hfields.2.2.2, hfields.2.2.1⟩
      exact .link .root hserved (decode_run hclean) (List.mem_map_of_mem hmem) rfl rfl
  | remoteNode node => simp at hselector
  | url url => simp at hselector
  | text text => simp at hselector

/-- A path that can be listed, and is not the root, is served as a directory. -/
theorem exists_exported
    {site : Site} {node : AnyNode}
    (hm : Represents settings m site)
    (hroot : site[0]? = some (settings.content.rootGophermap, node))
    (hroutes : RoutesBack fs settings m) (hkeyed : m.Keyed)
    {p v : Bytes} (hp : p ≠ settings.content.rootGophermap)
    (hv : m.pathsMap.paths.lookup p = some v)
    {dir : DirStream} (hlisted : Listed fs p dir) :
    ∃ k n, v = toDecimal k ∧ Exported settings m p k n := by
  obtain ⟨mode, hstat, hdir⟩ := hlisted.isDir
  obtain ⟨k, hk, rfl⟩ := (hm.names.lookup p v).mp hv
  have hpos : k ≠ 0 := by
    rintro rfl
    rw [List.getElem?_map, hroot] at hk
    exact hp (Option.some.inj hk).symm
  have hname : siteName k = toDecimal k := if_neg hpos
  obtain ⟨found, hfound, hbuilt⟩ := hroutes.node p _ hv
  rw [hname] at hfound
  cases hbuilt with
  | root hsame _ => exact absurd hsame hp
  | file hstat' hreg _ =>
      rw [hstat] at hstat'
      rw [← Except.ok.inj hstat', hdir] at hreg
      exact absurd hreg (by decide)
  | directory hn =>
      obtain ⟨hhost, hport, hrootPath, -⟩ := of_create_fsys hn
      exact ⟨k, _, hname, hfound, hkeyed _ _ hfound, hhost, hport, hrootPath⟩

end RootMenu

/-- In a directory that a loaded map serves under a number, whatever is visible is browsed:
following links from the root, with decoded menus only, a client gets to its selector, and a
request for that selector is answered with the file itself. -/
theorem visible_files_browsed
    {fs : FileSys} {settings : Settings} {m₀ m : Map}
    (hfs : fs.Resolving)
    (hm₀ : Map.create settings = .ok m₀)
    (hload : Prog.exec (load fs.os settings) (m₀, ()) = (.ok (), (m, ())))
    {file : FileStream} {g : NodeGopherMap}
    (hopen : fs.fopen (cStr settings.content.rootGophermap) = .ok file)
    (hfound : ∀ q ∈ localPaths (report settings file).1, fs.stat (cStr q) ≠ .error ENOENT)
    (hg : m.lookupMap.lookup ⟨[]⟩ = .ok (.gopherMap g))
    (hfits : ∀ line ∈ file.lines.1, g.LineFits m.pathsMap line.str)
    {p v : Bytes} (hp : p ≠ settings.content.rootGophermap)
    (hv : m.pathsMap.paths.lookup p = some v)
    {names : List Bytes} (hvisible : Visible fs p names)
    (hlen : (v ++ descend names).length < 2 ^ 32) :
    Browsed fs settings m (v ++ descend names) ∧
      ∀ type fd size, names ≠ [] →
        Prog.exec (GopherTypeGuesser.typeOf fs.os (p ++ descend names)) () = (.ok type, ()) →
        type ≠ .menu → type ≠ .error →
        fs.openFile (cStr (p ++ descend names)) = .ok fd → fs.fstat fd = .ok size →
        Prog.exec (m.serve fs.os ⟨v ++ descend names⟩) () =
          (.ok (.file ⟨fd, 0, size⟩), ()) := by
  obtain ⟨site, file', root, hopen', hm, hbuilt, hroot, hpaths⟩ := of_load_completed hm₀ hload
  obtain rfl : file = file' := Except.ok.inj (hopen.symm.trans hopen')
  have hroutes := routesBack_of_represents hm hroot hbuilt
  have hreport := (follow_of_load hm₀ hload hopen).1
  -- the root menu links to the path
  obtain ⟨rootNode, hrootNode, hrootBuilt⟩ := hroutes.node _ _ hroutes.root
  have hrootLookup := hroutes.rootRoute rootNode hrootNode 0
  rw [List.replicate_zero, hg] at hrootLookup
  obtain rfl := Except.ok.inj hrootLookup
  obtain ⟨hfile, hsettings⟩ := of_builtFor_gopherMap hrootBuilt
  have hdefined : ∀ q ∈ localPaths (report settings file).1,
      ∃ v, m.pathsMap.paths.lookup q = some v :=
    fun q hq => Option.isSome_iff_exists.mp
      (AList.lookup_isSome.mpr ((hpaths q).mpr (Or.inr ⟨hq, hfound q hq⟩)))
  have hlink : p ∈ localPaths (report settings file).1 := by
    have hmem : p ∈ m.pathsMap.paths :=
      AList.lookup_isSome.mp (Option.isSome_iff_exists.mpr ⟨v, hv⟩)
    rcases (hpaths p).mp hmem with h | h
    · exact absurd h hp
    · exact h.1
  obtain ⟨hbrowsed, hhost, hfield⟩ := browsed_of_link hg (by rw [hfile]; exact hopen) hsettings
    hreport hdefined hfits hlink hv
  -- a visible name is in a directory, so that the path has a file system node
  by_cases hnil : names = []
  · subst hnil
    simpa using hbrowsed
  · obtain ⟨dir, hlisted⟩ := hvisible.exists_listed hnil
    have hkeyed := keyed_of_load hm₀ hload
    obtain ⟨k, n, rfl, hexported⟩ := exists_exported hm hroot hroutes hkeyed hp hv hlisted
    constructor
    · have h := hexported.browsed_visible hfs hhost hvisible [] (by simp) (by simp [Accepted])
      simp only [descend_nil, List.append_nil, List.nil_append] at h
      exact h hfield hlen hbrowsed
    · intro type fd size hne htype hmenu herror hfd hsize
      exact hexported.exec_serve_file hfs hvisible.accepted hne hlen htype hmenu herror hfd hsize

/-- Every path is a directory with the entry `a`, but what ends with an `a` is a text. -/
def textDocs : FileSys where
  stat p := .ok (if p.getLast? = some 97 then S_IFREG else S_IFDIR)
  magicFile _ := some (lit "text/plain")
  opendir _ := .ok ⟨[⟨lit "a", by decide, by decide, by decide⟩], none⟩
  openFile _ := .ok 5
  fstat _ := .ok 12
  fopen _ := .ok ⟨lit "1docs\tdocs\n", none⟩

theorem resolving_textDocs : textDocs.Resolving where
  stat p p' h := by
    have hlast := congrArg List.getLast? h
    rw [getLast?_squeeze, getLast?_squeeze] at hlast
    simp only [textDocs, hlast]
  magicFile _ _ _ := rfl
  closed p mode hstat hdir := by
    by_cases hlast : p.getLast? = some 97
    · simp only [textDocs, hlast, if_true, Except.ok.injEq] at hstat
      rw [← hstat] at hdir
      exact absurd hdir (by decide)
    · simp only [textDocs, if_neg hlast, Except.ok.injEq] at hstat
      have hslash : SLASH ≠ 97 := by
        decide
      simp [textDocs, hslash, hstat]
  present _ _ _ _ := by simp [textDocs]
  opendir _ _ _ := rfl
  openFile _ _ _ := rfl

/-- The text in the directory `docs`. -/
theorem visible_textDocs : Visible textDocs (lit "docs") [lit "a"] := by
  have hlisted : Listed textDocs (lit "docs")
      ⟨[⟨lit "a", by decide, by decide, by decide⟩], none⟩ :=
    { isDir := ⟨S_IFDIR, by rfl, by rfl⟩
      opens := rfl
      ends := rfl
      guessed := by simp [textDocs]
      names := by simp [FieldText, lit]; decide }
  exact .into hlisted (List.mem_cons_self ..) (by rfl) (by rfl) (.here _)

/-- The text is browsed and served. -/
theorem textDocs_files_browsed :
    Browsed textDocs shortSettings docsMap (lit "1/a") ∧
      Prog.exec (docsMap.serve textDocs.os ⟨lit "1/a"⟩) () =
        (.ok (.file ⟨5, 0, 12⟩), ()) := by
  have hlines : (⟨lit "1docs\tdocs\n", none⟩ : FileStream).lines.1 =
      [.of (lit "1docs\tdocs"), ⟨none⟩] := by
    rfl
  have hfits : ∀ line ∈ (⟨lit "1docs\tdocs\n", none⟩ : FileStream).lines.1,
      rootNode.LineFits docsMap.pathsMap line.str := by
    rw [hlines, List.forall_mem_cons, List.forall_mem_singleton]
    refine ⟨Or.inr ⟨49, lit "docs", lit "docs", [], ?_, ?_⟩, Or.inl (by decide)⟩
    · exact ⟨by decide, by decide, by decide⟩
    refine .localNode (by decide) (by rfl) (by decide) ?_ (by decide)
    intro virtualPath hpath
    obtain rfl : lit "1" = virtualPath := Except.ok.inj hpath
    decide
  have hfound : ∀ q ∈ localPaths (report shortSettings ⟨lit "1docs\tdocs\n", none⟩).1,
      textDocs.stat (cStr q) ≠ .error ENOENT := by
    simp [textDocs]
  have hload : Prog.exec (load textDocs.os shortSettings) (emptyMap, ()) =
      (.ok (), (docsMap, ())) := by
    rfl
  have hroot : docsMap.lookupMap.lookup ⟨[]⟩ = .ok (.gopherMap rootNode) := by
    rfl
  have hdocs : docsMap.pathsMap.paths.lookup (lit "docs") = some (lit "1") := by
    rfl
  have hpath : lit "docs" ≠ shortSettings.content.rootGophermap := by
    decide
  have hbrowsed := visible_files_browsed resolving_textDocs rfl hload rfl hfound hroot hfits
    hpath hdocs visible_textDocs (by decide)
  exact ⟨hbrowsed.1, hbrowsed.2 .plain 5 12 (by simp) rfl (by simp) (by simp) rfl rfl⟩

end Goofy
