import Goofy.SiteRouting

/-!
# Selectors that stay

The selectors of a site are numbers, and clients keep them.  Which path gets which number
is said by `followLinks`: the root first, then the links of the root gophermap that lead
to something, each where it occurs first.

So lines that are appended to a root gophermap change no selector that was given out
before, and each still selects the node of its path (`selectors_stay`).
-/

namespace Goofy

open Delimited Effect Util Gopher MapParser Loader

/-- Nothing is there under the path of a link. -/
def missing (fs : FileSys) (p : Bytes) : Bool :=
  match fs.stat (cStr p) with
  | .error e => e == ENOENT
  | .ok _ => false

/-- The served paths after one link: a new path that leads to something is added. -/
def followLink (fs : FileSys) (paths : List Bytes) (p : Bytes) : List Bytes :=
  if p ∈ paths ∨ missing fs p then paths else paths ++ [p]

/-- The served paths after some links. -/
def followLinks (fs : FileSys) (paths links : List Bytes) : List Bytes :=
  links.foldl (followLink fs) paths

section Paths

variable {fs fs' : FileSys} {settings : Settings}

theorem missing_iff
    (fs : FileSys) (p : Bytes) :
    missing fs p = true ↔ fs.stat (cStr p) = .error ENOENT := by
  unfold missing
  cases fs.stat (cStr p) with
  | error e => simp
  | ok mode => simp

/-- A link step of a site, on its paths. -/
theorem LinkStep.paths_eq
    {site site' : Site} {p : Bytes}
    (h : LinkStep fs settings site p site') :
    site'.map Prod.fst = followLink fs (site.map Prod.fst) p := by
  cases h with
  | skip h =>
      rw [← missing_iff] at h
      rw [followLink, if_pos h]
  | add hfresh hstat hnode =>
      rw [ne_eq, ← missing_iff] at hstat
      rw [followLink, if_neg (not_or.mpr ⟨hfresh, hstat⟩)]
      simp

/-- Following links numbers the paths as `followLinks` says. -/
theorem Follow.paths_eq
    {site last : Site} {links : List Bytes}
    (h : Follow fs settings site links last) :
    last.map Prod.fst = followLinks fs (site.map Prod.fst) links := by
  induction h with
  | nil site =>
      rfl
  | cons hstep _ ih =>
      rw [ih, hstep.paths_eq]
      rfl

/-- Following more links numbers behind what is there. -/
theorem prefix_followLinks
    (fs : FileSys) (paths links : List Bytes) :
    paths <+: followLinks fs paths links := by
  induction links generalizing paths with
  | nil =>
      exact List.prefix_rfl
  | cons p links ih =>
      refine List.IsPrefix.trans ?_ (ih (followLink fs paths p))
      unfold followLink
      split_ifs
      · exact List.prefix_rfl
      · exact List.prefix_append _ _

/-- Of the file system it only matters which paths lead to something. -/
theorem followLinks_congr
    {links : List Bytes} (hmissing : ∀ p ∈ links, missing fs p = missing fs' p)
    (paths : List Bytes) :
    followLinks fs paths links = followLinks fs' paths links := by
  induction links generalizing paths with
  | nil =>
      rfl
  | cons p links ih =>
      have hstep : followLink fs paths p = followLink fs' paths p := by
        rw [followLink, followLink, hmissing p (by simp)]
      rw [followLinks, followLinks, List.foldl_cons, List.foldl_cons, hstep]
      exact ih (fun q hq => hmissing q (by simp [hq])) _

end Paths

section Lines

variable {settings : Settings}

/-- A file is read in two parts, when an LF ends the first one. -/
theorem lines_append_LF
    (text more : Bytes) (failure : Option Errno) :
    (⟨text ++ LF :: more, failure⟩ : FileStream).lines.1 =
      (text.splitOn LF).map StrRef.of ++ (⟨more, failure⟩ : FileStream).lines.1 := by
  obtain ⟨init, last, hmore⟩ : ∃ init last, more.splitOn LF = init ++ [last] :=
    (List.eq_nil_or_concat' _).resolve_left (List.splitOn_ne_nil LF more)
  simp only [FileStream.lines, List.splitOn_append_cons_self, hmore, ← List.append_assoc,
    List.dropLast_concat, List.getLastD_concat, List.map_append]

/-- The report of lines that can all be classified goes on with the lines behind them. -/
theorem reportLines_append
    (lines more : List StrRef) (h : (reportLines settings lines).2 = none) :
    (reportLines settings (lines ++ more)).1 =
      (reportLines settings lines).1 ++ (reportLines settings more).1 := by
  induction lines with
  | nil =>
      rfl
  | cons line lines ih =>
      rw [List.cons_append, reportLines]
      rw [reportLines] at h ⊢
      cases hline : classify settings line with
      | error f =>
          simp [hline] at h
      | ok event =>
          rw [hline] at h
          simp [ih h]

/-- Lines can all be classified when they can with others behind them. -/
theorem reportLines_of_append
    {lines more : List StrRef} (h : (reportLines settings (lines ++ more)).2 = none) :
    (reportLines settings lines).2 = none := by
  induction lines with
  | nil =>
      rfl
  | cons line lines ih =>
      rw [List.cons_append, reportLines] at h
      rw [reportLines]
      cases hline : classify settings line with
      | error f =>
          simp [hline] at h
      | ok event =>
          rw [hline] at h
          exact ih h

/-- The links of a gophermap are still its first links when lines are appended. -/
theorem prefix_localPaths
    {text : Bytes} (hreport : (report settings ⟨text ++ [LF], none⟩).2 = none)
    (more : Bytes) (failure : Option Errno) :
    localPaths (report settings ⟨text ++ [LF], none⟩).1 <+:
      localPaths (report settings ⟨text ++ LF :: more, failure⟩).1 := by
  have hlast : (⟨[], none⟩ : FileStream).lines.1 = [⟨none⟩] := by
    rfl
  have hlines := lines_append_LF text [] none
  have hmore := lines_append_LF text more failure
  rw [hlast] at hlines
  have hfirst : (reportLines settings ((text.splitOn LF).map StrRef.of ++ [⟨none⟩])).2 = none := by
    rw [← hlines]
    exact (Option.or_eq_none_iff.mp hreport).1
  have htext : (reportLines settings [⟨none⟩]).1 = [.text ⟨none⟩] := by
    rfl
  have hclassified := reportLines_of_append hfirst
  simp only [report, hlines, hmore, reportLines_append _ _ hclassified, htext]
  simp [localPaths, List.filterMap_append]

end Lines

/-- What a load that completes followed. -/
theorem follow_of_load
    {fs : FileSys} {settings : Settings} {m₀ m : Map}
    (hm₀ : Map.create settings = .ok m₀)
    (hload : Prog.exec (load fs.os settings) (m₀, ()) = (.ok (), (m, ())))
    {file : FileStream} (hfile : fs.fopen (cStr settings.content.rootGophermap) = .ok file) :
    (report settings file).2 = none ∧
      ∃ site, Represents settings m site ∧
        site.map Prod.fst = followLinks fs [settings.content.rootGophermap]
          (localPaths (report settings file).1) := by
  rcases exec_load fs (represents_create hm₀) with
    ⟨m', site, hexec, hm', file', node, hopen, hreport, -, hfollow⟩ | ⟨f, s, hexec, -⟩
  · rw [hexec] at hload
    obtain rfl : m' = m := congrArg (fun out => out.2.1) hload
    obtain rfl : file = file' := Except.ok.inj (hfile.symm.trans hopen)
    exact ⟨hreport, site, hm', hfollow.paths_eq⟩
  · rw [hexec] at hload
    simp at hload

theorem routesBack_of_load
    {fs : FileSys} {settings : Settings} {m₀ m : Map}
    (hm₀ : Map.create settings = .ok m₀)
    (hload : Prog.exec (load fs.os settings) (m₀, ()) = (.ok (), (m, ()))) :
    RoutesBack fs settings m := by
  obtain ⟨site, file, node, -, hm, hbuilt, hroot, -⟩ := of_load_completed hm₀ hload
  exact routesBack_of_represents hm hroot hbuilt

/-- When lines are appended to a root gophermap, and the links that it had lead to
something exactly when they did before: every path keeps its selector, and the selector
still selects the node that is built for the path, whatever follows it in a request. -/
theorem selectors_stay
    {fs fs' : FileSys} {settings : Settings} {m₀ m m' : Map}
    {text more : Bytes} {failure : Option Errno}
    (hm₀ : Map.create settings = .ok m₀)
    (hfile : fs.fopen (cStr settings.content.rootGophermap) = .ok ⟨text ++ [LF], none⟩)
    (hfile' : fs'.fopen (cStr settings.content.rootGophermap) =
      .ok ⟨text ++ LF :: more, failure⟩)
    (hmissing : ∀ p ∈ localPaths (report settings ⟨text ++ [LF], none⟩).1,
      missing fs p = missing fs' p)
    (hload : Prog.exec (load fs.os settings) (m₀, ()) = (.ok (), (m, ())))
    (hload' : Prog.exec (load fs'.os settings) (m₀, ()) = (.ok (), (m', ())))
    {p v : Bytes} (hpath : m.pathsMap.paths.lookup p = some v) :
    m'.pathsMap.paths.lookup p = some v ∧
      (p ≠ settings.content.rootGophermap → ∀ t : Bytes, t = [] ∨ t.head? = some SLASH →
        ∃ node node', m.lookupMap.lookup ⟨v ++ t⟩ = .ok node ∧
          m'.lookupMap.lookup ⟨v ++ t⟩ = .ok node' ∧
          BuiltFor fs settings p node ∧ BuiltFor fs' settings p node') := by
  obtain ⟨hreport, site, hm, hsite⟩ := follow_of_load hm₀ hload hfile
  obtain ⟨-, site', hm', hsite'⟩ := follow_of_load hm₀ hload' hfile'
  have hprefix : site.map Prod.fst <+: site'.map Prod.fst := by
    obtain ⟨links, hlinks⟩ := prefix_localPaths hreport more failure
    rw [hsite, hsite', ← hlinks, followLinks_congr hmissing, followLinks, followLinks,
      List.foldl_append]
    exact prefix_followLinks fs' _ links
  have hstays : m'.pathsMap.paths.lookup p = some v := by
    obtain ⟨i, hi, hv⟩ := (hm.names.lookup p v).mp hpath
    obtain ⟨rest, hrest⟩ := hprefix
    have hlt : i < (site.map Prod.fst).length := (List.getElem?_eq_some_iff.mp hi).1
    refine (hm'.names.lookup p v).mpr ⟨i, ?_, hv⟩
    rw [← hrest, List.getElem?_append_left hlt, hi]
  refine ⟨hstays, ?_⟩
  intro hroot t ht
  have hroutes := routesBack_of_load hm₀ hload
  have hroutes' := routesBack_of_load hm₀ hload'
  obtain ⟨node, hnode, hbuilt⟩ := hroutes.node p v hpath
  obtain ⟨node', hnode', hbuilt'⟩ := hroutes'.node p v hstays
  exact ⟨node, node', hroutes.route p v node hpath hroot hnode t ht,
    hroutes'.route p v node' hstays hroot hnode' t ht, hbuilt, hbuilt'⟩

/-- The map of a root gophermap that links to `docs` and `more`. -/
def moreMap : Map where
  lookupMap :=
    { docsMap.lookupMap with
      nodes := AList.insert (lit "2") (.fsys ⟨⟨⟨NodeType.menu.code, lit "more", lit "2",
        lit "localhost", 70⟩, by decide⟩, lit "more/", by decide⟩) docsMap.lookupMap.nodes }
  pathsMap := ⟨AList.insert (lit "more") (lit "2") docsMap.pathsMap.paths⟩

/-- A link is appended: the directory of the first one keeps its selector. -/
theorem docs_selector_stays :
    moreMap.pathsMap.paths.lookup (lit "docs") = some (lit "1") ∧
      ∃ node, moreMap.lookupMap.lookup ⟨lit "1" ++ lit "/a"⟩ = .ok node ∧
        BuiltFor (oneFile (lit "map") (lit "1docs\tdocs\n1more\tmore\n") (.ok S_IFDIR))
          shortSettings (lit "docs") node := by
  have hload : Prog.exec (load (oneFile (lit "map") (lit "1docs\tdocs\n")
      (.ok S_IFDIR)).os shortSettings) (emptyMap, ()) = (.ok (), (docsMap, ())) := by
    rfl
  have hload' : Prog.exec (load (oneFile (lit "map") (lit "1docs\tdocs\n1more\tmore\n")
      (.ok S_IFDIR)).os shortSettings) (emptyMap, ()) = (.ok (), (moreMap, ())) := by
    rfl
  have hfile : (oneFile (lit "map") (lit "1docs\tdocs\n") (.ok S_IFDIR)).fopen
      (cStr shortSettings.content.rootGophermap) =
        .ok ⟨lit "1docs\tdocs" ++ [LF], none⟩ := by
    rfl
  have hfile' : (oneFile (lit "map") (lit "1docs\tdocs\n1more\tmore\n") (.ok S_IFDIR)).fopen
      (cStr shortSettings.content.rootGophermap) =
        .ok ⟨lit "1docs\tdocs" ++ LF :: lit "1more\tmore\n", none⟩ := by
    rfl
  obtain ⟨hstays, hroute⟩ := selectors_stay rfl hfile hfile' (fun _ _ => rfl) hload hload'
    (rfl : docsMap.pathsMap.paths.lookup (lit "docs") = some (lit "1"))
  obtain ⟨-, node, -, hlookup, -, hbuilt⟩ := hroute (by decide) (lit "/a") (Or.inr rfl)
  exact ⟨hstays, node, hlookup, hbuilt⟩

end Goofy
