import Goofy.Gopher.Routing
import Goofy.Site

/-!
# Routing in a loaded map

The links of a loaded site lead back: the selector that the loader gave to a
path selects the node that it built for the path, whatever path follows the
selector in a request (`loaded_links_route_back`).
-/

namespace Goofy

open Effect Util Gopher MapParser Loader

/-- A loaded map leads every selector that it gave out back to its own node. -/
structure RoutesBack (fs : FileSys) (settings : Settings) (m : Map) : Prop where
  /-- The root has the empty selector. -/
  root : m.pathsMap.paths.lookup settings.content.rootGophermap = some []
  /-- Distinct paths have distinct selectors. -/
  distinct : ∀ p p' v, m.pathsMap.paths.lookup p = some v →
    m.pathsMap.paths.lookup p' = some v → p = p'
  /-- A path has a node, the one that was built for it. -/
  node : ∀ p v, m.pathsMap.paths.lookup p = some v →
    ∃ node, m.lookupMap.nodes.lookup v = some node ∧ BuiltFor fs settings p node
  /-- There are no other nodes. -/
  path : ∀ v node, m.lookupMap.nodes.lookup v = some node →
    ∃ p, m.pathsMap.paths.lookup p = some v
  /-- The selector of a path selects its node, with or without a path behind it. -/
  route : ∀ p v node, m.pathsMap.paths.lookup p = some v →
    p ≠ settings.content.rootGophermap → m.lookupMap.nodes.lookup v = some node →
    ∀ t : Bytes, t = [] ∨ t.head? = some SLASH → m.lookupMap.lookup ⟨v ++ t⟩ = .ok node
  /-- Lines without components select the root. -/
  rootRoute : ∀ node, m.lookupMap.nodes.lookup [] = some node →
    ∀ k, m.lookupMap.lookup ⟨List.replicate k SLASH⟩ = .ok node
  /-- The URL links of a gophermap go through the redirector. -/
  url : ∀ (f : FileStream) (u : Url), .url u ∈ (report settings f).1 →
    m.lookupMap.lookup ⟨u.href.str⟩ = .ok (.redirect m.lookupMap.urlRedirector) ∧
      u.href.str = lit "URL:" ++ (⟨u.href.str⟩ : Request).url

namespace Gopher

namespace LookupMap

/-- A decimal selector selects its node, whatever path follows it. -/
theorem lookup_toDecimal
    {lm : LookupMap} {k : ℕ} {node : AnyNode}
    (hnode : lm.nodes.lookup (toDecimal k) = some node)
    {t : Bytes} (ht : t = [] ∨ t.head? = some SLASH) :
    lm.lookup ⟨toDecimal k ++ t⟩ = .ok node := by
  have hurl := Request.isUrl_of_toDecimal k t
  have hrest : t = [] ∨ ∃ s, t = SLASH :: s := by
    rcases ht with rfl | ht
    · exact Or.inl rfl
    · obtain ⟨s, hs⟩ := List.head?_eq_some_iff.mp ht
      exact Or.inr ⟨s, hs⟩
  have hselector := Request.selector_of_append hurl (Decimal.encode_ne_nil k)
    (slash_not_mem_toDecimal k) hrest
  rw [lookup, hurl, hselector, hnode]
  rfl

/-- A line of slashes selects the node with the empty selector. -/
theorem lookup_slashes
    {lm : LookupMap} {node : AnyNode} (hnode : lm.nodes.lookup [] = some node) (k : ℕ) :
    lm.lookup ⟨List.replicate k SLASH⟩ = .ok node := by
  have hurl : (⟨List.replicate k SLASH⟩ : Request).isUrl = false := by
    refine Request.isUrl_eq_false_of_head ?_
    cases k with
    | zero => simp
    | succ k =>
        rw [List.replicate_succ, List.head?_cons]
        decide
  have hselector : (⟨List.replicate k SLASH⟩ : Request).selector = [] := by
    rw [Request.selector_eq hurl]
    have hdrop : (List.replicate k SLASH).dropWhile (fun b => b == SLASH) = [] := by
      rw [List.dropWhile_eq_nil_iff]
      intro b hb
      simpa using List.eq_of_mem_replicate hb
    rw [hdrop]
    rfl
  rw [lookup, hurl, hselector, hnode]
  rfl

/-- A URL request goes to the redirector, which gets what follows `URL:`. -/
theorem lookup_url
    (lm : LookupMap) {href : Bytes} (hhref : find (lit "URL:") href = some 0) :
    lm.lookup ⟨href⟩ = .ok (.redirect lm.urlRedirector) ∧
      href = lit "URL:" ++ (⟨href⟩ : Request).url := by
  have hurl : (⟨href⟩ : Request).isUrl = true := by
    simp [Request.isUrl, hhref]
  obtain ⟨rest, hrest⟩ := (find_eq_zero_iff _ _).mp hhref
  constructor
  · simp [lookup, hurl]
  · simp only [Request.url, Request.first, hurl, if_true, Option.getD_some]
    rw [← hrest]
    simp

end LookupMap

end Gopher

namespace MapParser

/-- A URL that a line is reported as starts with `URL:`. -/
theorem find_url_of_classify {settings : Settings} {line : StrRef} {u : Url}
    (h : classify settings line = .ok (.url u)) :
    find (lit "URL:") u.href.str = some 0 := by
  unfold classify at h
  cases htokens : tokenize line TAB with
  | error f => simp [htokens] at h
  | ok tokens =>
      rw [htokens] at h
      match tokens with
      | [] => simp [classifyTokens] at h
      | [_] => simp [classifyTokens] at h
      | displayName :: selector :: tokens =>
          have hlink : classifyLink settings displayName selector tokens = .ok (.url u) := by
            simp only [classifyTokens] at h
            split_ifs at h
            · simp at h
            · exact h
          unfold classifyLink at hlink
          by_cases hurl : find (lit "URL:") selector.str = some 0
          · simp only [if_pos hurl, Except.ok.injEq, LineEvent.url.injEq] at hlink
            rw [← hlink]
            exact hurl
          · rw [if_neg hurl] at hlink
            rcases hhost : hostOf tokens with ⟨host, rest⟩
            rw [hhost] at hlink
            cases host with
            | none =>
                cases hport : portOf settings.self.port rest <;>
                  simp [hport, Except.map] at hlink
            | some hostname =>
                cases hport : portOf 70 rest <;>
                  simp [hport, Except.map] at hlink

/-- Every reported event is the meaning of a line. -/
theorem exists_line_of_mem_report {settings : Settings} {f : FileStream}
    {event : LineEvent} (h : event ∈ (report settings f).1) :
    ∃ line, classify settings line = .ok event := by
  have hlines : ∀ lines : List StrRef, event ∈ (reportLines settings lines).1 →
      ∃ line, classify settings line = .ok event := by
    intro lines
    induction lines with
    | nil => simp [reportLines]
    | cons line lines ih =>
        intro hmem
        rw [reportLines] at hmem
        cases hline : classify settings line with
        | error f' => simp [hline] at hmem
        | ok event' =>
            rw [hline] at hmem
            rcases List.mem_cons.mp hmem with rfl | hmem
            · exact ⟨line, hline⟩
            · exact ih hmem
  exact hlines _ h

end MapParser

/-- What a represented site gives a map, when its first path is the root. -/
theorem routesBack_of_represents
    {fs : FileSys} {settings : Settings} {m : Map} {site : Site} {node : AnyNode}
    (h : Represents settings m site)
    (hroot : site[0]? = some (settings.content.rootGophermap, node))
    (hbuilt : ∀ e ∈ site, BuiltFor fs settings e.1 e.2) :
    RoutesBack fs settings m := by
  have hname : ∀ p v, m.pathsMap.paths.lookup p = some v ↔
      ∃ i node, site[i]? = some (p, node) ∧ v = siteName i := by
    intro p v
    rw [h.names.lookup]
    constructor
    · rintro ⟨i, hi, rfl⟩
      rw [List.getElem?_map, Option.map_eq_some_iff] at hi
      obtain ⟨⟨q, node'⟩, hq, rfl⟩ := hi
      exact ⟨i, node', hq, rfl⟩
    · rintro ⟨i, node', hi, rfl⟩
      exact ⟨i, by rw [List.getElem?_map, hi]; rfl, rfl⟩
  have hnode : ∀ v node', m.lookupMap.nodes.lookup v = some node' ↔
      ∃ i p, site[i]? = some (p, node') ∧ v = siteName i := by
    intro v node'
    rw [h.nodes]
    constructor
    · rintro ⟨i, hi, rfl⟩
      rw [List.getElem?_map, Option.map_eq_some_iff] at hi
      obtain ⟨⟨q, node''⟩, hq, rfl⟩ := hi
      exact ⟨i, q, hq, rfl⟩
    · rintro ⟨i, p, hi, rfl⟩
      exact ⟨i, by rw [List.getElem?_map, hi]; rfl, rfl⟩
  constructor
  · exact (hname _ _).mpr ⟨0, node, hroot, rfl⟩
  · intro p p' v hp hp'
    exact h.names.key_injective siteName_injective hp hp'
  · intro p v hp
    obtain ⟨i, node', hi, rfl⟩ := (hname p v).mp hp
    exact ⟨node', (hnode _ _).mpr ⟨i, p, hi, rfl⟩, hbuilt _ (List.mem_of_getElem? hi)⟩
  · intro v node' hv
    obtain ⟨i, p, hi, rfl⟩ := (hnode v node').mp hv
    exact ⟨p, (hname p _).mpr ⟨i, node', hi, rfl⟩⟩
  · intro p v node' hp hne hv t ht
    obtain ⟨i, node'', hi, rfl⟩ := (hname p v).mp hp
    have hpos : i ≠ 0 := by
      rintro rfl
      rw [hroot] at hi
      exact hne (congrArg Prod.fst (Option.some.inj hi)).symm
    rw [siteName, if_neg hpos] at hv ⊢
    exact LookupMap.lookup_toDecimal hv ht
  · intro node' hv k
    exact LookupMap.lookup_slashes hv k
  · intro f u hu
    obtain ⟨line, hline⟩ := exists_line_of_mem_report hu
    exact m.lookupMap.lookup_url (find_url_of_classify hline)

/-- Loading never meets a duplicate, and the links of a loaded map route back to
their own nodes. -/
theorem loaded_links_route_back
    (fs : FileSys) (settings : Settings) (m₀ : Map)
    (hm₀ : Map.create settings = .ok m₀) :
    (∀ selector s, Prog.exec (load fs.os settings) (m₀, ()) ≠
        (.error (.exn (.duplicatedError selector)), s))
      ∧
    ∀ m, Prog.exec (load fs.os settings) (m₀, ()) = (.ok (), (m, ())) →
      RoutesBack fs settings m := by
  constructor
  · intro selector s heq
    rcases exec_load fs (represents_create hm₀) with
      ⟨m, site, hexec, -⟩ | ⟨fail, s', hexec, hfail⟩
    · rw [hexec] at heq
      simp at heq
    · rw [hexec] at heq
      simp only [Prod.mk.injEq, Except.error.injEq] at heq
      exact hfail selector heq.1
  · intro m hload
    obtain ⟨site, f, node, -, hm, hbuilt, hroot, -⟩ := of_load_completed hm₀ hload
    exact routesBack_of_represents hm hroot hbuilt

/-- A gophermap with a link to a directory: the link routes back to its node. -/
theorem docs_link_routes_back :
    Prog.exec (load (oneFile (lit "map") (lit "1docs\tdocs\n") (.ok S_IFDIR)).os
        shortSettings) (emptyMap, ()) = (.ok (), (docsMap, ())) ∧
      docsMap.lookupMap.lookup ⟨lit "1" ++ lit "/a/b"⟩ = .ok (.fsys docsNode) := by
  have hload : Prog.exec (load (oneFile (lit "map") (lit "1docs\tdocs\n")
      (.ok S_IFDIR)).os shortSettings) (emptyMap, ()) = (.ok (), (docsMap, ())) := by
    rfl
  have hroutes := (loaded_links_route_back _ shortSettings emptyMap rfl).2 docsMap hload
  exact ⟨hload, hroutes.route (lit "docs") (lit "1") (.fsys docsNode) rfl (by decide) rfl
    (lit "/a/b") (Or.inr rfl)⟩

end Goofy
