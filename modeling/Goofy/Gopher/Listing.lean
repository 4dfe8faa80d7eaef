import Goofy.Gopher.NodeFSys

/-!
# Directory listings

The links of a listing lead back to the directory that was listed: the selector
of an entry, taken as a request, selects the same node and gives the path under
which the entry was found, up to repeated slashes (`listing_closed`).

`analyzeRequest` builds a file path and a selector side by side, and a request
is cut at its slashes again; the components of the path are what both have in
common.
-/

namespace Goofy
namespace Gopher

open Delimited Effect

/-- Components that `as_path` keeps and accepts. -/
def Accepted (comps : List Bytes) : Prop :=
  ∀ c ∈ comps, (c ≠ [] ∧ SLASH ∉ c) ∧ isDots c = false

namespace Request

/-- A returned path joins accepted components. -/
theorem exists_accepted_of_asPath {r : Request} {p : Bytes} (h : r.asPath = .ok p) :
    ∃ comps, Accepted comps ∧ p = [SLASH].intercalate comps := by
  cases hurl : r.isUrl with
  | true =>
      refine ⟨[], by simp [Accepted], ?_⟩
      simpa [asPath, hurl, eq_comm] using h
  | false =>
      obtain ⟨-, hdots, hp⟩ := (asPath_eq_ok_iff hurl p).mp h
      exact ⟨r.below, fun c hc => ⟨mem_below hc, hdots c hc⟩, hp⟩

/-- Behind a name and a slash, accepted components are the path. -/
theorem asPath_of_name
    {name rest : Bytes} {comps : List Bytes}
    (hurl : (⟨name ++ SLASH :: rest⟩ : Request).isUrl = false)
    (hlen : (name ++ SLASH :: rest).length < 2 ^ 32)
    (hname : SLASH ∉ name)
    (hrest : pieces SLASH rest = comps)
    (hcomps : Accepted comps) :
    (⟨name ++ SLASH :: rest⟩ : Request).asPath = .ok ([SLASH].intercalate comps) := by
  have hbelow : (⟨name ++ SLASH :: rest⟩ : Request).below = comps := by
    rw [below_append_cons hname, hrest]
  refine (asPath_eq_ok_iff hurl _).mpr ⟨hlen, ?_, ?_⟩
  · intro c hc
    rw [hbelow] at hc
    exact (hcomps c hc).2
  · rw [hbelow]

end Request

namespace NodeFSys

/-- What the analysis of a request finds in a file system that does not change. -/
theorem exec_analyzeRequest_eq_ok_iff
    (fs : FileSys) (n : NodeFSys) (r : Request) (data : RequestData) :
    Prog.exec (n.analyzeRequest fs.os r) () = (.ok data, ())
      ↔
    ∃ p type, r.asPath = .ok p ∧
      Prog.exec (GopherTypeGuesser.typeOf fs.os (n.requestPaths p).1) () =
        (.ok type, ()) ∧
      data = ⟨type,
        (n.requestPaths p).1 ++ (if type = .menu then [SLASH] else []),
        (n.requestPaths p).2 ++ (if type = .menu then [SLASH] else []), p⟩ := by
  have hcatch : ∀ (x : Prog Unit NodeType) (h : Fail → Fail) (type : NodeType),
      Prog.exec (tryCatchThe Fail x (fun f => throw (h f))) () = (.ok type, ())
        ↔ Prog.exec x () = (.ok type, ()) := by
    intro x h type
    have hexec := Prog.exec_tryCatch x (fun f => throw (h f)) ()
    rw [show Prog.exec (tryCatchThe Fail x (fun f => throw (h f))) () = _ from hexec]
    rcases hx : Prog.exec x () with ⟨res, w⟩
    cases res with
    | ok a => rfl
    | error e => simp
  have hlast : ∀ (type : NodeType) (p : Bytes),
      (Prog.exec (if type = .menu then
            pure ⟨type, (n.requestPaths p).1 ++ [SLASH], (n.requestPaths p).2 ++ [SLASH], p⟩
          else pure ⟨type, (n.requestPaths p).1, (n.requestPaths p).2, p⟩ :
            Prog Unit RequestData) () = (.ok data, ()))
        ↔
      data = ⟨type,
        (n.requestPaths p).1 ++ (if type = .menu then [SLASH] else []),
        (n.requestPaths p).2 ++ (if type = .menu then [SLASH] else []), p⟩ := by
    intro type p
    by_cases hmenu : type = .menu
    · simp [hmenu, eq_comm]
    · simp [hmenu, eq_comm]
  rw [analyzeRequest, Prog.exec_bind_eq_ok_iff]
  constructor
  · rintro ⟨p, w, hpath, hrest⟩
    obtain ⟨type, w', htype, hpure⟩ := (Prog.exec_bind_eq_ok_iff _ _ _ _ _).mp hrest
    refine ⟨p, type, (Prod.mk.inj hpath).1, (hcatch _ _ _).mp htype, ?_⟩
    exact (hlast type p).mp hpure
  · rintro ⟨p, type, hpath, htype, hdata⟩
    refine ⟨p, (), by rw [hpath]; rfl, ?_⟩
    refine (Prog.exec_bind_eq_ok_iff _ _ _ _ _).mpr ⟨type, (), ?_, ?_⟩
    · exact (hcatch _ _ _).mpr htype
    · exact (hlast type p).mpr hdata

/-- A directory behind its node's name: the node, a slash, the components. -/
theorem selectorPath_of_menu (n : NodeFSys) (p : Bytes) :
    (n.requestPaths p).2 ++ [SLASH] =
      n.info.selector ++ SLASH :: (if p = [] then [] else p ++ [SLASH]) := by
  cases p <;> simp [requestPaths]

end NodeFSys

/-- A request that leads to an entry of a listed directory. -/
structure LeadsTo (fs : FileSys) (n : NodeFSys) (data : RequestData)
    (ent : DirEntry) (link : Request) : Prop where
  isUrl : link.isUrl = false
  selector : link.selector = n.info.selector
  asPath : ∃ p, link.asPath = .ok p ∧
    squeeze SLASH (n.requestPaths p).1 = squeeze SLASH (NodeFSys.entryPath data ent)
  analyzed : ∀ found : RequestData,
    Prog.exec (n.analyzeRequest fs.os link) () = (.ok found, ()) →
      squeeze SLASH found.fsysPath =
        squeeze SLASH (NodeFSys.entryPath data ent ++
          (if found.nodeType = .menu then [SLASH] else []))

section Listing

variable {n : NodeFSys} {p : Bytes} {comps : List Bytes}

/-- A path and the same path closed by a slash have the same components. -/
theorem pieces_closed
    (hcomps : Accepted comps) (hp : p = [SLASH].intercalate comps) :
    pieces SLASH (if p = [] then [] else p ++ [SLASH]) = comps := by
  have hjoin : pieces SLASH p = comps := by
    rw [hp]
    exact pieces_intercalate (fun c hc => (hcomps c hc).1)
  by_cases hnil : p = []
  · rw [if_pos hnil, ← hjoin, hnil]
  · rw [if_neg hnil, pieces_append_singleton, hjoin]

/-- An entry's name is one more component. -/
theorem pieces_closed_append
    (hcomps : Accepted comps) (hp : p = [SLASH].intercalate comps)
    (ent : DirEntry) :
    pieces SLASH ((if p = [] then [] else p ++ [SLASH]) ++ ent.name) =
      comps ++ [ent.name] := by
  have hname : pieces SLASH ent.name = [ent.name] :=
    pieces_of_not_mem ent.slash_not_mem ent.ne_nil
  have hclosed := pieces_closed hcomps hp
  by_cases hnil : p = []
  · rw [if_pos hnil, pieces_nil] at hclosed
    rw [if_pos hnil, List.nil_append, hname, ← hclosed]
    rfl
  · rw [if_neg hnil, pieces_append_singleton] at hclosed
    rw [if_neg hnil, List.append_assoc, List.singleton_append,
      pieces_append_cons, hclosed, hname]

/-- The path of an entry's link is the path of the entry, up to the slash that
closes the root. -/
theorem squeeze_entry
    (hp : p = [SLASH].intercalate comps) (ent : DirEntry) (tail : Bytes)
    (hnil : p = [] → comps = []) :
    squeeze SLASH ((n.requestPaths ([SLASH].intercalate (comps ++ [ent.name]))).1 ++ tail) =
      squeeze SLASH ((n.requestPaths p).1 ++ [SLASH] ++ ent.name ++ tail) := by
  rw [NodeFSys.requestPaths_fst, NodeFSys.requestPaths_fst]
  by_cases hempty : p = []
  · obtain ⟨root, hroot⟩ : ∃ root, n.rootPath = root ++ [SLASH] :=
      List.getLast?_eq_some_iff.mp n.rootPath_slash
    rw [hnil hempty, hempty, hroot]
    have hsqueeze : squeeze SLASH (root ++ SLASH :: SLASH :: (ent.name ++ tail)) =
        squeeze SLASH (root ++ SLASH :: (ent.name ++ tail)) :=
      squeeze_append_cons_cons root (ent.name ++ tail)
    simpa using hsqueeze.symm
  · have hne : comps ≠ [] := by
      rintro rfl
      exact hempty (by simpa using hp)
    rw [intercalate_concat hne, ← hp]
    simp

/-- A node with a decimal name is never confused with a URL. -/
theorem isUrl_of_name {k : Nat} (hname : n.info.selector = toDecimal k) (rest : Bytes) :
    (⟨n.info.selector ++ rest⟩ : Request).isUrl = false := by
  rw [hname]
  exact Request.isUrl_of_toDecimal k rest

/-- The selector of a listed entry leads to the entry. -/
theorem leadsTo_entry
    (fs : FileSys) {k : Nat} (hname : n.info.selector = toDecimal k)
    (hcomps : Accepted comps) (hp : p = [SLASH].intercalate comps)
    {data : RequestData}
    (hfsys : data.fsysPath = (n.requestPaths p).1 ++ [SLASH])
    (hselector : data.selectorPath = (n.requestPaths p).2 ++ [SLASH])
    (type : NodeType) {ent : DirEntry} (hvisible : NodeFSys.hidden ent.name = false)
    (hlen : (n.entryInfo data type ent).selector.length < 2 ^ 32) :
    LeadsTo fs n data ent ⟨(n.entryInfo data type ent).selector⟩ := by
  have hslash : SLASH ∉ n.info.selector := by
    rw [hname]
    exact slash_not_mem_toDecimal k
  have hlink : (n.entryInfo data type ent).selector =
      n.info.selector ++ SLASH :: ((if p = [] then [] else p ++ [SLASH]) ++ ent.name) := by
    simp only [NodeFSys.entryInfo, hselector, n.selectorPath_of_menu, List.append_assoc,
      List.cons_append]
  have hentry : Accepted (comps ++ [ent.name]) := by
    intro c hc
    rcases List.mem_append.mp hc with hc | hc
    · exact hcomps c hc
    · rw [List.mem_singleton.mp hc]
      exact ⟨⟨ent.ne_nil, ent.slash_not_mem⟩, isDots_of_not_hidden hvisible⟩
  have hempty : p = [] → comps = [] := by
    intro hnil
    have hclosed := pieces_closed hcomps hp
    rw [if_pos hnil, pieces_nil] at hclosed
    exact hclosed.symm
  rw [hlink] at hlen ⊢
  have hasPath := Request.asPath_of_name (isUrl_of_name hname _) hlen hslash
    (pieces_closed_append hcomps hp ent) hentry
  have hsqueeze : ∀ tail,
      squeeze SLASH ((n.requestPaths
          ([SLASH].intercalate (comps ++ [ent.name]))).1 ++ tail) =
        squeeze SLASH (NodeFSys.entryPath data ent ++ tail) := by
    intro tail
    rw [squeeze_entry hp ent tail hempty, NodeFSys.entryPath, hfsys]
  refine ⟨isUrl_of_name hname _, ?_, ⟨_, hasPath, by simpa using hsqueeze []⟩, ?_⟩
  · refine Request.selector_of_append (isUrl_of_name hname _) ?_ hslash (Or.inr ⟨_, rfl⟩)
    rw [hname]
    exact Decimal.encode_ne_nil k
  · intro found hexec
    obtain ⟨q, foundType, hq, -, hfoundData⟩ :=
      (NodeFSys.exec_analyzeRequest_eq_ok_iff fs n _ found).mp hexec
    rw [hasPath] at hq
    rw [hfoundData, ← Except.ok.inj hq]
    exact hsqueeze _

end Listing

end Gopher
end Goofy
