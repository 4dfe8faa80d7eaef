import Goofy.Gopher.NodeFSys

/-!
# Path confinement

Which paths does a `NodeFSys` hand to the system?  A path is confined to a root
when it is the root followed by components none of which is `.` or `..`.  Both
sides are read as the system reads them, up to the first NUL.

`asPath` checks tokens with their length, the system reads C strings: a token
`..` followed by a NUL passes the check and is `..` for the system.  This is the
only way out (`paths_confined_iff`), for every behaviour of the file system.
-/

namespace Goofy
namespace Gopher

open Delimited Effect

/-- The path is the root followed by components none of which is `.` or `..`. -/
def Confined (root path : Bytes) : Prop :=
  ∃ rest, path = root ++ rest ∧
    (rest ≠ [] → root.getLast? = some SLASH) ∧
    ∀ c ∈ pieces SLASH rest, isDots c = false

/-- Is the first component that holds a NUL `.` or `..` before it? -/
def dotsAtNul : List Bytes → Bool
  | [] => false
  | c :: cs => if NUL ∈ c then isDots (cStr c) else dotsAtNul cs

/-- Every path written down so far satisfies `P`. -/
def AllPaths {ω : Type} (P : Bytes → Prop) (w : ω × List Bytes) : Prop :=
  ∀ p ∈ w.2, P p

section Traces

variable {ω α : Type} {P : Bytes → Prop}

/-- A traced call preserves what holds of its own path. -/
theorem preserves_sysCallWith
    (err : Errno → Exn) {path : Bytes} (hpath : P path)
    (call : ω → Except Errno α × ω) :
    Preserves (AllPaths P) (sysCallWith err (record path call)) := by
  intro w hw
  rw [exec_sysCallWith_snd]
  intro p hp
  rcases List.mem_append.mp hp with hp | hp
  · exact hw p hp
  · rw [List.mem_singleton.mp hp]
    exact hpath

theorem preserves_typeOf
    (os : Os ω) {path : Bytes} (hpath : P (cStr path)) :
    Preserves (AllPaths P) (GopherTypeGuesser.typeOf os.traced path) := by
  have hguess : Preserves (AllPaths P) (GopherTypeGuesser.guess os.traced path) := by
    intro w hw p hp
    rcases List.mem_append.mp hp with hp | hp
    · exact hw p hp
    · rw [List.mem_singleton.mp hp]
      exact hpath
  refine Preserves.bind (preserves_sysCallWith _ hpath _) ?_
  intro mode
  split_ifs
  · exact Preserves.bind hguess (fun _ => Preserves.lift _)
  · exact Preserves.pure _
  · exact Preserves.pure _

end Traces

namespace NodeFSys

variable {ω : Type} {P : Bytes → Prop}

/-- Hidden entries are skipped. -/
theorem not_hidden_of_nextEntry
    {failure : Option Errno} {ent : DirEntry} {entries rest : List DirEntry}
    (hnext : nextEntry failure entries = .ok (some (ent, rest))) :
    hidden ent.name = false := by
  induction entries with
  | nil =>
      cases failure <;> simp [nextEntry] at hnext
  | cons first entries ih =>
      rw [nextEntry] at hnext
      split_ifs at hnext with hfirst
      · exact ih hnext
      · simp only [Except.ok.injEq, Option.some.injEq, Prod.mk.injEq] at hnext
        obtain ⟨rfl, -⟩ := hnext
        simpa using hfirst

theorem preserves_listEntries
    (os : Os ω) (n : NodeFSys) (data : RequestData) (failure : Option Errno)
    (hentry : ∀ ent : DirEntry, hidden ent.name = false →
      P (cStr (entryPath data ent))) :
    ∀ (fuel : Nat) (writer : MenuWriter) (entries : List DirEntry),
      Preserves (AllPaths P) (listEntries os.traced n data failure fuel writer entries)
  | 0, writer, entries => Preserves.throw _
  | fuel + 1, writer, entries => by
      rw [listEntries]
      cases hnext : nextEntry failure entries with
      | error e => exact Preserves.throw _
      | ok next =>
          rcases next with _ | ⟨ent, rest⟩
          · exact Preserves.pure _
          · have hvisible := not_hidden_of_nextEntry hnext
            have hround : Preserves (AllPaths P) (listEntry os.traced n data writer ent) := by
              refine Preserves.tryCatch ?_ ?_
              · exact Preserves.bind (preserves_typeOf os (hentry ent hvisible))
                  (fun _ => Preserves.pure _)
              · intro f
                split
                · exact Preserves.pure _
                · exact Preserves.throw _
            exact Preserves.bind hround (fun writer' =>
              preserves_listEntries os n data failure hentry fuel writer' rest)

/-- What `analyze_request` returns, and the paths it hands to the system. -/
theorem triple_analyzeRequest
    (os : Os ω) (n : NodeFSys) (r : Request)
    (hpath : ∀ p, r.asPath = .ok p → P (cStr (n.rootPath ++ p))) :
    Triple (AllPaths P) (analyzeRequest os.traced n r)
      (fun res w => AllPaths P w ∧ ∀ data, res = .ok data →
        r.asPath = .ok data.requestedPath ∧
          data.fsysPath = n.rootPath ++ data.requestedPath ++
            (if data.nodeType = .menu then [SLASH] else [])) := by
  refine Triple.bind (Q := fun res w => AllPaths P w ∧ res = r.asPath)
    (Triple.lift (fun w hw => ⟨hw, rfl⟩)) ?_ (fun e w h => ⟨h.1, by simp⟩)
  intro p
  refine Triple.bind (Q := fun res w => AllPaths P w ∧ Except.ok p = r.asPath) ?_ ?_
    (fun e w h => ⟨h.1, by simp⟩)
  · intro w hw
    have htype : Preserves (AllPaths P) (tryCatchThe Fail
        (GopherTypeGuesser.typeOf os.traced (n.requestPaths p).1)
        (fun f => throw (missing (n.requestPaths p).2 f))) :=
      Preserves.tryCatch
        (preserves_typeOf os (by
          rw [requestPaths_fst]
          exact hpath p hw.2.symm))
        (fun _ => Preserves.throw _)
    exact ⟨htype w hw.1, hw.2⟩
  · intro type
    split_ifs with hmenu
    · refine Triple.pure (fun w hw => ⟨hw.1, ?_⟩)
      intro data hdata
      rw [← Except.ok.inj hdata]
      exact ⟨hw.2.symm, by simp [requestPaths_fst, hmenu]⟩
    · refine Triple.pure (fun w hw => ⟨hw.1, ?_⟩)
      intro data hdata
      rw [← Except.ok.inj hdata]
      exact ⟨hw.2.symm, by simp [requestPaths_fst, hmenu]⟩

theorem preserves_listDir
    (os : Os ω) (n : NodeFSys) (data : RequestData)
    (hopen : P (cStr data.fsysPath))
    (hentry : ∀ ent : DirEntry, hidden ent.name = false →
      P (cStr (entryPath data ent))) :
    Preserves (AllPaths P) (listDir os.traced n data) := by
  refine Preserves.bind (preserves_sysCallWith _ hopen _) ?_
  intro dir
  exact Preserves.bind (preserves_listEntries os n data dir.failure hentry _ _ _)
    (fun _ => Preserves.pure _)

theorem preserves_sendFile
    (os : Os ω) (data : RequestData) (hopen : P (cStr data.fsysPath)) :
    Preserves (AllPaths P) (sendFile os.traced data) := by
  refine Preserves.bind (preserves_sysCallWith _ hopen _) ?_
  intro fd
  refine Preserves.bind ?_ (fun _ => Preserves.pure _)
  -- `fstat` receives a descriptor, not a path.
  refine Preserves.bind ?_ (fun _ => Preserves.pure _)
  intro w hw
  rw [sysCall, exec_sysCallWith_snd]
  exact hw

/-- Every path of a request satisfies `P` when the paths that can be built do:
that of the request, and those of a directory and of its visible entries. -/
theorem preserves_makeWriter
    (os : Os ω) (n : NodeFSys) (r : Request)
    (hpath : ∀ p, r.asPath = .ok p → P (cStr (n.rootPath ++ p)))
    (hslash : ∀ p, r.asPath = .ok p → P (cStr (n.rootPath ++ (p ++ SLASH :: []))))
    (hentry : ∀ p (ent : DirEntry), r.asPath = .ok p → hidden ent.name = false →
      P (cStr (n.rootPath ++ (p ++ SLASH :: ent.name)))) :
    Preserves (AllPaths P) (makeWriter os.traced n r) := by
  refine Triple.bind (triple_analyzeRequest os n r hpath) ?_ (fun _ _ h => h.1)
  intro data w hw
  obtain ⟨hpaths, hdata⟩ := hw
  obtain ⟨hok, hfsys⟩ := hdata data rfl
  have hlist : data.nodeType = .menu →
      Preserves (AllPaths P) (listDir os.traced n data) := by
    intro hmenu
    rw [if_pos hmenu, List.append_assoc] at hfsys
    refine preserves_listDir os n data ?_ ?_
    · rw [hfsys]
      exact hslash _ hok
    · intro ent hvisible
      rw [entryPath, hfsys]
      simpa using hentry _ ent hok hvisible
  have hsend : data.nodeType ≠ .menu →
      Preserves (AllPaths P) (sendFile os.traced data) := by
    intro hmenu
    rw [if_neg hmenu, List.append_nil] at hfsys
    refine preserves_sendFile os data ?_
    rw [hfsys]
    exact hpath _ hok
  have hanswer : Preserves (AllPaths P) (answer os.traced n data) := by
    unfold answer
    cases htype : data.nodeType with
    | menu => exact hlist htype
    | plain => exact hsend (by simp [htype])
    | binary => exact hsend (by simp [htype])
    | gif => exact hsend (by simp [htype])
    | image => exact hsend (by simp [htype])
    | error => exact Preserves.throw _
    | info => exact Preserves.throw _
    | hypertext => exact Preserves.throw _
  exact hanswer w hpaths

end NodeFSys

section Paths

/-- A path below a root that ends with a slash, as the system reads both. -/
theorem confined_cStr_append_iff
    {root : Bytes} (hroot : root.getLast? = some SLASH) (s : Bytes) :
    Confined (cStr root) (cStr (root ++ s))
      ↔
    NUL ∈ root ∨ ∀ c ∈ pieces SLASH (cStr s), isDots c = false := by
  by_cases hnul : NUL ∈ root
  · have hcut : cStr (root ++ s) = cStr root := upTo_append_of_mem hnul s
    rw [hcut]
    constructor
    · intro _
      exact Or.inl hnul
    · intro _
      exact ⟨[], by simp, by simp, by simp⟩
  · have hself : cStr root = root := upTo_of_not_mem hnul
    have hcut : cStr (root ++ s) = root ++ cStr s := upTo_append_of_not_mem hnul s
    rw [hself, hcut]
    constructor
    · rintro ⟨rest, hrest, -, hall⟩
      right
      rw [List.append_cancel_left hrest]
      exact hall
    · rintro (h | hall)
      · exact absurd h hnul
      · exact ⟨cStr s, rfl, fun _ => hroot, hall⟩

/-- More components behind a slash keep a path confined. -/
theorem pieces_cStr_append_slash
    {p t : Bytes} (hnul : NUL ∉ t)
    (hp : ∀ c ∈ pieces SLASH (cStr p), isDots c = false)
    (ht : ∀ c ∈ pieces SLASH t, isDots c = false) :
    ∀ c ∈ pieces SLASH (cStr (p ++ SLASH :: t)), isDots c = false := by
  by_cases hpnul : NUL ∈ p
  · have hcut : cStr (p ++ SLASH :: t) = cStr p := upTo_append_of_mem hpnul _
    rw [hcut]
    exact hp
  · have hself : cStr p = p := upTo_of_not_mem hpnul
    have hslash : NUL ∉ SLASH :: t := by
      simp only [List.mem_cons, not_or]
      exact ⟨by decide, hnul⟩
    have hcut : cStr (p ++ SLASH :: t) = p ++ SLASH :: t := by
      rw [cStr, upTo_append_of_not_mem hpnul, upTo_of_not_mem hslash]
    intro c hc
    rw [hcut, pieces_append_cons] at hc
    rcases List.mem_append.mp hc with hc | hc
    · rw [hself] at hp
      exact hp c hc
    · exact ht c hc

/-- Cutting checked components at the first NUL gives a dot component exactly
when the component with the NUL becomes one. -/
theorem cutPieces_dots_iff {comps : List Bytes}
    (hcomps : ∀ c ∈ comps, isDots c = false) :
    (∀ c ∈ cutPieces NUL comps, isDots c = false) ↔ dotsAtNul comps = false := by
  induction comps with
  | nil => simp [cutPieces, dotsAtNul]
  | cons c comps ih =>
      have ih := ih (fun d hd => hcomps d (by simp [hd]))
      by_cases hnul : NUL ∈ c
      · rw [cutPieces, if_pos hnul, dotsAtNul, if_pos hnul]
        by_cases hnil : upTo NUL c = []
        · rw [if_pos hnil, cStr, hnil]
          simp [isDots]
          decide
        · rw [if_neg hnil]
          simp [cStr]
      · rw [cutPieces, if_neg hnul, dotsAtNul, if_neg hnul, ← ih]
        simp [hcomps c (by simp)]

/-- A system in which every call fails. -/
def failing : Os Unit where
  stat _ w := (.error ENOENT, w)
  magicFile _ w := (none, w)
  opendir _ w := (.error ENOENT, w)
  openFile _ w := (.error ENOENT, w)
  fstat _ w := (.error ENOENT, w)
  fopen _ w := (.error ENOENT, w)

/-- The path of a request always reaches `stat`. -/
theorem mem_trace_failing
    (n : NodeFSys) {r : Request} {p : Bytes} (hp : r.asPath = .ok p) :
    cStr (n.rootPath ++ p) ∈
      (Prog.exec (n.makeWriter failing.traced r) ((), [])).2.2 := by
  have hstat : failing.traced.stat (cStr (n.requestPaths p).1) ((), []) =
      (.error ENOENT, ((), [cStr (n.requestPaths p).1])) := rfl
  rw [NodeFSys.exec_makeWriter_missing hp hstat, NodeFSys.requestPaths_fst]
  simp

end Paths

/-- The paths of a request stay below the root, for every behaviour of the file
system, unless the request passes the check of `as_path` with a component that
becomes `.` or `..` where the system stops reading. -/
theorem paths_confined_iff
    (n : NodeFSys) (r : Request) :
    (∀ (ω : Type) (os : Os ω) (w : ω),
        ∀ p ∈ (Prog.exec (n.makeWriter os.traced r) (w, [])).2.2,
          Confined (cStr n.rootPath) p)
      ↔
    ¬ (r.isUrl = false ∧ r.rawBody.length < 2 ^ 32 ∧ NUL ∉ n.rootPath ∧
        (∀ c ∈ r.below, isDots c = false) ∧ dotsAtNul r.below = true) := by
  have hpieces : pieces SLASH (cStr ([SLASH].intercalate r.below)) =
      cutPieces NUL r.below :=
    pieces_upTo_intercalate (by decide) (fun _ hc => Request.mem_below hc)
  constructor
  · rintro hconfined ⟨hurl, hlen, hnul, hdots, hcut⟩
    have hok := (Request.asPath_eq_ok_iff hurl _).mpr ⟨hlen, hdots, rfl⟩
    have hpath := hconfined Unit failing () _ (mem_trace_failing n hok)
    rcases (confined_cStr_append_iff n.rootPath_slash _).mp hpath with h | h
    · exact hnul h
    · rw [hpieces, cutPieces_dots_iff hdots, hcut] at h
      exact Bool.noConfusion h
  · intro hcond ω os w
    have hsafe : ∀ p, r.asPath = .ok p →
        NUL ∈ n.rootPath ∨ ∀ c ∈ pieces SLASH (cStr p), isDots c = false := by
      intro p hp
      by_cases hnul : NUL ∈ n.rootPath
      · exact Or.inl hnul
      · right
        cases hurl : r.isUrl with
        | true =>
            have hnil : p = [] := by
              simpa [Request.asPath, hurl, eq_comm] using hp
            simp [hnil, cStr, upTo]
        | false =>
            obtain ⟨hlen, hdots, rfl⟩ := (Request.asPath_eq_ok_iff hurl p).mp hp
            rw [hpieces, cutPieces_dots_iff hdots, Bool.eq_false_iff]
            exact fun h => hcond ⟨hurl, hlen, hnul, hdots, h⟩
    have hextended : ∀ p t, r.asPath = .ok p → NUL ∉ t →
        (∀ c ∈ pieces SLASH t, isDots c = false) →
        Confined (cStr n.rootPath) (cStr (n.rootPath ++ (p ++ SLASH :: t))) := by
      intro p t hp hnul ht
      rw [confined_cStr_append_iff n.rootPath_slash]
      rcases hsafe p hp with h | h
      · exact Or.inl h
      · exact Or.inr (pieces_cStr_append_slash hnul h ht)
    refine NodeFSys.preserves_makeWriter os n r ?_ ?_ ?_ (w, []) (by simp [AllPaths])
    · intro p hp
      exact (confined_cStr_append_iff n.rootPath_slash p).mpr (hsafe p hp)
    · intro p hp
      exact hextended p [] hp (by simp) (by simp)
    · intro p ent hp hvisible
      refine hextended p ent.name hp ent.nul_not_mem ?_
      rw [pieces_of_not_mem ent.slash_not_mem ent.ne_nil]
      simpa using isDots_of_not_hidden hvisible

/-- A request for `..` closed by a NUL hands `/srv/..` to `stat`. -/
theorem srv_escapes :
    lit "/srv/.." ∈
        (Prog.exec (srvNode.makeWriter failing.traced ⟨lit "1/.." ++ [NUL]⟩)
          ((), [])).2.2 ∧
      ¬ Confined (cStr srvNode.rootPath) (lit "/srv/..") := by
  have hok : (⟨lit "1/.." ++ [NUL]⟩ : Request).asPath = .ok (lit ".." ++ [NUL]) := by
    refine (Request.asPath_eq_ok_iff (by decide) _).mpr ⟨by decide, ?_, ?_⟩
    · decide
    · decide
  constructor
  · exact mem_trace_failing srvNode hok
  · have hiff := confined_cStr_append_iff srvNode.rootPath_slash (lit "..")
    have hcut : cStr (srvNode.rootPath ++ lit "..") = lit "/srv/.." := by
      decide
    rw [hcut] at hiff
    rw [hiff]
    decide

end Gopher
end Goofy
