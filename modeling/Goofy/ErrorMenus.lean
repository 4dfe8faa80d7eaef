import Goofy.Gopher.Confinement
import Goofy.Gopher.Menu
import Goofy.Gopher.UserErrors
import Goofy.Session
import Goofy.Site

/-!
# Error menus

`got_line` answers a lookup failure and a node failure with a menu of an error
and an information that repeats the text of the exception.  The menu can be read
exactly when that text is a field of the grammar (`decode_errorMenu_iff`).

The texts come from the client's line and from the selectors of the nodes.  Which
requests get such an answer for every user error they may lead to, whatever the
file system does, is said by `user_errors_answered_iff`.
-/

namespace Goofy

open Delimited Effect Gopher Rfc1436

section Menus

/-- The text of an exception is a C string already. -/
theorem cStr_what (e : Exn) : cStr e.what = e.what :=
  cStr_cStr e.message

/-- An error menu decodes to an error and an information exactly when the text of
the exception is a field. -/
theorem decode_errorMenu_iff
    {title : Bytes} (htitle : FieldText (cStr title)) (e : Exn) :
    (∃ error info, decode (errorMenu title e).beforeWrite.buffer = some [error, info] ∧
        error.type = NodeType.error.code ∧ info.type = NodeType.info.code)
      ↔
    FieldText e.what := by
  have hrun : errorMenu title e =
      MenuWriter.run {} [.error title 0, .text e.what 0] := rfl
  rw [hrun]
  constructor
  · rintro ⟨error, info, hdecode, -, -⟩
    have hclean := clean_of_decode_run hdecode rfl (.text e.what 0) (by simp)
    have hfield : FieldText (cStr e.what) := hclean
    rwa [cStr_what] at hfield
  · intro hfield
    refine ⟨_, _, decode_run ?_, rfl, rfl⟩
    intro c hc
    rcases List.mem_pair.mp hc with rfl | rfl
    · exact htitle
    · show FieldText (cStr e.what)
      rwa [cStr_what]

end Menus

/-- Whatever the file system does, a user error of lookup or `make_writer` for
this request does not escape from `got_line`: a menu writer is started, whose bytes
decode to one error and one information. -/
def AnswersUserErrors (m : Map) (r : Request) : Prop :=
  ∀ (ω : Type) (os : Os ω) (w : ω) (s : Session) (e : Exn),
    (Prog.exec (m.serve os r) w).1 = .error (.exn e) → e.isUserError = true →
    ∃ menu error info,
      s.gotLine (fun r => (Prog.exec (m.serve os r) w).1) none r.rawBody =
          (.ok false, { s with writer := some ⟨.pending, .menu menu⟩ }) ∧
        decode menu.buffer = some [error, info] ∧
        error.type = NodeType.error.code ∧ info.type = NodeType.info.code

/-- The selector path of a request to a file system node. -/
def selectorPath (n : NodeFSys) (r : Request) : Bytes :=
  [SLASH].intercalate (n.info.selector :: r.below)

/-- The errors of the request can be told: what they repeat are fields, and no
path is refused. -/
def ErrorsTellable (m : Map) (r : Request) : Prop :=
  r.isUrl = true ∨
    match m.lookupMap.nodes.lookup r.selector with
    | none => FieldText (cStr r.selector)
    | some (.fsys n) =>
        r.rawBody.length < 2 ^ 32 →
          (∀ c ∈ r.below, isDots c = false) ∧ FieldText (cStr (selectorPath n r))
    | some _ => True

section Answers

/-- When there is an answer, a writer is started on it. -/
theorem gotLine_of_answer
    {serve : Request → Except Fail Body} {line : Bytes} {body : Body}
    (hanswer : answerOf (serve ⟨line⟩) = .ok body) (s : Session) :
    s.gotLine serve none line =
      (.ok false, { s with writer := some ⟨.pending, body.beforeWrite⟩ }) := by
  rw [Session.gotLine, hanswer]
  rfl

/-- A user error that can be told is answered with a menu. -/
theorem exists_menu_of_tellable
    {e : Exn} (huser : e.isUserError = true) (htell : Tellable (.exn e)) :
    ∃ title, answerOf (.error (.exn e)) = .ok (.menu (errorMenu title e)) ∧
      FieldText (cStr title) ∧ FieldText e.what := by
  cases htell with
  | lookupFailure h =>
      exact ⟨lit "Lookup failure", rfl, by decide, h⟩
  | nodeFailure h =>
      exact ⟨lit "Node failure", rfl, by decide, h⟩
  | internal h => simp [huser] at h
  | abort h => exact absurd rfl (h e)

/-- The selector that `analyze_request` builds for an accepted path. -/
theorem requestPaths_below (n : NodeFSys) (r : Request) :
    (n.requestPaths ([SLASH].intercalate r.below)).2 = selectorPath n r := by
  have hne : ∀ c ∈ r.below, c ≠ [] := fun c hc => (Request.mem_below hc).1
  unfold selectorPath
  cases hbelow : r.below with
  | nil => simp [NodeFSys.requestPaths]
  | cons c cs =>
      rw [hbelow] at hne
      have hpos : 0 < ([SLASH].intercalate (c :: cs)).length := by
        have hc : 0 < c.length := List.length_pos_iff.mpr (hne c (by simp))
        cases cs with
        | nil => simpa using hc
        | cons d cs =>
            simp only [List.intercalate_cons_cons, List.length_append]
            omega
      rw [NodeFSys.requestPaths, if_pos hpos, List.intercalate_cons_cons]

theorem exec_serve_of_lookup
    {ω : Type} (os : Os ω) {m : Map} {r : Request} {node : AnyNode}
    (hlookup : m.lookupMap.lookup r = .ok node) (w : ω) :
    Prog.exec (m.serve os r) w = Prog.exec (node.makeWriter os m.pathsMap r) w := by
  rw [Gopher.Map.serve, hlookup]
  rfl

/-- What a file system node throws for an accepted path can be told. -/
theorem exits_fsys
    {ω : Type} (os : Os ω) {n : NodeFSys} {r : Request}
    (hurl : r.isUrl = false)
    (htell : r.rawBody.length < 2 ^ 32 →
      (∀ c ∈ r.below, isDots c = false) ∧ FieldText (cStr (selectorPath n r))) :
    Exits (fun _ => True) Tellable (n.makeWriter os r) := by
  refine NodeFSys.exits_makeWriter os n r ?_ ?_
  · intro f hf
    by_cases hlen : r.rawBody.length < 2 ^ 32
    · rw [Request.asPath_eq hurl hlen] at hf
      have hdots : ¬ r.below.any isDots = true := by
        simpa using (htell hlen).1
      simp [hdots] at hf
    · rw [Request.asPath_hang hurl (by omega)] at hf
      rw [← Except.error.inj hf]
      exact tellable_hang
  · intro p hp
    obtain ⟨hlen, -, rfl⟩ := (Request.asPath_eq_ok_iff hurl p).mp hp
    rw [requestPaths_below]
    exact (htell hlen).2

/-- Everything that lookup and `make_writer` throw for such a request can be told. -/
theorem exits_serve
    {ω : Type} (os : Os ω) {m : Map} {r : Request} (htell : ErrorsTellable m r) :
    Exits (fun _ => True) Tellable (m.serve os r) := by
  have hserve : ∀ node, m.lookupMap.lookup r = .ok node →
      Exits (fun _ => True) Tellable (node.makeWriter os m.pathsMap r) →
      Exits (fun _ => True) Tellable (m.serve os r) := by
    intro node hlookup hnode w hw
    rw [exec_serve_of_lookup os hlookup]
    exact hnode w hw
  cases hurl : r.isUrl with
  | true =>
      have hlookup : m.lookupMap.lookup r = .ok (.redirect m.lookupMap.urlRedirector) := by
        simp [LookupMap.lookup, hurl]
      exact hserve _ hlookup (NodeRedirect.exits_makeWriter m.lookupMap.urlRedirector r)
  | false =>
      have htell := htell.resolve_left (by simp [hurl])
      cases hnode : m.lookupMap.nodes.lookup r.selector with
      | none =>
          rw [hnode] at htell
          have hlookup : m.lookupMap.lookup r = .error (.lookupFailure r.selector) := by
            simp [LookupMap.lookup, hurl, hnode]
          rw [Gopher.Map.serve, hlookup]
          exact Exits.throw (.lookupFailure htell)
      | some node =>
          rw [hnode] at htell
          have hlookup : m.lookupMap.lookup r = .ok node := by
            simp [LookupMap.lookup, hurl, hnode]
          refine hserve node hlookup ?_
          cases node with
          | redirect n => exact NodeRedirect.exits_makeWriter n r
          | gopherMap n => exact NodeGopherMap.exits_makeWriter os n m.pathsMap
          | fsys n => exact exits_fsys os hurl htell

/-- An answered lookup failure repeats a field. -/
theorem field_of_answers
    {m : Map} {r : Request} (hanswers : AnswersUserErrors m r)
    {ω : Type} {os : Os ω} {w : ω} {sel : Bytes}
    (hthrew : (Prog.exec (m.serve os r) w).1 = .error (.exn (.lookupFailure sel))) :
    FieldText (cStr sel) := by
  have hbody : answerOf (Prog.exec (m.serve os ⟨r.rawBody⟩) w).1 =
      .ok (.menu (errorMenu (lit "Lookup failure") (.lookupFailure sel))) := by
    rw [hthrew]
    rfl
  let s : Session := ⟨0, 0, Reader.create 0, none, false, []⟩
  obtain ⟨menu, error, info, hline, hdecode, herror, hinfo⟩ :=
    hanswers ω os w s _ hthrew rfl
  rw [gotLine_of_answer hbody s] at hline
  have hmenu : (errorMenu (lit "Lookup failure") (.lookupFailure sel)).beforeWrite = menu := by
    simpa [Body.beforeWrite] using hline
  rw [← hmenu] at hdecode
  exact (decode_errorMenu_iff (by decide) _).mp
    ⟨error, info, hdecode, herror, hinfo⟩

/-- A bad request is not answered. -/
theorem not_badRequest_of_answers
    {m : Map} {r : Request} (hanswers : AnswersUserErrors m r)
    {ω : Type} {os : Os ω} {w : ω} {sel reason : Bytes} :
    (Prog.exec (m.serve os r) w).1 ≠ .error (.exn (.badRequest sel reason)) := by
  intro hthrew
  let s : Session := ⟨0, 0, Reader.create 0, none, false, []⟩
  obtain ⟨menu, error, info, hline, -⟩ := hanswers ω os w s _ hthrew rfl
  have hescapes : s.gotLine (fun r => (Prog.exec (m.serve os r) w).1) none r.rawBody =
      (.error (.exn (.badRequest sel reason)), s) := by
    have hthrew' : (Prog.exec (m.serve os ⟨r.rawBody⟩) w).1 =
        .error (.exn (.badRequest sel reason)) := hthrew
    rw [Session.gotLine, hthrew']
    rfl
  rw [hescapes] at hline
  simp at hline

/-- A file system node whose errors are all answered accepts the path, and its
selector path is a field. -/
theorem fsys_of_answers
    {m : Map} {r : Request} (hanswers : AnswersUserErrors m r)
    {n : NodeFSys} (hurl : r.isUrl = false)
    (hlookup : m.lookupMap.lookup r = .ok (.fsys n))
    (hlen : r.rawBody.length < 2 ^ 32) :
    (∀ c ∈ r.below, isDots c = false) ∧ FieldText (cStr (selectorPath n r)) := by
  have hexec : Prog.exec (m.serve failing r) () = Prog.exec (n.makeWriter failing r) () :=
    exec_serve_of_lookup failing hlookup ()
  have haccepted : ∀ c ∈ r.below, isDots c = false := by
    by_contra hdots
    have hany : r.below.any isDots = true := by simpa using hdots
    have hrefused := Request.asPath_eq hurl hlen
    rw [if_pos hany] at hrefused
    have hthrew : (Prog.exec (m.serve failing r) ()).1 =
        .error (.exn (.badRequest r.rawBody (lit "invalid path"))) := by
      rw [hexec, NodeFSys.makeWriter, NodeFSys.analyzeRequest, hrefused]
      rfl
    exact not_badRequest_of_answers hanswers hthrew
  have hpath := (Request.asPath_eq_ok_iff hurl _).mpr ⟨hlen, haccepted, rfl⟩
  have hthrew : (Prog.exec (m.serve failing r) ()).1 =
      .error (.exn (.lookupFailure (selectorPath n r))) := by
    have hstat : failing.stat (cStr (n.requestPaths ([SLASH].intercalate r.below)).1) () =
        (.error ENOENT, ()) := rfl
    rw [hexec, NodeFSys.exec_makeWriter_missing hpath hstat, requestPaths_below]
  exact ⟨haccepted, field_of_answers hanswers hthrew⟩

end Answers

/-- Every user error of a request becomes a menu of an error and an information,
whatever the file system does, exactly when no path is refused and the texts that
the errors repeat are fields. -/
theorem user_errors_answered_iff
    (m : Map) (r : Request) :
    AnswersUserErrors m r ↔ ErrorsTellable m r := by
  constructor
  · intro hanswers
    cases hurl : r.isUrl with
    | true => exact .inl hurl
    | false =>
        right
        cases hnode : m.lookupMap.nodes.lookup r.selector with
        | none =>
            have hlookup : m.lookupMap.lookup r = .error (.lookupFailure r.selector) := by
              simp [LookupMap.lookup, hurl, hnode]
            have hthrew : (Prog.exec (m.serve failing r) ()).1 =
                .error (.exn (.lookupFailure r.selector)) := by
              rw [Gopher.Map.serve, hlookup]
              rfl
            exact field_of_answers hanswers hthrew
        | some node =>
            have hlookup : m.lookupMap.lookup r = .ok node := by
              simp [LookupMap.lookup, hurl, hnode]
            cases node with
            | redirect n => trivial
            | gopherMap n => trivial
            | fsys n => exact fsys_of_answers hanswers hurl hlookup
  · intro htell ω os w s e hthrew huser
    have hexits := (exits_serve os htell w trivial).2 (.exn e) hthrew
    obtain ⟨title, hanswer, htitle, hwhat⟩ := exists_menu_of_tellable huser hexits
    obtain ⟨error, info, hdecode, herror, hinfo⟩ :=
      (decode_errorMenu_iff htitle e).mpr hwhat
    have hbody : answerOf (Prog.exec (m.serve os ⟨r.rawBody⟩) w).1 =
        .ok (.menu (errorMenu title e)) := by
      rw [← hanswer]
      exact congrArg answerOf hthrew
    have hline : s.gotLine (fun r => (Prog.exec (m.serve os r) w).1) none r.rawBody =
        (.ok false,
          { s with
            writer := some ⟨.pending, (Body.menu (errorMenu title e)).beforeWrite⟩ }) :=
      gotLine_of_answer hbody s
    exact ⟨_, error, info, hline, hdecode, herror, hinfo⟩

/-- A refused path escapes from `got_line`, and an unknown selector with a tab
makes a menu that cannot be read. -/
theorem docs_errors_escape :
    ¬ AnswersUserErrors docsMap ⟨lit "1/.."⟩ ∧
      ¬ AnswersUserErrors docsMap ⟨lit "a\tb"⟩ := by
  constructor
  · intro hanswers
    have hthrew : (Prog.exec (docsMap.serve failing ⟨lit "1/.."⟩) ()).1 =
        .error (.exn (.badRequest (lit "1/..") (lit "invalid path"))) := rfl
    exact not_badRequest_of_answers hanswers hthrew
  · intro hanswers
    have hthrew : (Prog.exec (docsMap.serve failing ⟨lit "a\tb"⟩) ()).1 =
        .error (.exn (.lookupFailure (lit "a\tb"))) := rfl
    have hfield := field_of_answers hanswers hthrew
    exact not_mem_of_field hfield (b := TAB) rfl (by decide)

end Goofy
