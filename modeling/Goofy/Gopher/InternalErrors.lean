import Goofy.Gopher.Map
import Goofy.Gopher.ServedMenu

/-!
# Errors of the server itself

Which requests fail without a user error.  The redirector and the nodes of gophermaps
never throw one (`exits_redirect_internal`, `exits_gopherMap_internal`).  A file system
node throws one for a path that is refused or missing, and for a file of no known type;
when the path was found and its type is known, what follows throws none
(`exits_answer_internal`).
-/

namespace Goofy

open Effect Util Gopher MapParser

/-- Failures that are not the user's. -/
def Internal (f : Fail) : Prop :=
  ∀ e, f = .exn e → e.isUserError = false

theorem internal_ioError (operation : Bytes) (e : Errno) :
    Internal (.exn (.ioError operation e)) := by
  intro e' he'
  rw [← Fail.exn.inj he']
  rfl

theorem internal_abort {f : Fail} (hf : ∀ e, f ≠ .exn e) : Internal f :=
  fun e he => absurd he (hf e)

section Nodes

variable {ω : Type}

theorem exits_sysCall_internal
    {α : Type} (operation : Bytes) (call : ω → Except Errno α × ω) :
    Exits (fun _ => True) Internal (sysCall operation call) :=
  exits_sysCallWith (fun e => internal_ioError operation e) call

theorem exits_typeOf_internal
    (os : Os ω) (path : Bytes) :
    Exits (fun _ => True) Internal (GopherTypeGuesser.typeOf os path) := by
  refine Exits.bind (exits_sysCall_internal _ _) ?_
  intro mode _
  split_ifs
  · refine Exits.bind (A := fun _ => True) (fun _ _ => ⟨by simp, by simp [GopherTypeGuesser.guess]⟩)
      (fun answer _ => Exits.lift (by simp) ?_)
    intro f hf
    cases answer with
    | none =>
        rw [← Except.error.inj hf]
        exact internal_abort (by simp)
    | some got =>
        simp only [GopherTypeGuesser.ofMagic] at hf
        split_ifs at hf
  · exact Exits.pure trivial
  · exact Exits.pure trivial

/-- The loop of a listing answers or fails, but never with a user error. -/
theorem exits_listEntries_internal
    (os : Os ω) (n : NodeFSys) (data : RequestData) (failure : Option Errno) (fuel : Nat) :
    ∀ (writer : MenuWriter) (entries : List DirEntry),
      Exits (fun _ => True) Internal (n.listEntries os data failure fuel writer entries) := by
  induction fuel with
  | zero =>
      intro writer entries
      exact Exits.throw (internal_abort (by simp))
  | succ fuel ih =>
      intro writer entries
      rw [NodeFSys.listEntries]
      cases hnext : NodeFSys.nextEntry failure entries with
      | error e =>
          refine Exits.throw ?_
          induction entries with
          | nil =>
              cases failure with
              | none => simp [NodeFSys.nextEntry] at hnext
              | some errno =>
                  rw [← Except.error.inj hnext]
                  exact internal_ioError _ _
          | cons first entries ih =>
              rw [NodeFSys.nextEntry] at hnext
              split_ifs at hnext
              exact ih hnext
      | ok next =>
          cases next with
          | none => exact Exits.pure trivial
          | some found =>
              refine Exits.bind (A := fun _ => True) ?_ (fun writer' _ => ih writer' found.2)
              refine Exits.tryCatch ((exits_typeOf_internal os _).bind
                (fun _ _ => Exits.pure trivial)) ?_
              intro f hf
              split
              · exact Exits.pure trivial
              · exact Exits.throw hf

/-- A directory that is there is listed, and a file sent, without a user error. -/
theorem exits_answer_internal
    (os : Os ω) (n : NodeFSys) (data : RequestData)
    (hserved : data.nodeType ≠ .error ∧ data.nodeType ≠ .info ∧ data.nodeType ≠ .hypertext)
    (hpresent : data.nodeType = .menu →
      ∀ w, (os.opendir (cStr data.fsysPath) w).1 ≠ .error ENOENT) :
    Exits (fun _ => True) Internal (n.answer os data) := by
  have hsend : Exits (fun _ => True) Internal (NodeFSys.sendFile os data) :=
    (exits_sysCall_internal _ _).bind (fun fd _ =>
      ((exits_sysCall_internal _ _).bind
        (fun _ _ => Exits.pure (A := fun _ => True) trivial)).bind
        (fun _ _ => Exits.pure trivial))
  obtain ⟨herror, hinfo, hhypertext⟩ := hserved
  unfold NodeFSys.answer
  cases htype : data.nodeType with
  | menu =>
      refine Exits.bind (A := fun _ => True) ?_ (fun dir _ =>
        (exits_listEntries_internal os n data dir.failure _ _ _).bind
          (fun _ _ => Exits.pure trivial))
      intro w _
      rcases hcall : os.opendir (cStr data.fsysPath) w with ⟨res, w'⟩
      cases res with
      | ok dir =>
          rw [exec_sysCallWith_ok _ hcall]
          simp
      | error e =>
          have hne : e ≠ ENOENT := by
            rintro rfl
            exact hpresent htype w (by rw [hcall])
          rw [exec_sysCallWith_error _ hcall, NodeFSys.opendirError, if_neg hne]
          refine ⟨by simp, ?_⟩
          intro f hf
          rw [← Except.error.inj hf]
          exact internal_ioError _ _
  | plain => exact hsend
  | binary => exact hsend
  | gif => exact hsend
  | image => exact hsend
  | error => exact absurd htype herror
  | info => exact absurd htype hinfo
  | hypertext => exact absurd htype hhypertext

/-- The redirector throws no exception. -/
theorem exits_redirect_internal
    (n : NodeRedirect) (r : Request) :
    Exits (fun _ => True) Internal (n.makeWriter r : Prog ω Body) := by
  have hreplace : ∀ (fuel : Nat) (text : Bytes) (f : Fail),
      NodeRedirect.replaceKeyword r.url fuel text = .error f → f = .hang := by
    intro fuel
    induction fuel with
    | zero =>
        intro text f hf
        exact (Except.error.inj hf).symm
    | succ fuel ih =>
        intro text f hf
        rw [NodeRedirect.replaceKeyword] at hf
        split at hf
        · cases hf
        · exact ih _ f hf
  refine Exits.bind (A := fun _ => True) (Exits.lift (by simp) ?_)
    (fun _ _ => Exits.pure trivial)
  intro f hf
  rw [hreplace _ _ f hf]
  exact internal_abort (by simp)

/-- A line of a gophermap has its call, or fails without a user error. -/
theorem internal_of_callOf
    {n : NodeGopherMap} {vpaths : VirtualPathsMap} {line : StrRef} {f : Fail}
    (hcall : n.callOf vpaths line = .error f) :
    Internal f := by
  unfold NodeGopherMap.callOf at hcall
  cases hclassify : classify n.settings line with
  | error f' =>
      rw [hclassify] at hcall
      rw [← Except.error.inj hcall]
      cases badLine_of_classify hclassify with
      | tooLong => exact internal_abort (by simp)
      | badPort msg =>
          intro e he
          rw [← Fail.exn.inj he]
          rfl
      | noPort =>
          intro e he
          rw [← Fail.exn.inj he]
          rfl
  | ok event =>
      rw [hclassify] at hcall
      cases event with
      | localNode node =>
          cases hpath : vpaths.virtualPathOf node.selector.str with
          | ok v => simp [NodeGopherMap.lineCall, hpath, Except.map] at hcall
          | error f' =>
              simp only [NodeGopherMap.lineCall, hpath, Except.map, Except.error.injEq] at hcall
              unfold VirtualPathsMap.virtualPathOf at hpath
              split at hpath
              · rw [← hcall, ← Except.error.inj hpath]
                exact internal_abort (by simp)
              · cases hpath
      | remoteNode node => cases hcall
      | url url => cases hcall
      | text text => cases hcall

/-- The node of a gophermap fails with the errors of its file only. -/
theorem exits_gopherMap_internal
    (os : Os ω) (n : NodeGopherMap) (vpaths : VirtualPathsMap) :
    Exits (fun _ => True) Internal (n.makeWriter os vpaths) := by
  have hfeed : Exits (fun reader => ∃ f, reader = Util.Reader.opened f) Internal
      (Util.Reader.feed os n.filePath) :=
    (exits_sysCall_internal _ _).bind (fun f _ => Exits.pure ⟨f, rfl⟩)
  refine hfeed.bind ?_
  rintro reader ⟨file, rfl⟩
  have hlines : Exits (fun _ => True) Internal
      (Util.Reader.forEachLine (n.mapParser vpaths).parseLine (.opened file)) := by
    rw [forEachLine_opened]
    refine (Exits.forM (fun line _ => ?_)).bind (fun _ _ => ?_)
    · intro writer _
      rw [NodeGopherMap.exec_parseLine_eq]
      cases hcall : n.callOf vpaths line with
      | ok c => simp
      | error f =>
          refine ⟨by simp, ?_⟩
          intro f' hf'
          rw [← Except.error.inj hf']
          exact internal_of_callOf hcall
    · cases hlast : file.lines.2 with
      | none => exact Exits.pure trivial
      | some e =>
          obtain ⟨errno, rfl⟩ := file.lines_error hlast
          exact Exits.throw (internal_ioError _ _)
  refine Exits.lift (by simp) ?_
  intro f hf
  refine (hlines {} trivial).2 f ?_
  cases hres : (n.writeMenu vpaths (.opened file)).1 with
  | ok _ => simp [hres, Except.map] at hf
  | error f' =>
      rw [hres] at hf
      rw [← Except.error.inj hf]
      exact hres

end Nodes

end Goofy
