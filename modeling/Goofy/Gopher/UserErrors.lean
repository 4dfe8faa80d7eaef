import Goofy.Gopher.Map

/-!
# User errors

Which exceptions of the `UserError` family leave the nodes of a map, and whether
their texts could stand in a menu.  A gophermap and the redirector throw none.  A
file system node reports the selector path of the request, so its errors can be
told when that path can; a refused path is a `BadRequest`, which nobody catches.
-/

namespace Goofy
namespace Gopher

open Delimited Effect Util MapParser Rfc1436

/-- A failure that does not escape from `got_line` as a user error, with a text
that may stand in a menu. -/
inductive Tellable : Fail → Prop
  | lookupFailure {sel : Bytes} (h : FieldText (cStr sel)) : Tellable (.exn (.lookupFailure sel))
  | nodeFailure {sel reason : Bytes} (h : FieldText (Exn.nodeFailure sel reason).what) :
      Tellable (.exn (.nodeFailure sel reason))
  | internal {e : Exn} (h : e.isUserError = false) : Tellable (.exn e)
  | abort {f : Fail} (h : ∀ e, f ≠ .exn e) : Tellable f

/-- A text stays a field when a field is put behind it. -/
theorem field_cStr_append {s t : Bytes} (hs : FieldText (cStr s)) (ht : FieldText t) :
    FieldText (cStr (s ++ t)) := by
  by_cases hnul : NUL ∈ s
  · have hcut : cStr (s ++ t) = cStr s := upTo_append_of_mem hnul t
    rw [hcut]
    exact hs
  · have hself : cStr s = s := upTo_of_not_mem hnul
    have hcut : cStr (s ++ t) = s ++ cStr t := upTo_append_of_not_mem hnul t
    have hpart : FieldText (cStr t) := fun b hb => ht b (List.takeWhile_subset _ hb)
    rw [hcut, field_append]
    rw [hself] at hs
    exact ⟨hs, hpart⟩

theorem tellable_hang : Tellable .hang :=
  .abort (by simp)

theorem tellable_ioError (operation : Bytes) (e : Errno) :
    Tellable (.exn (.ioError operation e)) :=
  .internal rfl

section Calls

variable {ω : Type}

theorem exits_sysCall {α : Type} (operation : Bytes) (call : ω → Except Errno α × ω) :
    Exits (fun _ => True) Tellable (sysCall operation call) :=
  exits_sysCallWith (fun e => tellable_ioError operation e) call

theorem GopherTypeGuesser.exits_typeOf (os : Os ω) (path : Bytes) :
    Exits (fun _ => True) Tellable (typeOf os path) := by
  have hguess : Exits (fun _ => True) Tellable (guess os path) :=
    fun _ _ => ⟨by simp, by simp [guess]⟩
  have hmagic : ∀ answer, Exits (fun _ => True) Tellable
      (Prog.lift (ofMagic answer) : Prog ω NodeType) := by
    intro answer
    refine Exits.lift (by simp) ?_
    intro f hf
    cases answer with
    | none =>
        rw [← Except.error.inj hf]
        exact .abort (by simp)
    | some got =>
        simp only [ofMagic] at hf
        split_ifs at hf
  refine Exits.bind (exits_sysCall _ _) ?_
  intro mode _
  split_ifs
  · exact Exits.bind hguess (fun answer _ => hmagic answer)
  · exact Exits.pure trivial
  · exact Exits.pure trivial

end Calls

namespace NodeFSys

variable {ω : Type}

/-- A missing file is told by its selector path. -/
theorem tellable_missing {sel : Bytes} {f : Fail}
    (hsel : FieldText (cStr sel)) (hf : Tellable f) : Tellable (missing sel f) := by
  unfold missing
  split
  · split_ifs
    · exact .lookupFailure hsel
    · exact hf
  · exact hf

/-- The analysis of a request throws what can be told when the path is accepted
and its selector path is a field. -/
theorem exits_analyzeRequest
    (os : Os ω) (n : NodeFSys) (r : Request)
    (hrefused : ∀ f, r.asPath = .error f → Tellable f)
    (hpath : ∀ p, r.asPath = .ok p → FieldText (cStr (n.requestPaths p).2)) :
    Exits (fun data => FieldText (cStr data.selectorPath)) Tellable
      (analyzeRequest os n r) := by
  refine Exits.bind (Exits.lift hpath hrefused) ?_
  intro p hp
  have htype : Exits (fun _ => True) Tellable (tryCatchThe Fail
      (GopherTypeGuesser.typeOf os (n.requestPaths p).1)
      (fun f => throw (missing (n.requestPaths p).2 f))) :=
    Exits.tryCatch (GopherTypeGuesser.exits_typeOf os _)
      (fun f hf => Exits.throw (tellable_missing hp hf))
  refine Exits.bind htype ?_
  intro type _
  split_ifs
  · exact Exits.pure (field_cStr_append hp (by decide))
  · exact Exits.pure hp

theorem exits_listEntries
    (os : Os ω) (n : NodeFSys) (data : RequestData) (failure : Option Errno) :
    ∀ (fuel : Nat) (writer : MenuWriter) (entries : List DirEntry),
      Exits (fun _ => True) Tellable (listEntries os n data failure fuel writer entries)
  | 0, _, _ => Exits.throw tellable_hang
  | fuel + 1, writer, entries => by
      rw [listEntries]
      cases hnext : nextEntry failure entries with
      | error e =>
          have he : ∃ errno, e = .ioError (lit "readdir") errno := by
            induction entries with
            | nil =>
                cases failure with
                | none => simp [nextEntry] at hnext
                | some errno => exact ⟨errno, (Except.error.inj hnext).symm⟩
            | cons first entries ih =>
                rw [nextEntry] at hnext
                split_ifs at hnext
                exact ih hnext
          obtain ⟨errno, rfl⟩ := he
          exact Exits.throw (tellable_ioError _ _)
      | ok next =>
          rcases next with _ | ⟨ent, rest⟩
          · exact Exits.pure trivial
          · have hround : Exits (fun _ => True) Tellable
                (listEntry os n data writer ent) := by
              refine Exits.tryCatch (Exits.bind (GopherTypeGuesser.exits_typeOf os _)
                (fun _ _ => Exits.pure trivial)) ?_
              intro f hf
              split
              · exact Exits.pure trivial
              · exact Exits.throw hf
            exact Exits.bind hround (fun writer' _ =>
              exits_listEntries os n data failure fuel writer' rest)

theorem exits_answer
    (os : Os ω) (n : NodeFSys) {data : RequestData}
    (hdata : FieldText (cStr data.selectorPath)) :
    Exits (fun _ => True) Tellable (answer os n data) := by
  have hopendir : ∀ e, Tellable (.exn (opendirError data.selectorPath e)) := by
    intro e
    unfold opendirError
    split_ifs
    · exact .lookupFailure hdata
    · exact tellable_ioError _ _
  have hlist : Exits (fun _ => True) Tellable (listDir os n data) :=
    Exits.bind (exits_sysCallWith hopendir _) (fun dir _ =>
      Exits.bind (exits_listEntries os n data dir.failure _ _ _)
        (fun _ _ => Exits.pure trivial))
  have hsend : Exits (fun _ => True) Tellable (sendFile os data) :=
    Exits.bind (exits_sysCall _ _) (fun fd _ =>
      Exits.bind
        (Exits.bind (exits_sysCall _ _) (fun _ _ => Exits.pure (A := fun _ => True) trivial))
        (fun _ _ => Exits.pure trivial))
  have hrefuse : Exits (fun _ => True) Tellable
      (throw (.exn (.nodeFailure data.selectorPath (lit "not supported"))) :
        Prog ω Body) := by
    refine Exits.throw (.nodeFailure ?_)
    have hreason : FieldText (lit ": " ++ lit "not supported") := by
      decide
    rw [Exn.what, Exn.message, List.append_assoc]
    exact field_cStr_append hdata hreason
  unfold answer
  cases data.nodeType with
  | menu => exact hlist
  | plain => exact hsend
  | binary => exact hsend
  | gif => exact hsend
  | image => exact hsend
  | error => exact hrefuse
  | info => exact hrefuse
  | hypertext => exact hrefuse

theorem exits_makeWriter
    (os : Os ω) (n : NodeFSys) (r : Request)
    (hrefused : ∀ f, r.asPath = .error f → Tellable f)
    (hpath : ∀ p, r.asPath = .ok p → FieldText (cStr (n.requestPaths p).2)) :
    Exits (fun _ => True) Tellable (n.makeWriter os r) :=
  Exits.bind (exits_analyzeRequest os n r hrefused hpath)
    (fun _ hdata => exits_answer os n hdata)

end NodeFSys

/-- The redirector throws no exception. -/
theorem NodeRedirect.exits_makeWriter {ω : Type} (n : NodeRedirect) (r : Request) :
    Exits (fun _ => True) Tellable (n.makeWriter r : Prog ω Body) := by
  have hreplace : ∀ (fuel : Nat) (text : Bytes) (f : Fail),
      replaceKeyword r.url fuel text = .error f → f = .hang := by
    intro fuel
    induction fuel with
    | zero =>
        intro text f hf
        exact (Except.error.inj hf).symm
    | succ fuel ih =>
        intro text f hf
        rw [replaceKeyword] at hf
        split at hf
        · simp at hf
        · exact ih _ f hf
  refine Exits.bind (A := fun _ => True) (Exits.lift (by simp) ?_)
    (fun _ _ => Exits.pure trivial)
  intro f hf
  rw [hreplace _ _ f hf]
  exact tellable_hang

namespace NodeGopherMap

variable {ω : Type}

theorem exits_dispatch
    (n : NodeGopherMap) (vpaths : VirtualPathsMap) (event : LineEvent) :
    Exits (fun _ => True) Tellable ((n.mapParser vpaths).dispatch event) := by
  have hemit : ∀ f, Exits (fun _ => True) Tellable (emit f) :=
    fun f _ _ => ⟨by simp, by simp [emit]⟩
  cases event with
  | localNode node =>
      refine Exits.bind (A := fun _ => True) (Exits.lift (by simp) ?_) (fun _ _ => hemit _)
      intro f hf
      unfold VirtualPathsMap.virtualPathOf at hf
      split at hf
      · rw [← Except.error.inj hf]
        exact .abort (by simp)
      · simp at hf
  | remoteNode node => exact hemit _
  | url url => exact hemit _
  | text line => exact hemit _

/-- A file that cannot be read or parsed to its end is no user's error. -/
theorem exits_finish (settings : Settings) (f : FileStream) :
    Exits (fun _ => True) Tellable
      (finish (report settings f).2 : Prog MenuWriter Unit) := by
  cases hlast : (report settings f).2 with
  | none => exact Exits.pure trivial
  | some failure =>
      refine Exits.throw ?_
      rcases report_failure hlast with hbad | ⟨e, rfl⟩
      · cases hbad with
        | tooLong => exact tellable_hang
        | badPort msg => exact .internal rfl
        | noPort => exact .internal rfl
      · exact tellable_ioError _ _

/-- The node of a gophermap throws the errors of its file, none of them a user's. -/
theorem exits_makeWriter (os : Os ω) (n : NodeGopherMap) (vpaths : VirtualPathsMap) :
    Exits (fun _ => True) Tellable (n.makeWriter os vpaths) := by
  have hfeed : Exits (fun reader => ∃ f, reader = Util.Reader.opened f) Tellable
      (Util.Reader.feed os n.filePath) :=
    Exits.bind (exits_sysCall _ _) (fun f _ => Exits.pure ⟨f, rfl⟩)
  refine Exits.bind hfeed ?_
  rintro reader ⟨f, rfl⟩
  have hwrite : Exits (fun _ => True) Tellable
      (Util.Reader.forEachLine (n.mapParser vpaths).parseLine (.opened f)) := by
    rw [forEachLine_parseLine (n.mapParser vpaths) (Or.inl rfl) f]
    exact Exits.bind (Exits.forM (fun event _ => exits_dispatch n vpaths event))
      (fun _ _ => exits_finish n.settings f)
  refine Exits.lift (by simp) ?_
  intro failure hfailure
  refine (hwrite {} trivial).2 failure ?_
  cases hres : (n.writeMenu vpaths (.opened f)).1 with
  | ok a => simp [hres, Except.map] at hfailure
  | error f' =>
      rw [hres] at hfailure
      rw [← Except.error.inj hfailure]
      exact hres

end NodeGopherMap

end Gopher
end Goofy
