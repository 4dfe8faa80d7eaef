import Mathlib.Data.List.Forall2
import Goofy.Gopher.Menu
import Goofy.Gopher.NodeFSys

/-!
# The menus of directory listings

`list_dir` types every entry that is not hidden, and each typing gives a type or
fails with an `IOError`.  `Typed` writes these outcomes down, in stream order,
and the menu that `list_dir` returns is the menu of one call for each outcome
(`exec_listEntries`).

File names are copied into the menu as they are.  The menu decodes to the
outcomes exactly when the names that were typed, the selector path and the host
are fields of the grammar (`listing_decodes_iff`).
-/

namespace Goofy
namespace Gopher

open Delimited Effect Rfc1436

namespace NodeFSys

variable {ω : Type}

/-- The outcomes of typing the entries of a listed directory that are not
hidden: a type, or nothing after an `IOError`. -/
inductive Typed (os : Os ω) (data : RequestData) :
    ω → List DirEntry → List (DirEntry × Option NodeType) → ω → Prop
  | nil (w : ω) :
      Typed os data w [] [] w
  | skipped {ent : DirEntry} {entries : List DirEntry}
      {typed : List (DirEntry × Option NodeType)} {w w' : ω}
      (hhidden : hidden ent.name = true)
      (hrest : Typed os data w entries typed w') :
      Typed os data w (ent :: entries) typed w'
  | known {ent : DirEntry} {entries : List DirEntry}
      {typed : List (DirEntry × Option NodeType)} {w w₁ w' : ω} {type : NodeType}
      (hvisible : hidden ent.name = false)
      (htype : Prog.exec (GopherTypeGuesser.typeOf os (entryPath data ent)) w =
        (.ok type, w₁))
      (hrest : Typed os data w₁ entries typed w') :
      Typed os data w (ent :: entries) ((ent, some type) :: typed) w'
  | failed {ent : DirEntry} {entries : List DirEntry}
      {typed : List (DirEntry × Option NodeType)} {w w₁ w' : ω}
      {operation : Bytes} {e : Errno}
      (hvisible : hidden ent.name = false)
      (htype : Prog.exec (GopherTypeGuesser.typeOf os (entryPath data ent)) w =
        (.error (.exn (.ioError operation e)), w₁))
      (hrest : Typed os data w₁ entries typed w') :
      Typed os data w (ent :: entries) ((ent, none) :: typed) w'

/-- The entry of a menu that an outcome is meant to have: the entry of the node,
or some error. -/
def Describes (n : NodeFSys) (data : RequestData) :
    DirEntry × Option NodeType → Entry → Prop
  | (ent, some type), e =>
      e = ⟨type.code, ent.name, data.selectorPath ++ ent.name, n.info.host,
        n.info.port.toNat⟩
  | (_, none), e => e.type = NodeType.error.code

/-- The call of the menu writer that an outcome leads to. -/
def listCall (n : NodeFSys) (data : RequestData) :
    DirEntry × Option NodeType → MenuCall
  | (ent, some type) => .node (n.entryInfo data type ent)
  | (_, none) => .error (lit "...") 0

/-- The texts of an outcome may stand in the fields of a menu line. -/
def Listable (n : NodeFSys) (data : RequestData) (ent : DirEntry) : Prop :=
  FieldText ent.name ∧ FieldText data.selectorPath ∧ FieldText n.info.host

section Outcomes

variable {os : Os ω} {n : NodeFSys} {data : RequestData}

/-- There is one outcome for each entry that is not hidden, in stream order. -/
theorem Typed.map_fst
    {w w' : ω} {entries : List DirEntry} {typed : List (DirEntry × Option NodeType)}
    (h : Typed os data w entries typed w') :
    typed.map Prod.fst = entries.filter (fun ent => !hidden ent.name) := by
  induction h with
  | nil w =>
      rfl
  | skipped hhidden _ ih =>
      simp [hhidden, ih]
  | known hvisible _ _ ih =>
      simp [hvisible, ih]
  | failed hvisible _ _ ih =>
      simp [hvisible, ih]

/-- Hidden entries in front of the next entry leave no outcome. -/
theorem Typed.of_nextEntry
    {failure : Option Errno} {ent : DirEntry} {entries rest : List DirEntry}
    {typed : List (DirEntry × Option NodeType)} {w w' : ω}
    (hnext : nextEntry failure entries = .ok (some (ent, rest)))
    (h : hidden ent.name = false → Typed os data w (ent :: rest) typed w') :
    Typed os data w entries typed w' := by
  induction entries with
  | nil =>
      cases failure <;> simp [nextEntry] at hnext
  | cons first entries ih =>
      rw [nextEntry] at hnext
      split_ifs at hnext with hhidden
      · exact .skipped hhidden (ih hnext)
      · simp only [Except.ok.injEq, Option.some.injEq, Prod.mk.injEq] at hnext
        obtain ⟨rfl, rfl⟩ := hnext
        exact h (by simpa using hhidden)

/-- A stream that ends holds hidden entries only. -/
theorem Typed.of_end
    {failure : Option Errno} {entries : List DirEntry}
    (hnext : nextEntry failure entries = .ok none) (w : ω) :
    Typed os data w entries [] w := by
  induction entries with
  | nil =>
      exact .nil w
  | cons first entries ih =>
      rw [nextEntry] at hnext
      split_ifs at hnext with hhidden
      · exact .skipped hhidden (ih hnext)
      · simp at hnext

/-- One round adds the node of the entry, or an error in its place: a failed
typing leaves no half of a line behind. -/
theorem exec_listEntry
    {writer writer' : MenuWriter} {ent : DirEntry} {w w' : ω}
    (h : Prog.exec (n.listEntry os data writer ent) w = (.ok writer', w')) :
    (∃ type, Prog.exec (GopherTypeGuesser.typeOf os (entryPath data ent)) w =
          (.ok type, w') ∧
        writer' = (listCall n data (ent, some type)).apply writer) ∨
      ∃ operation e, Prog.exec (GopherTypeGuesser.typeOf os (entryPath data ent)) w =
          (.error (.exn (.ioError operation e)), w') ∧
        writer' = (listCall n data (ent, none)).apply writer := by
  rw [listEntry, Prog.exec_tryCatch, Prog.exec_bind] at h
  rcases htype : Prog.exec (GopherTypeGuesser.typeOf os (entryPath data ent)) w with
    ⟨res, w₁⟩
  rw [htype] at h
  cases res with
  | ok type =>
      simp only [Prog.exec_pure, Prod.mk.injEq, Except.ok.injEq] at h
      obtain ⟨rfl, rfl⟩ := h
      exact Or.inl ⟨type, rfl, rfl⟩
  | error f =>
      simp only at h
      split at h
      · simp only [Prog.exec_pure, Prod.mk.injEq, Except.ok.injEq] at h
        obtain ⟨rfl, rfl⟩ := h
        exact Or.inr ⟨_, _, rfl, rfl⟩
      · simp at h

/-- The loop makes one call for each outcome, in stream order. -/
theorem exec_listEntries (failure : Option Errno) :
    ∀ (fuel : Nat) {writer writer' : MenuWriter} {entries : List DirEntry} {w w' : ω},
      Prog.exec (n.listEntries os data failure fuel writer entries) w = (.ok writer', w') →
      ∃ typed, Typed os data w entries typed w' ∧
        writer' = writer.run (typed.map (listCall n data))
  | 0, _, _, _, _, _, h => by
      simp [listEntries] at h
  | fuel + 1, writer, writer', entries, w, w', h => by
      rw [listEntries] at h
      cases hnext : nextEntry failure entries with
      | error e =>
          simp [hnext] at h
      | ok next =>
          cases next with
          | none =>
              simp only [hnext, Prog.exec_pure, Prod.mk.injEq, Except.ok.injEq] at h
              obtain ⟨rfl, rfl⟩ := h
              exact ⟨[], .of_end hnext w, rfl⟩
          | some found =>
              obtain ⟨ent, rest⟩ := found
              simp only [hnext] at h
              obtain ⟨writer₁, w₁, hentry, hloop⟩ :=
                (Prog.exec_bind_eq_ok_iff _ _ _ _ _).mp h
              obtain ⟨typed, htyped, hrun⟩ := exec_listEntries failure fuel hloop
              rcases exec_listEntry hentry with
                ⟨type, htype, hcall⟩ | ⟨operation, e, htype, hcall⟩
              · refine ⟨(ent, some type) :: typed, ?_, ?_⟩
                · exact .of_nextEntry hnext (fun hvisible => .known hvisible htype htyped)
                · rw [hrun, hcall]
                  rfl
              · refine ⟨(ent, none) :: typed, ?_, ?_⟩
                · exact .of_nextEntry hnext (fun hvisible => .failed hvisible htype htyped)
                · rw [hrun, hcall]
                  rfl

end Outcomes

section Decoding

variable (n : NodeFSys) (data : RequestData)

theorem clean_listCall_iff (outcome : DirEntry × Option NodeType) :
    (listCall n data outcome).Clean
      ↔
    (outcome.2 ≠ none → Listable n data outcome.1) := by
  obtain ⟨ent, type⟩ := outcome
  cases type with
  | none =>
      have hdots : FieldText (MenuCall.sized (lit "...") 0) := by
        decide
      simp [listCall, MenuCall.Clean, hdots]
  | some type =>
      have htype : unascii type.code = true := by
        cases type <;> rfl
      simp only [listCall, MenuCall.Clean, entryInfo, Listable, field_append, htype]
      tauto

theorem describes_entry_listCall (outcome : DirEntry × Option NodeType) :
    Describes n data outcome (listCall n data outcome).entry := by
  obtain ⟨ent, type⟩ := outcome
  cases type <;> rfl

/-- The menu of a sequence of outcomes decodes to them exactly when the texts of
every typed entry are fields. -/
theorem decode_listing_iff (typed : List (DirEntry × Option NodeType)) :
    (∃ entries,
        decode (MenuWriter.run {} (typed.map (listCall n data))).beforeWrite.buffer =
          some entries ∧
        List.Forall₂ (Describes n data) typed entries)
      ↔
    ∀ outcome ∈ typed, outcome.2 ≠ none → Listable n data outcome.1 := by
  constructor
  · rintro ⟨entries, hdecode, hdescribes⟩ outcome houtcome
    have hlen : entries.length = (typed.map (listCall n data)).length := by
      rw [List.length_map, hdescribes.length_eq]
    have hclean := clean_of_decode_run hdecode hlen (listCall n data outcome)
      (List.mem_map_of_mem houtcome)
    exact (clean_listCall_iff n data outcome).mp hclean
  · intro hlistable
    refine ⟨_, decode_run ?_, ?_⟩
    · intro c hc
      obtain ⟨outcome, houtcome, rfl⟩ := List.mem_map.mp hc
      exact (clean_listCall_iff n data outcome).mpr (hlistable outcome houtcome)
    · rw [List.map_map, List.forall₂_map_right_iff, List.forall₂_same]
      exact fun outcome _ => describes_entry_listCall n data outcome

end Decoding

/-- A listing is the menu of the calls for the outcomes of typing its entries. -/
theorem exists_typed_of_listDir
    {ω : Type} {os : Os ω} {n : NodeFSys} {data : RequestData} {w w' : ω} {body : Body}
    (h : Prog.exec (n.listDir os data) w = (.ok body, w')) :
    ∃ dir w₁ typed,
      os.opendir (cStr data.fsysPath) w = (.ok dir, w₁) ∧
      Typed os data w₁ dir.entries typed w' ∧
      body = .menu (MenuWriter.run {} (typed.map (n.listCall data))) := by
  obtain ⟨dir, w₁, hopen, hloop⟩ := (Prog.exec_bind_eq_ok_iff _ _ _ _ _).mp h
  obtain ⟨writer, w₂, hentries, hreturn⟩ := (Prog.exec_bind_eq_ok_iff _ _ _ _ _).mp hloop
  simp only [Prog.exec_pure, Prod.mk.injEq, Except.ok.injEq] at hreturn
  obtain ⟨rfl, rfl⟩ := hreturn
  obtain ⟨typed, htyped, rfl⟩ := exec_listEntries dir.failure _ hentries
  exact ⟨dir, w₁, typed, (exec_sysCallWith_eq_ok_iff _ _ _ _ _).mp hopen, htyped, rfl⟩

end NodeFSys

/-- A writer that `list_dir` returns holds the outcomes of typing the entries that
are not hidden, in stream order: its menu decodes to exactly these exactly when
the names, the selector path and the host that go into it are fields. -/
theorem listing_decodes_iff
    {ω : Type} (os : Os ω) (n : NodeFSys) (data : RequestData)
    {w w' : ω} {body : Body}
    (h : Prog.exec (n.listDir os data) w = (.ok body, w')) :
    ∃ dir w₁ typed writer,
      os.opendir (cStr data.fsysPath) w = (.ok dir, w₁) ∧
      NodeFSys.Typed os data w₁ dir.entries typed w' ∧
      typed.map Prod.fst = dir.entries.filter (fun ent => !NodeFSys.hidden ent.name) ∧
      body = .menu writer ∧
      ((∃ entries, decode writer.beforeWrite.buffer = some entries ∧
          List.Forall₂ (n.Describes data) typed entries)
        ↔
      ∀ outcome ∈ typed, outcome.2 ≠ none → n.Listable data outcome.1) := by
  obtain ⟨dir, w₁, typed, hopen, htyped, rfl⟩ := NodeFSys.exists_typed_of_listDir h
  exact ⟨dir, w₁, typed, _, hopen, htyped, htyped.map_fst, rfl,
    NodeFSys.decode_listing_iff n data typed⟩

/-- A file system of directories, each of which lists the same entries. -/
def listingOf (entries : List DirEntry) : FileSys where
  stat _ := .ok S_IFDIR
  magicFile _ := none
  opendir _ := .ok ⟨entries, none⟩
  openFile _ := .error ENOENT
  fstat _ := .ok S_IFDIR
  fopen _ := .error ENOENT

/-- What `analyze_request` finds for the root of `/srv`. -/
def srvData : RequestData :=
  ⟨.menu, lit "/srv/", lit "1/", []⟩

/-- The listing of `/srv` when it holds a dot file and a directory. -/
theorem listing_decodes_iff_srv :
    let os := (listingOf [⟨lit ".git", by decide, by decide, by decide⟩,
      ⟨lit "doc", by decide, by decide, by decide⟩]).os
    ∃ dir w₁ typed writer,
      os.opendir (cStr srvData.fsysPath) () = (.ok dir, w₁) ∧
      NodeFSys.Typed os srvData w₁ dir.entries typed () ∧
      typed.map Prod.fst = dir.entries.filter (fun ent => !NodeFSys.hidden ent.name) ∧
      (Body.menu (({} : MenuWriter).node
        ⟨49, lit "doc", lit "1/doc", lit "localhost", 70⟩)) = .menu writer ∧
      ((∃ entries, decode writer.beforeWrite.buffer = some entries ∧
          List.Forall₂ (srvNode.Describes srvData) typed entries)
        ↔
      ∀ outcome ∈ typed, outcome.2 ≠ none → srvNode.Listable srvData outcome.1) :=
  listing_decodes_iff _ srvNode srvData (by rfl)

/-- A file name with a tab: the listing is no menu. -/
theorem listing_with_tab :
    ∃ writer,
      Prog.exec (srvNode.listDir
          (listingOf [⟨lit "a\tb", by decide, by decide, by decide⟩]).os srvData) () =
        (.ok (.menu writer), ()) ∧
      decode writer.beforeWrite.buffer = none :=
  ⟨({} : MenuWriter).node ⟨49, lit "a\tb", lit "1/a\tb", lit "localhost", 70⟩,
    by rfl, by decide⟩

end Gopher
end Goofy
