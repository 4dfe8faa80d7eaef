import Goofy.Gopher.GophermapMenu

/-!
# The menu of a gophermap

What a client gets for a gophermap.  The node makes one call of the menu writer for
each line of the file, in order, and answers exactly when every line has its call
(`exec_makeWriter_eq_ok_iff`).

`Shows` says which entry a line is meant to have, in terms of the fields of the line
and the virtual paths alone.  Decoding the menu gives the entries that the lines are
meant to have exactly when the texts of every line fit (`gophermap_decodes_iff`).
-/

namespace Goofy
namespace Gopher

open Delimited Effect Util MapParser Rfc1436

theorem VirtualPathsMap.virtualPathOf_eq_ok_iff
    (vpaths : VirtualPathsMap) (path virtualPath : Bytes) :
    vpaths.virtualPathOf path = .ok virtualPath ↔
      vpaths.paths.lookup path = some virtualPath := by
  rw [virtualPathOf]
  cases vpaths.paths.lookup path with
  | none => simp
  | some found => simp

namespace NodeGopherMap

/-- The call of the menu writer that a line leads to. -/
def callOf (n : NodeGopherMap) (vpaths : VirtualPathsMap) (line : StrRef) :
    Except Fail MenuCall :=
  match classify n.settings line with
  | .error f => .error f
  | .ok event => n.lineCall vpaths event

/-- The entry that a line is meant to have: a text, or a link to its own node, with the
virtual path of a local one. -/
inductive Shows (n : NodeGopherMap) (vpaths : VirtualPathsMap) (s : Bytes) : Entry → Prop
  | text (htext : IsText s) :
      Shows n vpaths s ⟨NodeType.info.code, s, [], lit "info.host", 1⟩
  | url {type : Byte} {name selector : Bytes} {rest : List Bytes}
      (hlink : IsLink s type name selector rest)
      (hurl : lit "URL:" <+: selector) :
      Shows n vpaths s ⟨NodeType.hypertext.code, name, selector,
        n.settings.self.hostname, n.settings.self.port.toNat⟩
  | localNode {type : Byte} {name selector virtualPath : Bytes} {rest : List Bytes}
      (hlink : IsLink s type name selector rest)
      (hurl : ¬ lit "URL:" <+: selector)
      (hhost : rest.headD [] = [])
      (hpath : vpaths.paths.lookup selector = some virtualPath) :
      Shows n vpaths s ⟨type, name, virtualPath,
        n.settings.self.hostname, n.settings.self.port.toNat⟩
  | remoteNode {type : Byte} {name selector host : Bytes} {rest : List Bytes} {port : UInt16}
      (hlink : IsLink s type name selector (host :: rest))
      (hurl : ¬ lit "URL:" <+: selector)
      (hhost : host ≠ [])
      (hport : PortField rest port) :
      Shows n vpaths s ⟨type, name, selector, host, port.toNat⟩

section Calls

variable {n : NodeGopherMap} {vpaths : VirtualPathsMap}

/-- The parser makes the call of the line, or fails before it writes. -/
theorem exec_parseLine_eq
    (line : StrRef) (writer : MenuWriter) :
    Prog.exec ((n.mapParser vpaths).parseLine line) writer =
      match n.callOf vpaths line with
      | .ok c => (.ok (), c.apply writer)
      | .error f => (.error f, writer) := by
  have hsettings : (n.mapParser vpaths).settings = n.settings := rfl
  rw [parseLine_eq (n.mapParser vpaths) (Or.inl rfl), hsettings, callOf]
  cases classify n.settings line with
  | error f =>
      rfl
  | ok event =>
      exact exec_dispatch_eq n vpaths event writer

/-- A null reference is as good as an empty line. -/
theorem callOf_eq_of_str
    (line : StrRef) :
    n.callOf vpaths line = n.callOf vpaths (.of line.str) := by
  obtain ⟨start⟩ := line
  cases start with
  | none => rfl
  | some s => rfl

/-- A call comes from the event of the line. -/
theorem exists_event_of_callOf
    {line : StrRef} {c : MenuCall}
    (hcall : n.callOf vpaths line = .ok c) :
    ∃ event, classify n.settings (.of line.str) = .ok event ∧
      n.lineCall vpaths event = .ok c := by
  rw [callOf_eq_of_str, callOf] at hcall
  cases hclassify : classify n.settings (.of line.str) with
  | error f =>
      simp [hclassify] at hcall
  | ok event =>
      rw [hclassify] at hcall
      exact ⟨event, rfl, hcall⟩

/-- Each call comes from a line of the file. -/
theorem exists_line_of_mem_calls
    {lines : List StrRef} {calls : List MenuCall}
    (hcalls : List.Forall₂ (fun line c => n.callOf vpaths line = .ok c) lines calls)
    {c : MenuCall} (hc : c ∈ calls) :
    ∃ line ∈ lines, n.callOf vpaths line = .ok c := by
  induction hcalls with
  | nil => cases hc
  | @cons line c' lines calls hcall _ ih =>
      rcases List.mem_cons.mp hc with rfl | hc
      · exact ⟨line, List.mem_cons_self, hcall⟩
      · obtain ⟨line', hline', hcall'⟩ := ih hc
        exact ⟨line', List.mem_cons_of_mem _ hline', hcall'⟩

/-- The call of a line is clean exactly when the line fits. -/
theorem clean_callOf_iff
    {line : StrRef} {c : MenuCall}
    (hcall : n.callOf vpaths line = .ok c) :
    c.Clean ↔ n.LineFits vpaths line.str := by
  obtain ⟨event, hclassify, hcall⟩ := exists_event_of_callOf hcall
  exact clean_lineCall_iff hclassify hcall

/-- Unless its host field is empty, a line is shown as the entry it is meant to have. -/
theorem shows_of_callOf
    {line : StrRef} {c : MenuCall}
    (hcall : n.callOf vpaths line = .ok c)
    (hhost : ¬ EmptyHost line.str) :
    n.Shows vpaths line.str c.entry := by
  obtain ⟨event, hclassify, hcall⟩ := exists_event_of_callOf hcall
  cases lineMeans_of_classify hclassify hhost with
  | text htext =>
      obtain rfl := Except.ok.inj hcall
      exact .text htext
  | url hlink hurl =>
      obtain rfl := Except.ok.inj hcall
      exact .url hlink hurl
  | @localNode type name selector rest hlink hurl hnone =>
      cases hpath : vpaths.virtualPathOf selector with
      | error f =>
          simp [lineCall, hpath, Except.map] at hcall
      | ok virtualPath =>
          simp only [lineCall, StrRef.str_of, hpath, Except.map, Except.ok.injEq] at hcall
          obtain rfl := hcall
          exact .localNode hlink hurl hnone
            ((vpaths.virtualPathOf_eq_ok_iff _ _).mp hpath)
  | remoteNode hlink hurl hsome hport =>
      obtain rfl := Except.ok.inj hcall
      exact .remoteNode hlink hurl hsome hport

end Calls

/-- A file makes a menu exactly when it can be read to the end and every line has its
call; the menu is that of the calls, in the order of the lines. -/
theorem writeMenu_eq_ok_iff
    (n : NodeGopherMap) (vpaths : VirtualPathsMap) (file : FileStream) (writer : MenuWriter) :
    n.writeMenu vpaths (.opened file) = (.ok (), writer)
      ↔
    file.lines.2 = none ∧
      ∃ calls, List.Forall₂ (fun line c => n.callOf vpaths line = .ok c) file.lines.1 calls ∧
        writer = MenuWriter.run {} calls := by
  have hloop : ∀ writer' : MenuWriter,
      Prog.exec (forM file.lines.1 (n.mapParser vpaths).parseLine) {} = (.ok (), writer') ↔
        ∃ calls, List.Forall₂ (fun line c => n.callOf vpaths line = .ok c)
          file.lines.1 calls ∧ writer' = MenuWriter.run {} calls := by
    intro writer'
    refine Prog.exec_forM_eq_ok_iff ?_ ?_ _ _ _
    · intro line writer c hcall
      rw [exec_parseLine_eq, hcall]
    · intro line writer f hcall
      rw [exec_parseLine_eq, hcall]
  rw [writeMenu, forEachLine_opened, Prog.exec_bind_eq_ok_iff]
  cases hlast : file.lines.2 with
  | none =>
      constructor
      · rintro ⟨_, writer', hexec, hfinish⟩
        obtain rfl : writer' = writer := congrArg Prod.snd hfinish
        exact ⟨rfl, (hloop writer').mp hexec⟩
      · rintro ⟨-, hcalls⟩
        exact ⟨(), writer, (hloop writer).mpr hcalls, rfl⟩
  | some e =>
      simp [finish]

/-- The node answers exactly when its file is there and makes a menu. -/
theorem exec_makeWriter_eq_ok_iff
    {ω : Type} (os : Os ω) (n : NodeGopherMap) (vpaths : VirtualPathsMap)
    (w w' : ω) (body : Body) :
    Prog.exec (n.makeWriter os vpaths) w = (.ok body, w')
      ↔
    ∃ file writer, os.fopen (cStr n.filePath) w = (.ok file, w') ∧
      n.writeMenu vpaths (.opened file) = (.ok (), writer) ∧ body = .menu writer := by
  rcases hopen : os.fopen (cStr n.filePath) w with ⟨res, w₁⟩
  cases res with
  | error e =>
      rw [makeWriter, Prog.exec_bind_error (Util.Reader.exec_feed_error hopen)]
      simp
  | ok file =>
      rw [makeWriter, Prog.exec_bind_ok (Util.Reader.exec_feed_ok hopen), Prog.exec_lift]
      rcases hmenu : n.writeMenu vpaths (.opened file) with ⟨done, writer⟩
      cases done with
      | error f =>
          simp [Except.map, hmenu]
      | ok _ =>
          simp [Except.map, hmenu, eq_comm, and_comm]

end NodeGopherMap

/-- A line with an empty host field has an empty third field. -/
theorem not_emptyHost_of_fields
    {s : Bytes} (hfields : (s.splitOn TAB)[2]? ≠ some []) :
    ¬ EmptyHost s := by
  rintro ⟨type, name, selector, rest, hlink, -⟩
  rw [hlink.fields] at hfields
  exact hfields rfl

/-- The menu that answers a request for a gophermap, when no line of the file has an empty
host field: it decodes to the entries that the lines are meant to have, one for each line
and in their order, exactly when the texts that every line brings into it are fields. -/
theorem gophermap_decodes_iff
    {ω : Type} (os : Os ω) (n : NodeGopherMap) (vpaths : VirtualPathsMap)
    {w w' : ω} {body : Body}
    (hserved : Prog.exec (n.makeWriter os vpaths) w = (.ok body, w'))
    (hhosts : ∀ file, os.fopen (cStr n.filePath) w = (.ok file, w') →
      ∀ line ∈ file.lines.1, ¬ EmptyHost line.str) :
    ∃ file writer, os.fopen (cStr n.filePath) w = (.ok file, w') ∧ body = .menu writer ∧
      ((∃ entries, decode writer.beforeWrite.buffer = some entries ∧
          List.Forall₂ (fun line => n.Shows vpaths line.str) file.lines.1 entries)
        ↔
      ∀ line ∈ file.lines.1, n.LineFits vpaths line.str) := by
  obtain ⟨file, writer, hopen, hmenu, rfl⟩ :=
    (n.exec_makeWriter_eq_ok_iff os vpaths w w' body).mp hserved
  obtain ⟨-, calls, hcalls, rfl⟩ := (n.writeMenu_eq_ok_iff vpaths file writer).mp hmenu
  have hhosts := hhosts file hopen
  have hclean : (∀ c ∈ calls, c.Clean) ↔
      ∀ line ∈ file.lines.1, n.LineFits vpaths line.str := by
    clear hopen hmenu hserved
    generalize file.lines.1 = lines at hcalls
    induction hcalls with
    | nil => simp
    | cons hcall _ ih =>
        rw [List.forall_mem_cons, List.forall_mem_cons, ih,
          NodeGopherMap.clean_callOf_iff hcall]
  refine ⟨file, _, hopen, rfl, ?_⟩
  rw [← hclean]
  constructor
  · rintro ⟨entries, hdecode, hshows⟩
    exact clean_of_decode_run hdecode (hshows.length_eq.symm.trans hcalls.length_eq)
  · intro hclean
    refine ⟨_, decode_run hclean, ?_⟩
    rw [List.forall₂_map_right_iff]
    have hboth := (List.forall₂_and_left _ _).mpr ⟨hhosts, hcalls⟩
    exact hboth.imp (fun _ _ h => NodeGopherMap.shows_of_callOf h.2 h.1)

/-- A gophermap of a text and of a link to a directory. -/
def greetingFile : FileStream :=
  ⟨lit "hello\n1docs\tdocs\n", none⟩

/-- The directory has the virtual path `1`. -/
def docsPaths : VirtualPathsMap :=
  ⟨AList.insert (lit "docs") (lit "1") ∅⟩

/-- The calls for the lines, of which the last one has no characters. -/
def greetingCalls : List MenuCall :=
  [.textString (lit "hello"), .node ⟨49, lit "docs", lit "1", lit "localhost", 70⟩,
    .textString []]

theorem lines_greetingFile :
    greetingFile.lines = ([.of (lit "hello"), .of (lit "1docs\tdocs"), ⟨none⟩], none) := by
  rfl

/-- A system where every file is that gophermap. -/
def greetingOs : Os Unit where
  stat _ w := (.ok S_IFREG, w)
  magicFile _ w := (none, w)
  opendir _ w := (.error ENOENT, w)
  openFile _ w := (.error ENOENT, w)
  fstat _ w := (.error ENOENT, w)
  fopen _ w := (.ok greetingFile, w)

/-- The menu of that gophermap decodes to what its lines are meant to be. -/
theorem greeting_decodes :
    ∃ file writer, greetingOs.fopen (cStr mapNode.filePath) () = (.ok file, ()) ∧
      Body.menu (MenuWriter.run {} greetingCalls) = .menu writer ∧
      ((∃ entries, decode writer.beforeWrite.buffer = some entries ∧
          List.Forall₂ (fun line => mapNode.Shows docsPaths line.str) file.lines.1 entries)
        ↔
      ∀ line ∈ file.lines.1, mapNode.LineFits docsPaths line.str) := by
  have hserved : Prog.exec (mapNode.makeWriter greetingOs docsPaths) () =
      (.ok (.menu (MenuWriter.run {} greetingCalls)), ()) := by
    refine (mapNode.exec_makeWriter_eq_ok_iff _ _ _ _ _).mpr ⟨greetingFile, _, rfl, ?_, rfl⟩
    refine (mapNode.writeMenu_eq_ok_iff _ _ _).mpr ⟨?_, greetingCalls, ?_, rfl⟩
    · rw [lines_greetingFile]
    · rw [lines_greetingFile]
      exact .cons rfl (.cons rfl (.cons rfl .nil))
  refine gophermap_decodes_iff greetingOs mapNode docsPaths hserved ?_
  intro file hopen line hline
  obtain rfl : greetingFile = file := Except.ok.inj (congrArg Prod.fst hopen)
  rw [lines_greetingFile] at hline
  simp only [List.mem_cons, List.not_mem_nil, or_false] at hline
  rcases hline with rfl | rfl | rfl
  · exact not_emptyHost_of_fields (by decide)
  · exact not_emptyHost_of_fields (by decide)
  · exact not_emptyHost_of_fields (by decide)

end Gopher
end Goofy
