import Goofy.GophermapLines
import Goofy.Gopher.Menu
import Goofy.Gopher.NodeGopherMap

/-!
# Gophermap lines and menu lines

The node of a gophermap turns each line of its file into one call of the menu
writer (`exec_dispatch_eq`).  The line that the call appends is a well-formed
entity exactly when the texts that go into it are fields (`line_entity_iff`): a
text line must hold neither a tab nor a CR, and no part of a link that is copied
may hold a CR.

In the other direction, the line that the menu writer appends for a node is read
by the parser as a link to that node (`parseLine_node_line`).
-/

namespace Goofy
namespace Gopher

open Delimited Effect Util MapParser Rfc1436

namespace NodeGopherMap

/-- The call of the menu writer that an event leads to. -/
def lineCall (n : NodeGopherMap) (vpaths : VirtualPathsMap) :
    LineEvent → Except Fail MenuCall
  | .localNode node =>
      (vpaths.virtualPathOf node.selector.str).map
        (fun virtualPath => .node ⟨node.type, node.displayName.str, virtualPath,
          n.settings.self.hostname, n.settings.self.port⟩)
  | .remoteNode node =>
      .ok (.node ⟨node.type, node.displayName.str, node.selector.str,
        node.hostname.str, node.port⟩)
  | .url url =>
      .ok (.node ⟨NodeType.hypertext.code, url.displayName.str, url.href.str,
        n.settings.self.hostname, n.settings.self.port⟩)
  | .text line => .ok (.textString line.str)

/-- The callbacks make the call of the event, or fail before they write. -/
theorem exec_dispatch_eq
    (n : NodeGopherMap) (vpaths : VirtualPathsMap) (event : LineEvent) (writer : MenuWriter) :
    Prog.exec ((n.mapParser vpaths).dispatch event) writer =
      match n.lineCall vpaths event with
      | .ok c => (.ok (), c.apply writer)
      | .error f => (.error f, writer) := by
  cases event with
  | localNode node =>
      cases hpath : vpaths.virtualPathOf node.selector.str with
      | error f =>
          simp [Parser.dispatch, mapParser, call, lineCall, hpath, Except.map]
      | ok virtualPath =>
          simp only [Parser.dispatch, mapParser, call, lineCall, hpath, Except.map,
            Prog.lift_ok_bind]
          rfl
  | remoteNode node => rfl
  | url url => rfl
  | text line => rfl

/-- The texts that a link brings into the menu are fields.  The selector of a local
link is replaced by a virtual path, and the type of a URL by another one. -/
inductive LinkFits (n : NodeGopherMap) (vpaths : VirtualPathsMap)
    (type : Byte) (name selector : Bytes) : List Bytes → Prop
  | url {rest : List Bytes}
      (hurl : lit "URL:" <+: selector)
      (hname : FieldText name)
      (hselector : FieldText selector)
      (hhost : FieldText n.settings.self.hostname) :
      LinkFits n vpaths type name selector rest
  | localNode
      (hurl : ¬ lit "URL:" <+: selector)
      (htype : unascii type = true)
      (hname : FieldText name)
      (hpath : ∀ virtualPath, vpaths.virtualPathOf selector = .ok virtualPath →
        FieldText virtualPath)
      (hhost : FieldText n.settings.self.hostname) :
      LinkFits n vpaths type name selector []
  | remoteNode {host : Bytes} {rest : List Bytes}
      (hurl : ¬ lit "URL:" <+: selector)
      (htype : unascii type = true)
      (hname : FieldText name)
      (hselector : FieldText selector)
      (hhost : FieldText host) :
      LinkFits n vpaths type name selector (host :: rest)

/-- The texts that a line brings into the menu are fields. -/
def LineFits (n : NodeGopherMap) (vpaths : VirtualPathsMap) (s : Bytes) : Prop :=
  FieldText s ∨
    ∃ type name selector rest, IsLink s type name selector rest ∧
      LinkFits n vpaths type name selector rest

section Lines

variable {n : NodeGopherMap} {vpaths : VirtualPathsMap} {s : Bytes}
variable {type : Byte} {name selector : Bytes} {rest : List Bytes}

theorem lineFits_of_isText (htext : IsText s) :
    LineFits n vpaths s ↔ FieldText s := by
  constructor
  · rintro (h | ⟨_, _, _, _, hlink, -⟩)
    · exact h
    · exact absurd htext hlink.not_isText
  · exact Or.inl

/-- A link is no field, and its own fields are determined by the line. -/
theorem lineFits_of_isLink (hlink : IsLink s type name selector rest) :
    LineFits n vpaths s ↔ LinkFits n vpaths type name selector rest := by
  constructor
  · rintro (h | ⟨type', name', selector', rest', hlink', h⟩)
    · have hfields := hlink.fields
      rw [List.splitOn_eq_singleton (not_mem_of_field h rfl)] at hfields
      simp at hfields
    · have hfields := hlink'.fields
      rw [hlink.fields] at hfields
      simp only [List.cons.injEq] at hfields
      obtain ⟨⟨rfl, rfl⟩, rfl, rfl⟩ := hfields
      exact h
  · exact fun h => Or.inr ⟨type, name, selector, rest, hlink, h⟩

/-- The call of a link is clean exactly when its texts are fields. -/
theorem clean_linkCall_iff
    {event : LineEvent} {c : MenuCall}
    (hclassify : classifyLink n.settings (.of (type :: name)) (.of selector)
      (rest.map StrRef.of) = .ok event)
    (hcall : n.lineCall vpaths event = .ok c) :
    c.Clean ↔ LinkFits n vpaths type name selector rest := by
  by_cases hurl : lit "URL:" <+: selector
  · rw [classifyLink_url n.settings hurl] at hclassify
    obtain rfl := Except.ok.inj hclassify
    obtain rfl := Except.ok.inj hcall
    constructor
    · rintro ⟨-, hname, hselector, hhost⟩
      exact .url hurl hname hselector hhost
    · intro h
      cases h with
      | url _ hname hselector hhost => exact ⟨rfl, hname, hselector, hhost⟩
      | localNode hurl' => exact absurd hurl hurl'
      | remoteNode hurl' => exact absurd hurl hurl'
  · cases rest with
    | nil =>
        rw [List.map_nil, classifyLink_local n.settings hurl] at hclassify
        obtain rfl := Except.ok.inj hclassify
        cases hpath : vpaths.virtualPathOf selector with
        | error f => simp [lineCall, hpath, Except.map] at hcall
        | ok virtualPath =>
            simp only [lineCall, StrRef.str_of, hpath, Except.map, Except.ok.injEq] at hcall
            obtain rfl := hcall
            constructor
            · rintro ⟨htype, hname, hvirtual, hhost⟩
              refine .localNode hurl htype hname ?_ hhost
              intro v hv
              rw [hpath] at hv
              rwa [← Except.ok.inj hv]
            · intro h
              cases h with
              | url hurl' => exact absurd hurl' hurl
              | localNode _ htype hname hvirtual hhost =>
                  exact ⟨htype, hname, hvirtual _ hpath, hhost⟩
    | cons host rest =>
        rw [List.map_cons, classifyLink_remote n.settings hurl] at hclassify
        cases hport : portOf 70 (rest.map StrRef.of) with
        | error f => simp [hport, Except.map] at hclassify
        | ok port =>
            rw [hport] at hclassify
            obtain rfl := Except.ok.inj hclassify
            obtain rfl := Except.ok.inj hcall
            constructor
            · rintro ⟨htype, hname, hselector, hhost⟩
              exact .remoteNode hurl htype hname hselector hhost
            · intro h
              cases h with
              | url hurl' => exact absurd hurl' hurl
              | remoteNode _ htype hname hselector hhost =>
                  exact ⟨htype, hname, hselector, hhost⟩

/-- The call of a line that the parser handles is clean exactly when the line
fits. -/
theorem clean_lineCall_iff
    {event : LineEvent} {c : MenuCall}
    (hclassify : classify n.settings (.of s) = .ok event)
    (hcall : n.lineCall vpaths event = .ok c) :
    c.Clean ↔ LineFits n vpaths s := by
  have hlen := length_of_classify_eq_ok hclassify
  rcases isText_or_isLink s with htext | ⟨type, name, selector, rest, hlink⟩
  · rw [classify_text n.settings hlen htext] at hclassify
    obtain rfl := Except.ok.inj hclassify
    obtain rfl := Except.ok.inj hcall
    exact (lineFits_of_isText htext).symm
  · rw [classify_link n.settings hlen hlink] at hclassify
    rw [lineFits_of_isLink hlink]
    exact clean_linkCall_iff hclassify hcall

end Lines

end NodeGopherMap

/-- A line that is handled adds exactly one well-formed entity to the menu, an
information if the line is no link, exactly when the texts that it brings into the
menu are fields. -/
theorem line_entity_iff
    (n : NodeGopherMap) (vpaths : VirtualPathsMap) {s : Bytes} {writer writer' : MenuWriter}
    (h : Prog.exec ((n.mapParser vpaths).parseLine (.of s)) writer = (.ok (), writer')) :
    (∃ d : DirEntity, d.WellFormed ∧ writer'.buffer = writer.buffer ++ d.render ∧
        (IsText s → d.type = NodeType.info.code))
      ↔
    n.LineFits vpaths s := by
  rw [parseLine_eq (n.mapParser vpaths) (Or.inl rfl)] at h
  have hsettings : (n.mapParser vpaths).settings = n.settings := rfl
  rw [hsettings] at h
  cases hclassify : classify n.settings (.of s) with
  | error f => simp [hclassify] at h
  | ok event =>
      rw [hclassify, Prog.lift_ok_bind, NodeGopherMap.exec_dispatch_eq] at h
      cases hcall : n.lineCall vpaths event with
      | error f => simp [hcall] at h
      | ok c =>
          simp only [hcall, Prod.mk.injEq, true_and] at h
          rw [← h, MenuCall.buffer_apply,
            ← NodeGopherMap.clean_lineCall_iff hclassify hcall]
          constructor
          · rintro ⟨d, hd, hbuffer, -⟩
            exact (MenuCall.render_eq_iff_clean c).mp
              ⟨d, hd, List.append_cancel_left hbuffer⟩
          · intro hclean
            refine ⟨c.entity, MenuCall.wellFormed_entity hclean, rfl, ?_⟩
            intro htext
            rw [classify_text n.settings (length_of_classify_eq_ok hclassify) htext]
              at hclassify
            obtain rfl := Except.ok.inj hclassify
            obtain rfl := Except.ok.inj hcall
            rfl

/-- The node of a gophermap, with default settings. -/
def mapNode : NodeGopherMap where
  info := ⟨NodeType.menu.code, lit "map", [], lit "localhost", 70⟩
  tab_not_mem := by decide
  settings := {}
  filePath := lit "map"

/-- A remote link, from a file whose lines end with CR LF. -/
theorem line_entity_remote :
    (∃ d : DirEntity, d.WellFormed ∧
        (({} : MenuWriter).node ⟨49, lit "foo", lit "sel", lit "host", 7070⟩).buffer =
          ({} : MenuWriter).buffer ++ d.render ∧
        (IsText (lit "1foo\tsel\thost\t7070\r") → d.type = NodeType.info.code))
      ↔
    mapNode.LineFits ⟨∅⟩ (lit "1foo\tsel\thost\t7070\r") :=
  line_entity_iff mapNode ⟨∅⟩ (by rfl)

/-- A text with a CR at its end, and a line with too many fields: what they add to
the menu is the line of no well-formed entity. -/
theorem text_line_not_entity :
    (Prog.exec ((mapNode.mapParser ⟨∅⟩).parseLine (.of (lit "hello\r"))) {} =
          (.ok (), ({} : MenuWriter).textString (lit "hello\r")) ∧
        ¬ ∃ d : DirEntity, d.WellFormed ∧
          (({} : MenuWriter).textString (lit "hello\r")).buffer = d.render) ∧
      Prog.exec ((mapNode.mapParser ⟨∅⟩).parseLine (.of (lit "a\tb\tc\td\te"))) {} =
          (.ok (), ({} : MenuWriter).textString (lit "a\tb\tc\td\te")) ∧
        ¬ ∃ d : DirEntity, d.WellFormed ∧
          (({} : MenuWriter).textString (lit "a\tb\tc\td\te")).buffer = d.render := by
  have hdirty : ∀ s, ¬ FieldText s → ¬ ∃ d : DirEntity, d.WellFormed ∧
      (({} : MenuWriter).textString s).buffer = d.render := by
    rintro s hs ⟨d, hd, hbuffer⟩
    have hrender : (MenuCall.textString s).entity.render = d.render := by
      have happly := MenuCall.buffer_apply {} (.textString s)
      rw [← hbuffer]
      exact happly.symm
    exact hs ((MenuCall.render_eq_iff_clean (.textString s)).mp ⟨d, hd, hrender⟩)
  exact ⟨⟨by rfl, hdirty _ (by decide)⟩, by rfl, hdirty _ (by decide)⟩

/-- The fields of a menu line, also when the CR of its end is left. -/
theorem isLink_of_entity_line
    (info : NodeInfo) (htype : info.type ≠ TAB) (hname : info.displayName ≠ [])
    (htab : ∀ s ∈ [info.displayName, info.selector, info.host], TAB ∉ s)
    {rest : Bytes} (hrest : TAB ∉ rest) :
    IsLink ((MenuCall.node info).entity.line ++ rest) info.type info.displayName
      info.selector [info.host, toDecimal info.port.toNat ++ rest] := by
  simp only [List.forall_mem_cons, List.not_mem_nil, false_implies, implies_true,
    and_true] at htab
  obtain ⟨hdisplay, hselector, hhost⟩ := htab
  have hfirst : TAB ∉ info.type :: info.displayName := by
    simp only [List.mem_cons, not_or]
    exact ⟨htype.symm, hdisplay⟩
  have hport : TAB ∉ toDecimal info.port.toNat ++ rest := by
    rw [List.mem_append, not_or]
    exact ⟨Decimal.not_mem_encode (by decide), hrest⟩
  have hline : (MenuCall.node info).entity.line ++ rest =
      (info.type :: info.displayName) ++ TAB :: (info.selector ++ TAB ::
        (info.host ++ TAB :: (toDecimal info.port.toNat ++ rest))) := by
    simp [MenuCall.entity, MenuCall.entry, DirEntity.line]
  refine ⟨?_, hname, by simp⟩
  rw [hline, List.splitOn_append_cons_self_of_not_mem hfirst,
    List.splitOn_append_cons_self_of_not_mem hselector,
    List.splitOn_append_cons_self_of_not_mem hhost,
    List.splitOn_eq_singleton hport]

/-- The parser undoes the menu writer: the line of a node, with its end or only its
LF removed, leads to one call, for a remote node with the same parts. -/
theorem parseLine_node_line
    {τ : Type} (p : Parser τ) {gotRemoteNode : RemoteNode → Prog τ Unit}
    (hp : p.onRemoteNode = some gotRemoteNode)
    (w : MenuWriter) (info : NodeInfo)
    (htype : info.type ≠ TAB) (hname : info.displayName ≠ [])
    (htab : ∀ s ∈ [info.displayName, info.selector, info.host], TAB ∉ s)
    (hurl : ¬ lit "URL:" <+: info.selector)
    {line eol : Bytes} (heol : eol = [CR, LF] ∨ eol = [LF])
    (hline : (w.node info).buffer = w.buffer ++ line ++ eol)
    (hlen : line.length < 2 ^ 32) :
    p.parseLine (.of line) =
      gotRemoteNode ⟨info.type, .of info.displayName, .of info.selector,
        .of info.host, info.port⟩ := by
  obtain ⟨rest, hrest, hrestTab, hline⟩ : ∃ rest,
      (∀ b, rest.head? = some b → Decimal.isDigit b = false) ∧ TAB ∉ rest ∧
      line = (MenuCall.node info).entity.line ++ rest := by
    have hbuffer : w.buffer ++ (MenuCall.node info).entity.render =
        w.buffer ++ (line ++ eol) := by
      rw [← MenuCall.buffer_apply, ← List.append_assoc, ← hline]
      rfl
    have hrender := List.append_cancel_left hbuffer
    rcases heol with rfl | rfl
    · refine ⟨[], by simp, by simp, ?_⟩
      rw [List.append_nil]
      exact (List.append_cancel_right hrender).symm
    · refine ⟨[CR], ?_, by decide, ?_⟩
      · intro b hb
        rw [← Option.some.inj hb]
        rfl
      · have hsplit : (MenuCall.node info).entity.render =
            (MenuCall.node info).entity.line ++ [CR] ++ [LF] := by
          simp [DirEntity.render]
        rw [hsplit] at hrender
        exact (List.append_cancel_right hrender).symm
  have hlink := isLink_of_entity_line info htype hname htab hrestTab
  rw [← hline] at hlink
  have hport : portOf 70 [.of (toDecimal info.port.toNat ++ rest)] = .ok info.port := by
    rw [portOf, StrRef.str_of, strtoUint16_toDecimal info.port hrest]
    rfl
  have hclassify : classify p.settings (.of line) =
      .ok (.remoteNode ⟨info.type, .of info.displayName, .of info.selector,
        .of info.host, info.port⟩) := by
    rw [classify_link p.settings hlen hlink, List.map_cons,
      classifyLink_remote p.settings hurl, List.map_cons, List.map_nil, hport]
    rfl
  rw [parseLine_eq p (Or.inr (by rw [hp]; rfl)), hclassify, Prog.lift_ok_bind,
    Parser.dispatch, hp]
  rfl

/-- A node with an empty selector and the largest port, read by a parser that also
handles local nodes. -/
theorem parseLine_node_line_max :
    (MapParser.recorder {}).parseLine (.of (lit "1foo\t\thost\t65535\r")) =
      Prog.prim (fun events => (.ok (),
        events ++ [.remoteNode ⟨49, .of (lit "foo"), .of [], .of (lit "host"), 65535⟩])) :=
  parseLine_node_line (MapParser.recorder {}) rfl {} ⟨49, lit "foo", [], lit "host", 65535⟩
    (by decide) (by decide) (by decide) (by decide) (Or.inr rfl) (by rfl) (by decide)

end Gopher
end Goofy
