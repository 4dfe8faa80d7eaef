import Goofy.MapParser
import Goofy.Util.Numeral

/-!
# The meaning of gophermap lines

The fields of a line are what its tabs separate.  `LineMeans` says what a line is
meant to be, in terms of its fields alone: a text, a URL, a local or a remote
node.  The parser agrees with it except for one kind of line
(`line_means_iff`): a host field that is there but has no characters makes a
remote node, where a local one is meant.

The port of a link is read by `strtoll`, which ignores what follows a number.
`bad_port_reported_iff` says which bad ports become the error of the program.
-/

namespace Goofy

open Delimited Effect Util

namespace MapParser

/-- The line is no link: it has one field or too many, or a short first one. -/
def IsText (s : Bytes) : Prop :=
  (s.splitOn TAB).length = 1 ∨ 4 < (s.splitOn TAB).length ∨
    ((s.splitOn TAB).headD []).length < 2

/-- The line is a link with a type and a name, a selector, and further fields. -/
structure IsLink (s : Bytes) (type : Byte) (name selector : Bytes)
    (rest : List Bytes) : Prop where
  fields : s.splitOn TAB = (type :: name) :: selector :: rest
  name_ne_nil : name ≠ []
  length_rest : rest.length ≤ 2

/-- The port that the fields behind the host stand for. -/
inductive PortField : List Bytes → UInt16 → Prop
  | absent : PortField [] 70
  | present {field : Bytes} {port : UInt16} (hport : strtoUint16 field = .ok port) :
      PortField [field] port

/-- What a line is meant to be.  A host field without characters is as good as
none. -/
inductive LineMeans (s : Bytes) : LineEvent → Prop
  | text (htext : IsText s) :
      LineMeans s (.text (.of s))
  | url {type : Byte} {name selector : Bytes} {rest : List Bytes}
      (hlink : IsLink s type name selector rest)
      (hurl : lit "URL:" <+: selector) :
      LineMeans s (.url ⟨.of name, .of selector⟩)
  | localNode {type : Byte} {name selector : Bytes} {rest : List Bytes}
      (hlink : IsLink s type name selector rest)
      (hurl : ¬ lit "URL:" <+: selector)
      (hhost : rest.headD [] = []) :
      LineMeans s (.localNode ⟨type, .of name, .of selector⟩)
  | remoteNode {type : Byte} {name selector host : Bytes} {rest : List Bytes}
      {port : UInt16}
      (hlink : IsLink s type name selector (host :: rest))
      (hurl : ¬ lit "URL:" <+: selector)
      (hhost : host ≠ [])
      (hport : PortField rest port) :
      LineMeans s (.remoteNode ⟨type, .of name, .of selector, .of host, port⟩)

/-- The line is a link whose host field is there but has no characters. -/
def EmptyHost (s : Bytes) : Prop :=
  ∃ type name selector rest, IsLink s type name selector ([] :: rest) ∧
    ¬ lit "URL:" <+: selector

/-- All four callbacks are set. -/
structure Parser.Complete {τ : Type} (p : Parser τ) : Prop where
  onLocalNode : p.onLocalNode.isSome = true
  onRemoteNode : p.onRemoteNode.isSome = true
  onUrl : p.onUrl.isSome = true
  onText : p.onText.isSome = true

/-- A parser whose callbacks write their calls down. -/
def recorder (settings : Settings) : Parser (List LineEvent) where
  settings := settings
  onLocalNode := some (fun node => Prog.prim (fun events =>
    (.ok (), events ++ [.localNode node])))
  onRemoteNode := some (fun node => Prog.prim (fun events =>
    (.ok (), events ++ [.remoteNode node])))
  onUrl := some (fun url => Prog.prim (fun events => (.ok (), events ++ [.url url])))
  onText := some (fun line => Prog.prim (fun events => (.ok (), events ++ [.text line])))

theorem complete_recorder (settings : Settings) : (recorder settings).Complete :=
  ⟨rfl, rfl, rfl, rfl⟩

@[simp] theorem exec_dispatch_recorder
    (settings : Settings) (event : LineEvent) (events : List LineEvent) :
    Prog.exec ((recorder settings).dispatch event) events =
      (.ok (), events ++ [event]) := by
  cases event <;> rfl

section Fields

variable {s : Bytes}

theorem isText_or_isLink (s : Bytes) :
    IsText s ∨ ∃ type name selector rest, IsLink s type name selector rest := by
  by_cases htext : IsText s
  · exact Or.inl htext
  · right
    simp only [IsText, not_or] at htext
    obtain ⟨hone, hmany, hshort⟩ := htext
    match hfields : s.splitOn TAB with
    | [] => exact absurd hfields (List.splitOn_ne_nil TAB s)
    | [_] => simp [hfields] at hone
    | [] :: _ :: _ => simp [hfields] at hshort
    | [_] :: _ :: _ => simp [hfields] at hshort
    | (type :: b :: name) :: selector :: rest =>
        refine ⟨type, b :: name, selector, rest, hfields, by simp, ?_⟩
        rw [hfields] at hmany
        simp only [List.length_cons] at hmany
        omega

theorem IsLink.not_isText
    {type : Byte} {name selector : Bytes} {rest : List Bytes}
    (h : IsLink s type name selector rest) : ¬ IsText s := by
  have hname : name.length ≠ 0 := by simpa using h.name_ne_nil
  have hrest := h.length_rest
  rw [IsText, h.fields]
  simp only [List.length_cons, List.headD_cons]
  omega

/-- On lines that can be scanned, the tokens are the fields. -/
theorem classify_of (settings : Settings) (hlen : s.length < 2 ^ 32) :
    classify settings (.of s) =
      classifyTokens settings (.of s) ((s.splitOn TAB).map StrRef.of) := by
  rw [classify, tokenize_of TAB hlen]

theorem length_of_classify_eq_ok {settings : Settings} {event : LineEvent}
    (h : classify settings (.of s) = .ok event) : s.length < 2 ^ 32 := by
  unfold classify at h
  cases htokens : tokenize (.of s) TAB with
  | error f => simp [htokens] at h
  | ok tokens => exact (length_of_tokenize_eq_ok TAB htokens).1

theorem classify_text (settings : Settings) (hlen : s.length < 2 ^ 32) (htext : IsText s) :
    classify settings (.of s) = .ok (.text (.of s)) := by
  rw [classify_of settings hlen]
  unfold IsText at htext
  match hfields : s.splitOn TAB with
  | [] => exact absurd hfields (List.splitOn_ne_nil TAB s)
  | [_] => rfl
  | first :: selector :: rest =>
      rw [hfields] at htext
      have hcond : 2 < (rest.map StrRef.of).length ∨ (StrRef.of first).empty = true ∨
          (StrRef.of first).len < 2 := by
        simp only [List.length_cons, List.headD_cons] at htext
        rw [List.length_map, StrRef.len_of]
        omega
      rw [List.map_cons, List.map_cons, classifyTokens, if_pos hcond]

theorem classify_link
    (settings : Settings) (hlen : s.length < 2 ^ 32)
    {type : Byte} {name selector : Bytes} {rest : List Bytes}
    (hlink : IsLink s type name selector rest) :
    classify settings (.of s) =
      classifyLink settings (.of (type :: name)) (.of selector) (rest.map StrRef.of) := by
  have hname : name.length ≠ 0 := by simpa using hlink.name_ne_nil
  have hrest := hlink.length_rest
  have hcond : ¬ (2 < (rest.map StrRef.of).length ∨
      (StrRef.of (type :: name)).empty = true ∨ (StrRef.of (type :: name)).len < 2) := by
    have hempty : (StrRef.of (type :: name)).empty = false := rfl
    rw [List.length_map, StrRef.len_of, hempty, List.length_cons]
    simp only [Bool.false_eq_true, false_or]
    omega
  rw [classify_of settings hlen, hlink.fields, List.map_cons, List.map_cons,
    classifyTokens, if_neg hcond]

variable {type : Byte} {name selector : Bytes} {rest : List Bytes}

theorem classifyLink_url
    (settings : Settings) (hurl : lit "URL:" <+: selector) (tokens : List StrRef) :
    classifyLink settings (.of (type :: name)) (.of selector) tokens =
      .ok (.url ⟨.of name, .of selector⟩) := by
  have hfind : find (lit "URL:") (StrRef.of selector).str = some 0 :=
    (find_eq_zero_iff _ _).mpr hurl
  unfold classifyLink
  rw [if_pos hfind]
  rfl

theorem not_find_url (hurl : ¬ lit "URL:" <+: selector) :
    find (lit "URL:") (StrRef.of selector).str ≠ some 0 := by
  intro hfind
  exact hurl ((find_eq_zero_iff _ _).mp hfind)

theorem classifyLink_local
    (settings : Settings) (hurl : ¬ lit "URL:" <+: selector) :
    classifyLink settings (.of (type :: name)) (.of selector) [] =
      .ok (.localNode ⟨type, .of name, .of selector⟩) := by
  unfold classifyLink
  rw [if_neg (not_find_url hurl)]
  rfl

/-- A host field makes a remote node, also when it has no characters. -/
theorem classifyLink_remote
    (settings : Settings) (hurl : ¬ lit "URL:" <+: selector)
    (host : Bytes) (tokens : List StrRef) :
    classifyLink settings (.of (type :: name)) (.of selector) (.of host :: tokens) =
      (portOf 70 tokens).map
        (fun port => .remoteNode ⟨type, .of name, .of selector, .of host, port⟩) := by
  unfold classifyLink
  rw [if_neg (not_find_url hurl)]
  rfl

theorem portField_of_portOf {port : UInt16} (hlen : rest.length ≤ 1)
    (h : portOf 70 (rest.map StrRef.of) = .ok port) : PortField rest port := by
  match rest with
  | [] =>
      rw [← Except.ok.inj h]
      exact .absent
  | [field] =>
      refine .present ?_
      cases hread : strtoUint16 field with
      | ok val => simpa [portOf, hread, Except.mapError] using h
      | error e => simp [portOf, hread, Except.mapError] at h

/-- Unless its host field is empty, a line is what it is meant to be. -/
theorem lineMeans_of_classify
    {settings : Settings} {event : LineEvent}
    (h : classify settings (.of s) = .ok event)
    (hhost : ¬ EmptyHost s) :
    LineMeans s event := by
  have hlen := length_of_classify_eq_ok h
  rcases isText_or_isLink s with htext | ⟨type, name, selector, rest, hlink⟩
  · rw [classify_text settings hlen htext] at h
    rw [← Except.ok.inj h]
    exact .text htext
  · rw [classify_link settings hlen hlink] at h
    by_cases hurl : lit "URL:" <+: selector
    · rw [classifyLink_url settings hurl] at h
      rw [← Except.ok.inj h]
      exact .url hlink hurl
    · cases rest with
      | nil =>
          rw [List.map_nil, classifyLink_local settings hurl] at h
          rw [← Except.ok.inj h]
          exact .localNode hlink hurl rfl
      | cons host rest =>
          have hne : host ≠ [] := by
            rintro rfl
            exact hhost ⟨type, name, selector, rest, hlink, hurl⟩
          have hrest : rest.length ≤ 1 := by
            have := hlink.length_rest
            simp only [List.length_cons] at this
            omega
          rw [List.map_cons, classifyLink_remote settings hurl] at h
          cases hport : portOf 70 (rest.map StrRef.of) with
          | error f => simp [hport, Except.map] at h
          | ok port =>
              rw [hport] at h
              rw [← Except.ok.inj h]
              exact .remoteNode hlink hurl hne (portField_of_portOf hrest hport)

end Fields

/-- A line that the parser handles leads to exactly the call that it is meant for,
whatever the four callbacks do, exactly when it has no empty host field. -/
theorem line_means_iff
    {settings : Settings} {s : Bytes} {events : List LineEvent}
    (hok : Prog.exec ((recorder settings).parseLine (.of s)) [] = (.ok (), events)) :
    (∃ event, LineMeans s event ∧
        ∀ (τ : Type) (p : Parser τ), p.settings = settings → p.Complete →
          p.parseLine (.of s) = p.dispatch event)
      ↔
    ¬ EmptyHost s := by
  obtain ⟨event, hevent⟩ : ∃ event, classify settings (.of s) = .ok event := by
    rw [parseLine_eq (recorder settings) (Or.inl rfl)] at hok
    cases hclassify : classify (recorder settings).settings (.of s) with
    | error f => simp [hclassify] at hok
    | ok event => exact ⟨event, hclassify⟩
  have hparse : ∀ (τ : Type) (p : Parser τ), p.settings = settings → p.Complete →
      p.parseLine (.of s) = p.dispatch event := by
    intro τ p hp hcomplete
    rw [parseLine_eq p (Or.inl hcomplete.onLocalNode), hp, hevent, Prog.lift_ok_bind]
  constructor
  · rintro ⟨meant, hmeans, hmeant⟩ ⟨type, name, selector, rest, hlink, hurl⟩
    -- The recorder tells the call that was meant from the one that was made.
    have hsame : (recorder settings).dispatch meant = (recorder settings).dispatch event := by
      rw [← hmeant _ _ rfl (complete_recorder settings),
        hparse _ _ rfl (complete_recorder settings)]
    have heq : meant = event := by
      have hlog := congrArg (fun x => (Prog.exec x []).2) hsame
      simpa using hlog
    rw [classify_link settings (length_of_classify_eq_ok hevent) hlink, List.map_cons,
      classifyLink_remote settings hurl] at hevent
    obtain ⟨port, hremote⟩ : ∃ port,
        event = .remoteNode ⟨type, .of name, .of selector, .of [], port⟩ := by
      cases hport : portOf 70 (rest.map StrRef.of) with
      | error f => simp [hport, Except.map] at hevent
      | ok port =>
          rw [hport] at hevent
          exact ⟨port, (Except.ok.inj hevent).symm⟩
    rw [heq, hremote] at hmeans
    cases hmeans with
    | remoteNode _ _ hhost _ => exact hhost rfl
  · intro hhost
    exact ⟨event, lineMeans_of_classify hevent hhost, hparse⟩

/-- The remote link `1foo`, `sel`, `host`, `7070`. -/
theorem line_means_remote :
    (∃ event, LineMeans (lit "1foo\tsel\thost\t7070") event ∧
        ∀ (τ : Type) (p : Parser τ), p.settings = {} → p.Complete →
          p.parseLine (.of (lit "1foo\tsel\thost\t7070")) = p.dispatch event)
      ↔
    ¬ EmptyHost (lit "1foo\tsel\thost\t7070") :=
  line_means_iff (by rfl : Prog.exec ((recorder {}).parseLine
      (.of (lit "1foo\tsel\thost\t7070"))) [] =
    (.ok (), [.remoteNode ⟨49, .of (lit "foo"), .of (lit "sel"), .of (lit "host"), 7070⟩]))

/-- A third field without characters: the link is meant to be local, and becomes a
remote node without a host. -/
theorem empty_host_line :
    LineMeans (lit "1foo\tsel\t") (.localNode ⟨49, .of (lit "foo"), .of (lit "sel")⟩) ∧
      Prog.exec ((recorder {}).parseLine (.of (lit "1foo\tsel\t"))) [] =
        (.ok (), [.remoteNode ⟨49, .of (lit "foo"), .of (lit "sel"), .of [], 70⟩]) :=
  ⟨.localNode (⟨by decide, by decide, by decide⟩ :
      IsLink (lit "1foo\tsel\t") 49 (lit "foo") (lit "sel") [[]]) (by decide) rfl, by rfl⟩

/-- The field, one CR at its end aside, is the decimal text of a 16-bit number. -/
def SpellsPort (field : Bytes) : Prop :=
  ∃ digits n, Decimal.decode digits = some n ∧ n ≤ 65535 ∧
    (field = digits ∨ field = digits ++ [CR])

/-- Whatever its callbacks do, the parser throws the error of a bad configuration
and calls none of them. -/
def ReportsBadPort (settings : Settings) (s : Bytes) : Prop :=
  ∃ msg, ∀ (τ : Type) (p : Parser τ), p.settings = settings →
    p.onLocalNode.isSome = true ∨ p.onRemoteNode.isSome = true →
    p.parseLine (.of s) = throw (.exn (.configError msg))

section BadPort

variable {settings : Settings} {s : Bytes}

theorem reportsBadPort_iff_classify :
    ReportsBadPort settings s
      ↔
    ∃ msg, classify settings (.of s) = .error (.exn (.configError msg)) := by
  constructor
  · rintro ⟨msg, hthrows⟩
    have hrecorder := hthrows _ (recorder settings) rfl (Or.inl rfl)
    rw [parseLine_eq (recorder settings) (Or.inl rfl)] at hrecorder
    have hexec := congrArg (fun x => (Prog.exec x []).1) hrecorder
    have hsettings : (recorder settings).settings = settings := rfl
    rw [hsettings] at hexec
    cases hclassify : classify settings (.of s) with
    | ok event => simp [hclassify] at hexec
    | error f =>
        simp only [hclassify, Prog.lift_error_bind, Prog.exec_throw, Except.error.injEq]
          at hexec
        exact ⟨msg, by rw [hexec]⟩
  · rintro ⟨msg, hclassify⟩
    refine ⟨msg, ?_⟩
    intro τ p hp hcallbacks
    rw [parseLine_eq p hcallbacks, hp, hclassify, Prog.lift_error_bind]

/-- A port becomes the error of the program when it starts with an integer outside
the 16 bits. -/
theorem portOf_eq_configError_iff (field : Bytes) :
    (∃ msg, portOf 70 [.of field] = .error (.exn (.configError msg)))
      ↔
    ∃ v, LeadingInt field v ∧ (v < 0 ∨ 65535 < v) := by
  have hportOf : portOf 70 [.of field] =
      (strtoUint16 field).mapError (fun e => .exn (invalidPort e)) := rfl
  rw [hportOf, strtoUint16]
  by_cases hint : ∃ v, LeadingInt field v
  · obtain ⟨v, hv⟩ := hint
    have hread : strto 0 65535 field =
        if v < 0 ∨ 65535 < v then .error (rangeError 0 65535 field) else .ok v :=
      strto_of_leadingInt (by decide) (by decide) hv
    have hunique : ∀ v', LeadingInt field v' → v' = v := by
      intro v' hv'
      rw [← strtoll_eq_some_iff] at hv hv'
      rw [hv] at hv'
      exact (Option.some.inj hv').symm
    rw [hread]
    by_cases hout : v < 0 ∨ 65535 < v
    · rw [if_pos hout]
      exact ⟨fun _ => ⟨v, hv, hout⟩, fun _ => ⟨_, rfl⟩⟩
    · rw [if_neg hout]
      constructor
      · rintro ⟨msg, hmsg⟩
        simp [Except.map, Except.mapError] at hmsg
      · rintro ⟨v', hv', hout'⟩
        rw [hunique v' hv'] at hout'
        exact absurd hout' hout
  · have hnone : ∀ v, ¬ LeadingInt field v := fun v hv => hint ⟨v, hv⟩
    rw [strto_of_no_leadingInt hnone]
    constructor
    · rintro ⟨msg, hmsg⟩
      simp [Except.map, Except.mapError, invalidPort] at hmsg
    · rintro ⟨v, hv, -⟩
      exact absurd hv (hnone v)

end BadPort

/-- A bad port of a link with four fields is reported exactly when the line can be
scanned and the field starts with an integer that is no 16-bit number. -/
theorem bad_port_reported_iff
    (settings : Settings) {s first selector host port : Bytes}
    (hfields : s.splitOn TAB = [first, selector, host, port])
    (hfirst : 2 ≤ first.length)
    (hurl : ¬ lit "URL:" <+: selector) :
    (¬ SpellsPort port → ReportsBadPort settings s)
      ↔
    SpellsPort port ∨
      s.length < 2 ^ 32 ∧ ∃ v, LeadingInt port v ∧ (v < 0 ∨ 65535 < v) := by
  have hreports : ReportsBadPort settings s ↔
      s.length < 2 ^ 32 ∧ ∃ v, LeadingInt port v ∧ (v < 0 ∨ 65535 < v) := by
    rw [reportsBadPort_iff_classify]
    by_cases hlen : s.length < 2 ^ 32
    · match first with
      | [] => simp at hfirst
      | type :: name =>
          have hlink : IsLink s type name selector [host, port] := by
            refine ⟨hfields, ?_, by simp⟩
            rintro rfl
            simp at hfirst
          have hclassify := (classify_link settings hlen hlink).trans
            (classifyLink_remote settings hurl host [.of port])
          rw [and_iff_right hlen, hclassify, ← portOf_eq_configError_iff]
          cases portOf 70 [.of port] with
          | ok val => simp [Except.map]
          | error f => simp [Except.map]
    · have hhang : classify settings (.of s) = .error .hang := by
        rw [classify, tokenize_hang TAB (by omega)]
      rw [hhang]
      constructor
      · rintro ⟨msg, hmsg⟩
        simp at hmsg
      · rintro ⟨hshort, -⟩
        exact absurd hshort hlen
  rw [hreports]
  exact or_iff_not_imp_left.symm

/-- Port 70000 is reported. -/
theorem bad_port_reported_70000 :
    (¬ SpellsPort (lit "70000") →
        ReportsBadPort {} (lit "1foo\tsel\thost\t70000"))
      ↔
    SpellsPort (lit "70000") ∨
      (lit "1foo\tsel\thost\t70000").length < 2 ^ 32 ∧
        ∃ v, LeadingInt (lit "70000") v ∧ (v < 0 ∨ 65535 < v) :=
  bad_port_reported_iff {}
    (by decide : (lit "1foo\tsel\thost\t70000").splitOn TAB =
      [lit "1foo", lit "sel", lit "host", lit "70000"])
    (by decide) (by decide)

/-- A number with something behind it makes a node, and a port that is no number
ends in an exception of the standard library. -/
theorem bad_ports_not_reported :
    Prog.exec ((recorder {}).parseLine (.of (lit "1foo\tsel\thost\t70x"))) [] =
        (.ok (), [.remoteNode ⟨49, .of (lit "foo"), .of (lit "sel"), .of (lit "host"), 70⟩]) ∧
      Prog.exec ((recorder {}).parseLine (.of (lit "1foo\tsel\thost\tx"))) [] =
        (.error (.exn .stdInvalidArgument), []) :=
  ⟨by rfl, by rfl⟩

end MapParser

end Goofy
