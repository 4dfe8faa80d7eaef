import Goofy.Settings
import Goofy.Util.FileRead

/-!
# The gophermap parser

The `Parser` of `map_parser.h` and `map_parser.cc`.  It has four callbacks, each
of which may be absent, and `parseLine` calls at most one of them for a line.

What a line means does not depend on the callbacks: `classify` is that meaning,
and `parseLine_eq` says that the parser classifies the line and then calls the
callback of its class.  `report` extends this to a whole file.
-/

namespace Goofy

open Effect Util

namespace MapParser

structure LocalNode where
  type : Byte
  displayName : StrRef
  selector : StrRef
deriving DecidableEq

structure RemoteNode where
  type : Byte
  displayName : StrRef
  selector : StrRef
  hostname : StrRef
  port : UInt16
deriving DecidableEq

structure Url where
  displayName : StrRef
  href : StrRef
deriving DecidableEq

/-- A parser with its callbacks, which act on states `τ`. -/
structure Parser (τ : Type) where
  settings : Settings
  onLocalNode : Option (LocalNode → Prog τ Unit) := none
  onRemoteNode : Option (RemoteNode → Prog τ Unit) := none
  onUrl : Option (Url → Prog τ Unit) := none
  onText : Option (StrRef → Prog τ Unit) := none

variable {τ : Type}

/-- Call a callback that may be absent. -/
def call {α : Type} (callback : Option (α → Prog τ Unit)) (x : α) : Prog τ Unit :=
  match callback with
  | none => pure ()
  | some f => f x

/-- The host of a link, if its field is there, and the fields behind it. -/
def hostOf : List StrRef → Option StrRef × List StrRef
  | [] => (none, [])
  | host :: tokens => (if host.empty then none else some host, tokens)

/-- The handler of `parse_line`: errors of this program name a bad port. -/
def invalidPort (e : Exn) : Exn :=
  match e with
  | .error _ => .configError (lit "Invalid port: " ++ e.what)
  | e => e

/-- The port of a link: that of the last field, or a default. -/
def portOf (default : UInt16) : List StrRef → Except Fail UInt16
  | [] => .ok default
  | [port] => (strtoUint16 port.str).mapError (fun e => .exn (invalidPort e))
  | _ => .error .assertion

def Parser.parseLine (p : Parser τ) (line : StrRef) : Prog τ Unit := do
  let tokens ← Prog.lift (tokenize line TAB)
  if tokens.length = 1 then call p.onText line
  else if tokens.length > 4 then call p.onText line
  else
    match tokens with
    | displayName :: selector :: tokens =>
        if displayName.empty ∨ displayName.len < 2 then call p.onText line
        else if p.onLocalNode.isNone ∧ p.onRemoteNode.isNone then throw .assertion
        else
          let type := displayName.str.headD NUL
          let displayName := displayName.incr
          if find (lit "URL:") selector.str = some 0 then
            call p.onUrl ⟨displayName, selector⟩
          else do
            let port ← Prog.lift
              (portOf (if (hostOf tokens).1.isNone then p.settings.self.port else 70)
                (hostOf tokens).2)
            match (hostOf tokens).1 with
            | none => call p.onLocalNode ⟨type, displayName, selector⟩
            | some hostname =>
                call p.onRemoteNode ⟨type, displayName, selector, hostname, port⟩
    | _ => throw .undefined

/-- What a line of a gophermap means. -/
inductive LineEvent where
  | localNode (node : LocalNode)
  | remoteNode (node : RemoteNode)
  | url (url : Url)
  | text (line : StrRef)
deriving DecidableEq

/-- The meaning of a link: a type and a name, a selector, and what follows. -/
def classifyLink (settings : Settings) (displayName selector : StrRef)
    (tokens : List StrRef) : Except Fail LineEvent :=
  let type := displayName.str.headD NUL
  if find (lit "URL:") selector.str = some 0 then
    .ok (.url ⟨displayName.incr, selector⟩)
  else
    match hostOf tokens with
    | (none, tokens) =>
        (portOf settings.self.port tokens).map
          (fun _ => .localNode ⟨type, displayName.incr, selector⟩)
    | (some hostname, tokens) =>
        (portOf 70 tokens).map
          (fun port => .remoteNode ⟨type, displayName.incr, selector, hostname, port⟩)

/-- The meaning of a line that was cut at its tabs. -/
def classifyTokens (settings : Settings) (line : StrRef) :
    List StrRef → Except Fail LineEvent
  | displayName :: selector :: tokens =>
      if 2 < tokens.length ∨ displayName.empty ∨ displayName.len < 2 then .ok (.text line)
      else classifyLink settings displayName selector tokens
  | [_] => .ok (.text line)
  | [] => .error .undefined

def classify (settings : Settings) (line : StrRef) : Except Fail LineEvent :=
  match tokenize line TAB with
  | .error f => .error f
  | .ok tokens => classifyTokens settings line tokens

/-- The call that a line leads to. -/
def Parser.dispatch (p : Parser τ) : LineEvent → Prog τ Unit
  | .localNode node => call p.onLocalNode node
  | .remoteNode node => call p.onRemoteNode node
  | .url url => call p.onUrl url
  | .text line => call p.onText line

/-- The part of `parseLine` that handles links, and their meaning. -/
theorem parseLink_eq (p : Parser τ) (displayName selector : StrRef)
    (tokens : List StrRef) :
    (if find (lit "URL:") selector.str = some 0 then
        call p.onUrl ⟨displayName.incr, selector⟩
      else do
        let port ← Prog.lift
          (portOf (if (hostOf tokens).1.isNone then p.settings.self.port else 70)
            (hostOf tokens).2)
        match (hostOf tokens).1 with
        | none =>
            call p.onLocalNode ⟨displayName.str.headD NUL, displayName.incr, selector⟩
        | some hostname =>
            call p.onRemoteNode
              ⟨displayName.str.headD NUL, displayName.incr, selector, hostname, port⟩) =
      Prog.lift (classifyLink p.settings displayName selector tokens) >>= p.dispatch := by
  unfold classifyLink
  by_cases hurl : find (lit "URL:") selector.str = some 0
  · rw [if_pos hurl, if_pos hurl]
    rfl
  · rw [if_neg hurl, if_neg hurl]
    rcases hostOf tokens with ⟨host, rest⟩
    cases host with
    | none =>
        cases hport : portOf p.settings.self.port rest with
        | error f => simp [hport, Except.map]
        | ok port => simp [hport, Except.map, Parser.dispatch]
    | some hostname =>
        cases hport : portOf 70 rest with
        | error f => simp [hport, Except.map]
        | ok port => simp [hport, Except.map, Parser.dispatch]

/-- The parser classifies a line, then calls the callback of its class. -/
theorem parseLine_eq
    (p : Parser τ) (hp : p.onLocalNode.isSome ∨ p.onRemoteNode.isSome)
    (line : StrRef) :
    p.parseLine line = Prog.lift (classify p.settings line) >>= p.dispatch := by
  have hassert : ¬ (p.onLocalNode.isNone = true ∧ p.onRemoteNode.isNone = true) := by
    rintro ⟨hlocal, hremote⟩
    rcases hp with h | h
    · simp [Option.isNone_iff_eq_none.mp hlocal] at h
    · simp [Option.isNone_iff_eq_none.mp hremote] at h
  unfold Parser.parseLine classify
  cases htokens : tokenize line TAB with
  | error f => simp
  | ok tokens =>
      rw [Prog.lift_ok_bind]
      match tokens with
      | [] => rfl
      | [token] => rfl
      | displayName :: selector :: tokens =>
          simp only [List.length_cons, classifyTokens]
          rw [if_neg (by omega : ¬ tokens.length + 1 + 1 = 1)]
          by_cases hlong : 2 < tokens.length
          · rw [if_pos (by omega : tokens.length + 1 + 1 > 4), if_pos (Or.inl hlong)]
            rfl
          · rw [if_neg (by omega : ¬ tokens.length + 1 + 1 > 4)]
            by_cases hshort : displayName.empty = true ∨ displayName.len < 2
            · rw [if_pos hshort, if_pos (Or.inr hshort)]
              rfl
            · rw [if_neg hshort, if_neg hassert, if_neg (not_or.mpr ⟨hlong, hshort⟩)]
              exact parseLink_eq p displayName selector tokens

/-- The ways in which a line cannot be classified: it is too long to be scanned,
or its port is bad. -/
inductive BadLine : Fail → Prop where
  | tooLong : BadLine .hang
  | badPort (msg : Bytes) : BadLine (.exn (.configError msg))
  | noPort : BadLine (.exn .stdInvalidArgument)

theorem badLine_of_portOf {default : UInt16} {tokens : List StrRef} {f : Fail}
    (hlen : tokens.length ≤ 1) (h : portOf default tokens = .error f) : BadLine f := by
  match tokens with
  | [] => simp [portOf] at h
  | [port] =>
      cases hstrto : strto 0 65535 port.str with
      | ok val => simp [portOf, strtoUint16, hstrto, Except.map, Except.mapError] at h
      | error e =>
          simp only [portOf, strtoUint16, hstrto, Except.map, Except.mapError,
            Except.error.injEq] at h
          rw [← h]
          rcases strto_error hstrto with rfl | rfl
          · exact .badPort _
          · exact .noPort

/-- A line is bad when the event that it stands for has no port. -/
theorem badLine_of_map_portOf
    {default : UInt16} {tokens : List StrRef} {event : UInt16 → LineEvent} {f : Fail}
    (hlen : tokens.length ≤ 1) (h : (portOf default tokens).map event = .error f) :
    BadLine f := by
  cases hport : portOf default tokens with
  | ok port => simp [hport, Except.map] at h
  | error e =>
      simp only [hport, Except.map, Except.error.injEq] at h
      rw [← h]
      exact badLine_of_portOf hlen hport

theorem length_hostOf (tokens : List StrRef) :
    (hostOf tokens).2.length = tokens.length - 1 := by
  cases tokens with
  | nil => rfl
  | cons host tokens => simp [hostOf]

/-- Nothing else goes wrong with a line. -/
theorem badLine_of_classify {settings : Settings} {line : StrRef} {f : Fail}
    (h : classify settings line = .error f) : BadLine f := by
  unfold classify at h
  cases htokens : tokenize line TAB with
  | error f' =>
      rw [htokens] at h
      simp only [Except.error.injEq] at h
      rw [← h, tokenize_error htokens]
      exact .tooLong
  | ok tokens =>
      rw [htokens] at h
      match tokens with
      | [] => exact absurd rfl (tokenize_ne_nil htokens)
      | [_] => simp [classifyTokens] at h
      | displayName :: selector :: tokens =>
          simp only [classifyTokens] at h
          split_ifs at h with htext
          have hshort : tokens.length ≤ 2 := by
            have := (not_or.mp htext).1
            omega
          have hlen : (hostOf tokens).2.length ≤ 1 := by
            rw [length_hostOf]
            omega
          unfold classifyLink at h
          split_ifs at h with hurl
          rcases hhost : hostOf tokens with ⟨host, rest⟩
          rw [hhost] at h hlen
          cases host with
          | none =>
              exact badLine_of_map_portOf hlen h
          | some hostname =>
              exact badLine_of_map_portOf hlen h

/-- What a parser reports for a list of lines, up to the first failure. -/
def reportLines (settings : Settings) : List StrRef → List LineEvent × Option Fail
  | [] => ([], none)
  | line :: lines =>
      match classify settings line with
      | .error f => ([], some f)
      | .ok event =>
          (event :: (reportLines settings lines).1, (reportLines settings lines).2)

/-- What a parser reports for a file, up to the first failure. -/
def report (settings : Settings) (f : FileStream) : List LineEvent × Option Fail :=
  ((reportLines settings f.lines.1).1,
    (reportLines settings f.lines.1).2.or (f.lines.2.map Fail.exn))

/-- A report ends early on a bad line, or where the file cannot be read. -/
theorem report_failure {settings : Settings} {file : FileStream} {f : Fail}
    (h : (report settings file).2 = some f) :
    BadLine f ∨ ∃ e, f = .exn (.ioError (lit "getline") e) := by
  have hlines : ∀ lines : List StrRef, (reportLines settings lines).2 = some f → BadLine f := by
    intro lines
    induction lines with
    | nil => simp [reportLines]
    | cons line lines ih =>
        intro hfail
        rw [reportLines] at hfail
        cases hline : classify settings line with
        | error f' =>
            rw [hline] at hfail
            rw [← Option.some.inj hfail]
            exact badLine_of_classify hline
        | ok event =>
            rw [hline] at hfail
            exact ih hfail
  have hor : (reportLines settings file.lines.1).2.or (file.lines.2.map Fail.exn) = some f := h
  rcases Option.or_eq_some_iff.mp hor with hfail | ⟨-, hfail⟩
  · exact Or.inl (hlines _ hfail)
  · right
    obtain ⟨e, he, rfl⟩ := Option.map_eq_some_iff.mp hfail
    obtain ⟨errno, rfl⟩ := file.lines_error he
    exact ⟨errno, rfl⟩

/-- Parsing every line of a file is calling back for every reported event. -/
theorem forEachLine_parseLine
    (p : Parser τ) (hp : p.onLocalNode.isSome ∨ p.onRemoteNode.isSome)
    (f : FileStream) :
    Reader.forEachLine p.parseLine (.opened f) =
      (forM (report p.settings f).1 p.dispatch >>= fun _ =>
        finish (report p.settings f).2) := by
  have hlines : ∀ (lines : List StrRef) (last : Option Fail),
      (forM lines p.parseLine >>= fun _ => finish last) =
        (forM (reportLines p.settings lines).1 p.dispatch >>= fun _ =>
          finish ((reportLines p.settings lines).2.or last)) := by
    intro lines last
    induction lines with
    | nil => rfl
    | cons line lines ih =>
        rw [List.forM_cons, parseLine_eq p hp, bind_assoc, bind_assoc, ih, reportLines]
        cases hline : classify p.settings line with
        | error f => simp [finish]
        | ok event => simp
  rw [forEachLine_opened, hlines]
  rfl

end MapParser

end Goofy
