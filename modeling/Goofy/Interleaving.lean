import Goofy.Conversation
import Goofy.Server

/-!
# One client among the others

The server interleaves the callbacks of its sessions in any order, and reuses the numbers
of closed sockets.  A session that is found under a number is in the state that its own
inputs, since the number was accepted last, lead to (`sessions_run_alone`): whatever the
other clients do, it is a run of `Session.system`.

So what is proved of the runs of one session holds of each client of the server
(`clients_answered`).
-/

namespace Goofy
namespace Server

open Gopher Transition

/-- The input of the session under the key. -/
def Input.about (key : Nat) : Input → Option Session.Input
  | .accept _ _ => none
  | .session other i _ => if other = key then some i else none

/-- The input is the accept of the number, which creates the session. -/
def Input.Accepts (key : Nat) : Input → Session → Prop
  | .accept clsocket add, new => clsocket = key ∧ Session.newSession key add = .ok new
  | .session _ _ _, _ => False

section Projection

variable {s t : Server} {key : Nat}

/-- A callback about a key is a step of the session under the key; the session stays in
the table until it is dropped. -/
theorem Invariant.callback_step
    (h : s.Invariant) {i : Session.Input} {opened : List Nat}
    (hstep : system.step s (.session key i opened) t) :
    ∃ session next, s.sessions.lookup key = some session ∧
      Session.system.step session i next ∧
        (next.drops = [] ∧ t.sessions.lookup key = some next ∨
          next.drops = [key] ∧ t.sessions.lookup key = none) := by
  obtain ⟨session, next, hsession, hown, hcases⟩ := h.callback_socket hstep
  refine ⟨session, next, hsession, hown, ?_⟩
  rcases hcases with ⟨hdrops, hfound, -⟩ | ⟨hdrops, hgone, -⟩
  · exact .inl ⟨hdrops, hfound⟩
  · exact .inr ⟨hdrops, AList.lookup_eq_none.mpr hgone⟩

/-- Every step accepts the key, or gives the session under the key a step of its own, or
leaves it alone. -/
theorem Invariant.project
    (h : s.Invariant) {i : Input} (hstep : system.step s i t)
    {next : Session} (hnext : t.sessions.lookup key = some next) :
    i.Accepts key next ∨ (∀ new, ¬ i.Accepts key new) ∧
      ∃ session, s.sessions.lookup key = some session ∧
        Run Session.system session (i.about key).toList next := by
  by_cases hkey : key = i.key
  · cases i with
    | accept clsocket add =>
        left
        obtain rfl : key = clsocket := hkey
        obtain ⟨hfresh, haccept⟩ := hstep
        obtain ⟨new, hnew, hcbAccept⟩ := h.cbAccept hfresh add
        obtain rfl := Except.ok.inj (hcbAccept.symm.trans haccept)
        have hfound : (s.sessions.insert key new).lookup key = some new := AList.lookup_insert _
        obtain rfl : new = next := Option.some.inj (hfound.symm.trans hnext)
        exact ⟨rfl, hnew⟩
    | session other i opened =>
        right
        obtain rfl : key = other := hkey
        obtain ⟨session, next', hsession, hown, hcases⟩ := h.callback_step hstep
        refine ⟨fun _ => id, session, hsession, ?_⟩
        rcases hcases with ⟨-, hfound⟩ | ⟨-, hnone⟩
        · obtain rfl : next' = next := Option.some.inj (hfound.symm.trans hnext)
          simp only [Input.about, if_true, Option.toList_some]
          exact .cons hown (.nil next')
        · exact absurd (hnone.symm.trans hnext) nofun
  · right
    have hsame : s.sessions.lookup key = some next :=
      ((h.step hstep).2 key hkey).symm.trans hnext
    have habout : i.about key = none := by
      cases i with
      | accept => rfl
      | session other i opened => exact if_neg (fun heq => hkey heq.symm)
    refine ⟨?_, next, hsame, ?_⟩
    · intro new haccepts
      cases i with
      | accept clsocket add => exact hkey haccepts.1.symm
      | session => exact haccepts
    · rw [habout]
      exact .nil next

/-- A session of the table was created in the last accept of its number, and lived a run
of its own since. -/
theorem lives_of_run
    {is : List Input}
    (hs : system.init s)
    (hrun : Run system s is t)
    {session : Session} (hsession : t.sessions.lookup key = some session) :
    ∃ earlier add later new,
      is = earlier ++ .accept key add :: later ∧
      (∀ add', .accept key add' ∉ later) ∧
      Session.newSession key add = .ok new ∧
      Run Session.system new (later.filterMap (Input.about key)) session := by
  have hlife := hrun.component (fun _ _ _ h hstep => (Invariant.step h hstep).1)
    (fun _ _ _ _ h hstep hnext => Invariant.project h hstep hnext)
    (invariant_of_init hs) hsession
  cases hlife with
  | old hbefore =>
      obtain ⟨fds, -, rfl⟩ := hs
      exact absurd hbefore (by simp)
  | @born earlier later i new his hbirth hlater hlives =>
      cases i with
      | session => exact hbirth.elim
      | accept clsocket add =>
          obtain ⟨rfl, hnew⟩ := hbirth
          refine ⟨earlier, add, later, new, his, ?_, hnew, hlives⟩
          intro add' hmem
          obtain ⟨new', hnew'⟩ : ∃ new', Session.newSession clsocket add' = .ok new' := by
            cases add' <;> exact ⟨_, rfl⟩
          exact hlater _ hmem new' ⟨rfl, hnew'⟩

/-- A callback about a key is the next step of the session under the key. -/
theorem next_of_run
    {is : List Input}
    (hs : system.init s)
    (hrun : Run system s is t)
    {session : Session} (hsession : t.sessions.lookup key = some session)
    {i : Session.Input} {opened : List Nat} {u : Server}
    (hstep : system.step t (.session key i opened) u) :
    ∃ next, Session.system.step session i next ∧
      (next.drops = [] ∧ u.sessions.lookup key = some next ∨
        next.drops = [key] ∧ u.sessions.lookup key = none) := by
  obtain ⟨session', next, hfound, hown, hcases⟩ :=
    (invariant_of_run hs hrun).callback_step hstep
  obtain rfl : session' = session := Option.some.inj (hfound.symm.trans hsession)
  exact ⟨next, hown, hcases⟩

/-- In every run of the server, the session under a number is where its own inputs since
the last accept of the number lead to, in a run of its own; and a callback about the
number is the next step of that run, which keeps the session in the table exactly until
it is dropped. -/
theorem sessions_run_alone
    {is : List Input}
    (hs : system.init s)
    (hrun : Run system s is t)
    {session : Session} (hsession : t.sessions.lookup key = some session) :
    (∃ earlier add later new,
        is = earlier ++ .accept key add :: later ∧
        (∀ add', .accept key add' ∉ later) ∧
        Session.newSession key add = .ok new ∧
        Run Session.system new (later.filterMap (Input.about key)) session) ∧
      ∀ i opened u, system.step t (.session key i opened) u →
        ∃ next, Session.system.step session i next ∧
          (next.drops = [] ∧ u.sessions.lookup key = some next ∨
            next.drops = [key] ∧ u.sessions.lookup key = none) :=
  ⟨lives_of_run hs hrun hsession, fun _ _ _ => next_of_run hs hrun hsession⟩

/-- A second client, on socket 9. -/
def secondClient : Session :=
  { Session.accepted .pending with clsock := 9, dropId := 9 }

/-- The server with both clients. -/
def withBoth : Server :=
  ⟨withClient.sessions.insert 9 secondClient, withClient.descriptors.openAs .client 9⟩

/-- The server after the first client has sent its line. -/
def greetingBoth : Server :=
  ⟨withBoth.sessions.insert 7 Session.greeting, withBoth.descriptors⟩

/-- The server after the second client timed out. -/
def greetingClient : Server :=
  ⟨greetingBoth.sessions.erase 9, greetingBoth.descriptors.close 9⟩

/-- The server after the first client has received its answer. -/
def answeredClient : Server :=
  ⟨greetingClient.sessions.erase 7, greetingClient.descriptors.close 7⟩

/-- The callbacks of two clients that come and go in turn. -/
def bothClients : List Input :=
  [.accept 7 none, .accept 9 none, .session 7 Session.hello [], .session 9 .readTimeout []]

theorem run_bothClients : Run system started bothClients greetingClient := by
  have hfirst : system.step started (.accept 7 none) withClient := ⟨by decide, rfl⟩
  have hsecond : system.step withClient (.accept 9 none) withBoth := ⟨by decide, rfl⟩
  have hhello : system.step withBoth (.session 7 Session.hello []) greetingBoth := by
    have hsession : withBoth.sessions.lookup 7 = some (Session.accepted .pending) := rfl
    refine ⟨⟨_, hsession, Session.step_hello.1⟩, ⟨List.nodup_nil, by simp, ?_⟩, ?_⟩
    · rintro fd ⟨r, f, hserve, -⟩
      exact absurd (Except.ok.inj hserve) nofun
    · simp only [callback, hsession, Session.step_hello.2]
      rfl
  have htimeout : system.step greetingBoth (.session 9 .readTimeout []) greetingClient := by
    refine ⟨⟨secondClient, rfl, rfl⟩, ⟨List.nodup_nil, by simp, ?_⟩, rfl⟩
    exact fun fd hfd => hfd.elim
  exact .cons hfirst (.cons hsecond (.cons hhello (.cons htimeout (.nil _))))

theorem step_answeredClient :
    system.step greetingClient (.session 7 (.writable (.ok 2) none) []) answeredClient := by
  refine ⟨⟨Session.greeting, rfl, _, rfl, rfl, ?_⟩, ⟨List.nodup_nil, by simp, ?_⟩, rfl⟩
  · intro n hn
    obtain rfl : 2 = n := Except.ok.inj hn
    exact Nat.le_refl 2
  · exact fun fd hfd => hfd.elim

/-- Between the callbacks of a second client, the first one sends its line, and is dropped
when it has received its answer. -/
theorem bothClients_run_alone :
    (∃ earlier add later new,
        bothClients = earlier ++ .accept 7 add :: later ∧
        Session.newSession 7 add = .ok new ∧
        Run Session.system new (later.filterMap (Input.about 7)) Session.greeting) ∧
      ∃ next, Session.system.step Session.greeting (.writable (.ok 2) none) next ∧
        next.drops = [7] := by
  have hinit : system.init started := ⟨[0, 1, 2, 3], by decide, rfl⟩
  have hsession : greetingClient.sessions.lookup 7 = some Session.greeting := rfl
  obtain ⟨⟨earlier, add, later, new, his, -, hnew, hlives⟩, hnext⟩ :=
    sessions_run_alone hinit run_bothClients hsession
  refine ⟨⟨earlier, add, later, new, his, hnew, hlives⟩, ?_⟩
  obtain ⟨next, hown, ⟨-, hfound⟩ | ⟨hdrops, -⟩⟩ := hnext _ _ _ step_answeredClient
  · exact absurd ((AList.lookup_erase 7 _).symm.trans hfound) nofun
  · exact ⟨next, hown, hdrops⟩

/-- In every run of the server, whatever the other clients do, the session of a client is
where its own callbacks since its accept, the last one of its number, lead to; and when the
answers that they could give fit, the client receives the beginning of one answer, to a
line that it sent itself in these callbacks, as the map answers the line in one of them; or
it receives nothing.  Its session leaves the table without a report exactly when the client
has received all of the answer, if that is not empty. -/
theorem clients_answered
    {is : List Input}
    (hs : system.init s)
    (hrun : Run system s is t)
    {i : Session.Input} {opened : List Nat} {u : Server}
    (hstep : system.step t (.session key i opened) u) :
    ∃ (earlier later : List Input) (add : AddResult) (new session next : Session),
      is = earlier ++ .accept key add :: later ∧
      (∀ add', .accept key add' ∉ later) ∧
      Session.newSession key add = .ok new ∧
      t.sessions.lookup key = some session ∧
      Run Session.system new (later.filterMap (Input.about key)) session ∧
      Session.system.step session i next ∧
      ∀ own contents, own = later.filterMap (Input.about key) ++ [i] →
        (∀ j ∈ own, j.Fits contents) →
        (Session.heard own).length ≤ 258 ∧
          (Session.said contents new own = [] ∧
              (u.sessions.lookup key = none → next.reports ≠ []) ∨
            ∃ before after body,
              Session.heard own = before ++ LF :: after ∧
              (∃ j ∈ own, j.Gives ⟨chopCR before⟩ body) ∧
              Session.said contents new own <+: body.beforeWrite.remaining contents ∧
              (body.beforeWrite.remaining contents ≠ [] →
                (u.sessions.lookup key = none ∧ next.reports = [] ↔
                  Session.said contents new own = body.beforeWrite.remaining contents))) := by
  obtain ⟨session, -, hsession, -⟩ := (invariant_of_run hs hrun).callback_step hstep
  obtain ⟨earlier, add, later, new, his, hlast, hnew, hlives⟩ := lives_of_run hs hrun hsession
  obtain ⟨next, hown, hcases⟩ := next_of_run hs hrun hsession hstep
  have hgone : u.sessions.lookup key = none ↔ next.drops = [key] := by
    rcases hcases with ⟨hdrops, hfound⟩ | ⟨hdrops, hnone⟩
    · simp [hdrops, hfound]
    · simp [hdrops, hnone]
  have hdropped : next.drops ≠ [] ↔ next.drops = [key] := by
    rcases hcases with ⟨hdrops, -⟩ | ⟨hdrops, -⟩
    · simp [hdrops]
    · simp [hdrops]
  refine ⟨earlier, later, add, new, session, next, his, hlast, hnew, hsession, hlives, hown, ?_⟩
  rintro own contents rfl hfits
  have hall := (hlives.append (.cons hown (.nil next))).restrict
    (fun j hj => (hfits j hj).within hj)
  obtain ⟨y, hagrees, hsound, hheard, hsaid, hroom⟩ := Session.exchange_of_run hnew hall
  have hanswered := hagrees.answered hsound
  rw [hdropped] at hanswered
  rw [← hheard, ← hsaid, hgone]
  exact ⟨hroom, hanswered⟩

/-- Whatever the second client did, the first one received the two bytes that its line is
answered with. -/
theorem hello_client_answered :
    ∃ new, Session.newSession 7 none = .ok new ∧
      ∃ before after body,
        Session.heard Session.helloRun = before ++ LF :: after ∧
        (∃ j ∈ Session.helloRun, j.Gives ⟨chopCR before⟩ body) ∧
        Session.said (fun _ => []) new Session.helloRun = lit "hi" ∧
        lit "hi" <+: body.beforeWrite.remaining (fun _ => []) := by
  have hinit : system.init started := ⟨[0, 1, 2, 3], by decide, rfl⟩
  obtain ⟨earlier, later, add, new, session, next, his, -, hnew, -, -, -, hall⟩ :=
    clients_answered hinit run_bothClients step_answeredClient
  obtain ⟨rfl, rfl, rfl⟩ : earlier = [] ∧ none = add ∧ bothClients.tail = later := by
    cases earlier with
    | nil => simpa [bothClients] using his
    | cons j earlier =>
        have hmem : Input.accept 7 add ∈ bothClients.tail := by
          simp [his]
        simp [bothClients] at hmem
  have hfits : ∀ j ∈ Session.helloRun, j.Fits (fun _ => []) := by
    rintro j hj line body _ hbody
    obtain rfl | rfl : j = Session.hello ∨ j = .writable (.ok 2) none := by
      simpa [Session.helloRun] using hj
    · obtain rfl := Except.ok.inj hbody
      show (lit "hi").length < 2 ^ 32
      decide
    · exact hbody.elim
  have hsaid : Session.said (fun _ => []) new Session.helloRun = lit "hi" := by
    obtain rfl : Session.accepted .pending = new := Except.ok.inj hnew
    simp only [Session.helloRun, Session.said, Session.step_hello.2]
    rfl
  refine ⟨new, hnew, ?_⟩
  rcases (hall Session.helloRun (fun _ => []) rfl hfits).2 with
    ⟨hnone, -⟩ | ⟨before, after, body, hline, hgives, hle, -⟩
  · have hne : lit "hi" ≠ [] := by decide
    exact absurd (hsaid.symm.trans hnone) hne
  · rw [hsaid] at hle
    exact ⟨before, after, body, hline, hgives, hsaid, hle⟩

end Projection

end Server

end Goofy
