import Goofy.Interleaving

/-!
# The end of the server

`Server::start` runs the event loop until a signal or an error ends it, and throws a
number; `main` destroys the server and returns that number.  The members of the server
are destroyed in the reverse order of their declaration: the sessions, in any order, and
then the listening socket.

Whenever the loop ends, this closes every client socket, every file of a session and the
listening socket, each of them once (`shutdown_closes`).
-/

namespace Goofy
namespace Server

open Gopher Handles Transition

/-- The destructor of the session under a key. -/
def destroySession (s : Server) (key : Nat) : Server :=
  match s.sessions.lookup key with
  | none => s
  | some session =>
      (session.destroy.actions.drop session.actions.length).foldl perform
        (s.dropSession key)

/-- The destructor of the server: the table of sessions in some order, then the listening
socket, which is closed on free. -/
def destroy (s : Server) (order : List Nat) (listener : Nat) : Server :=
  let emptied := order.foldl destroySession s
  { emptied with descriptors := emptied.descriptors.close listener }

/-- The listening socket is open, and no session owns it. -/
structure Listening (s : Server) (listener : Nat) : Prop where
  isOpen : ∃ n, s.descriptors.entries.lookup listener = some (n, .other)
  unowned : ∀ {key session}, s.sessions.lookup key = some session →
    session.file ≠ some listener

section Steps

variable {s t : Server} {listener : Nat}

theorem Listening.mem (h : s.Listening listener) : listener ∈ s.descriptors.entries := by
  obtain ⟨n, hn⟩ := h.isOpen
  exact mem_of_lookup hn

/-- No client socket is the listening socket. -/
theorem Listening.ne_socket
    (h : s.Listening listener) {key : Nat} (hsocket : s.OpenSocket key) :
    listener ≠ key := by
  rintro rfl
  obtain ⟨n, hn⟩ := h.isOpen
  obtain ⟨m, hm⟩ := hsocket
  rw [hn] at hm
  simp at hm

/-- The server goes on listening on its socket. -/
theorem Listening.step
    (hlistening : s.Listening listener) (h : s.Invariant)
    {i : Input} (hstep : system.step s i t) :
    t.Listening listener := by
  obtain ⟨n, hn⟩ := hlistening.isOpen
  cases i with
  | accept clsocket add =>
      obtain ⟨hfresh, haccept⟩ := hstep
      obtain ⟨new, hnew, hcbAccept⟩ := h.cbAccept hfresh add
      obtain rfl := Except.ok.inj (hcbAccept.symm.trans haccept)
      have hne : listener ≠ clsocket := fun heq => hfresh (heq ▸ hlistening.mem)
      refine ⟨⟨n, (Table.lookup_openAs_ne .client s.descriptors hne).trans hn⟩, ?_⟩
      intro key session hfound
      rcases lookup_insert_cases hfound with ⟨-, rfl⟩ | ⟨-, hfound⟩
      · cases add <;> obtain rfl := Except.ok.inj hnew <;> exact nofun
      · exact hlistening.unowned hfound
  | session key i opened =>
      obtain ⟨-, ⟨hnodup, hopened, hserves⟩, -⟩ := id hstep
      have hnew : listener ∉ opened := fun hmem => hopened _ hmem hlistening.mem
      have hkeep : (s.descriptors.openAll .other opened).entries.lookup listener =
          some (n, .other) :=
        (Table.lookup_openAll_of_not_mem hnew s.descriptors).trans hn
      have hfile : ∀ {session : Session}, s.sessions.lookup key = some session →
          ∀ {file : Option Nat},
            (∀ fd, file = some fd → session.file = some fd ∨ i.Serves fd) →
              file ≠ some listener := by
        rintro session hsession file hcases rfl
        rcases hcases listener rfl with hfile | hserved
        · exact hlistening.unowned hsession hfile
        · exact hnew (hserves _ hserved)
      cases h.callback_cases hstep with
      | kept hsession hown hdrops hnext =>
          refine ⟨⟨n, hkeep⟩, ?_⟩
          intro other found hfound
          rcases lookup_insert_cases hfound with ⟨-, rfl⟩ | ⟨-, hfound⟩
          · exact hfile hsession hnext
          · exact hlistening.unowned hfound
      | dropped hsession hown hdrops hnext =>
          have hsocket := hlistening.ne_socket (h.socket (mem_of_lookup hsession))
          refine ⟨⟨n, (lookup_closeAll _ hsocket (hfile hsession hnext)).trans hkeep⟩, ?_⟩
          exact fun hfound => hlistening.unowned (lookup_erase_cases hfound).2

theorem listening_of_run
    {is : List Input}
    (hs : system.init s) (hlistener : listener ∈ s.descriptors.entries)
    (hrun : Run system s is t) :
    t.Listening listener := by
  have hinit : s.Listening listener := by
    obtain ⟨fds, hnodup, rfl⟩ := hs
    have hmem : listener ∈ fds := by
      by_contra hout
      have hnone : (Table.empty.openAll Descriptor.other fds).entries.lookup listener = none :=
        Table.lookup_openAll_of_not_mem hout Table.empty
      exact AList.lookup_eq_none.mp hnone hlistener
    exact ⟨Table.lookup_openAll_of_mem hnodup hmem Table.empty, by simp⟩
  exact (hrun.invariant (I := fun s => s.Invariant ∧ s.Listening listener)
    (fun _ _ _ h hstep => ⟨(h.1.step hstep).1, h.2.step h.1 hstep⟩)
    ⟨invariant_of_init hs, hinit⟩).2

end Steps

section Destroying

variable {s u : Server} {listener : Nat}

theorem actions_destroy (session : Session) :
    session.destroy.actions =
      session.actions ++ .close session.clsock :: session.file.toList.map .close := by
  unfold Session.destroy Session.file
  rcases session.writer with _ | ⟨ev, b | m | f⟩ <;> simp [Body.descriptor]

/-- A session that is destroyed takes its socket and its file with it. -/
theorem Invariant.destroySession_eq
    (h : s.Invariant) {key : Nat} {session : Session}
    (hsession : s.sessions.lookup key = some session) :
    s.destroySession key =
      ⟨s.sessions.erase key, closeAll s.descriptors key session.file⟩ := by
  simp only [destroySession, hsession, actions_destroy, List.drop_left, h.clsock hsession]
  cases session.file <;> rfl

theorem destroySession_of_not_mem
    {key : Nat} (hkey : key ∉ s.sessions) :
    s.destroySession key = s := by
  simp only [destroySession, AList.lookup_eq_none.mpr hkey]

theorem mem_of_mem_close
    {t : Table Descriptor} {number fd : Nat} (h : fd ∈ (t.close number).entries) :
    fd ∈ t.entries :=
  (AList.mem_erase.mp h).2

theorem not_mem_closeAll
    {t : Table Descriptor} {clsock fd : Nat} {file : Option Nat}
    (h : fd ∈ (closeAll t clsock file).entries) :
    fd ∈ t.entries ∧ file ≠ some fd := by
  cases file with
  | none => exact ⟨mem_of_mem_close h, nofun⟩
  | some other =>
      refine ⟨mem_of_mem_close (mem_of_mem_close h), ?_⟩
      rintro ⟨rfl⟩
      exact (AList.mem_erase.mp h).1 rfl

/-- What is left of a server whose sessions under some keys were destroyed. -/
structure Emptied (s : Server) (listener : Nat) (keys : List Nat) (u : Server) : Prop where
  sound : u.Invariant
  listening : u.Listening listener
  gone : ∀ key ∈ keys, key ∉ u.sessions
  kept : ∀ key, key ∉ keys → u.sessions.lookup key = s.sessions.lookup key
  closed : ∀ fd ∈ u.descriptors.entries, fd ∈ s.descriptors.entries ∧
    ∀ key ∈ keys, ∀ session, s.sessions.lookup key = some session → session.file ≠ some fd

theorem emptied_self
    (h : s.Invariant) (hlistening : s.Listening listener) :
    Emptied s listener [] s :=
  ⟨h, hlistening, by simp, fun _ _ => rfl, fun _ hfd => ⟨hfd, by simp⟩⟩

/-- One session is destroyed. -/
theorem emptied_destroySession
    (h : s.Invariant) (hlistening : s.Listening listener) (key : Nat) :
    Emptied s listener [key] (s.destroySession key) := by
  by_cases hkey : key ∈ s.sessions
  · obtain ⟨session, hsession⟩ := Option.isSome_iff_exists.mp (AList.lookup_isSome.mpr hkey)
    have hfile : ∀ fd, session.file = some fd → s.OwnFile key fd :=
      fun fd hfd => h.file hsession hfd
    rw [h.destroySession_eq hsession]
    obtain ⟨n, hn⟩ := hlistening.isOpen
    have hkeep := (lookup_closeAll s.descriptors (hlistening.ne_socket (h.socket hkey))
      (hlistening.unowned hsession)).trans hn
    refine ⟨h.remove hkey hfile, ⟨⟨n, hkeep⟩, ?_⟩, ?_, ?_, ?_⟩
    · exact fun hfound => hlistening.unowned (lookup_erase_cases hfound).2
    · intro other hother
      obtain rfl := List.mem_singleton.mp hother
      exact fun hmem => (AList.mem_erase.mp hmem).1 rfl
    · intro other hother
      exact AList.lookup_erase_ne (by simpa using hother)
    · intro fd hfd
      obtain ⟨hmem, hne⟩ := not_mem_closeAll hfd
      refine ⟨hmem, ?_⟩
      intro other hother found hfound
      obtain rfl := List.mem_singleton.mp hother
      obtain rfl := Option.some.inj (hsession.symm.trans hfound)
      exact hne
  · rw [destroySession_of_not_mem hkey]
    refine ⟨h, hlistening, by simpa using hkey, fun _ _ => rfl, ?_⟩
    intro fd hfd
    refine ⟨hfd, ?_⟩
    intro other hother found hfound
    obtain rfl := List.mem_singleton.mp hother
    exact absurd (mem_of_lookup hfound) hkey

/-- The sessions are destroyed one after the other. -/
theorem emptied_of_fold
    (keys : List Nat) :
    ∀ {s : Server}, s.Invariant → s.Listening listener →
      Emptied s listener keys (keys.foldl destroySession s) := by
  induction keys with
  | nil => exact fun h hlistening => emptied_self h hlistening
  | cons key keys ih =>
      intro s h hlistening
      have hfirst := emptied_destroySession h hlistening key
      have hrest := ih hfirst.sound hfirst.listening
      rw [List.foldl_cons]
      refine ⟨hrest.sound, hrest.listening, ?_, ?_, ?_⟩
      · intro other hother hmem
        by_cases hlater : other ∈ keys
        · exact hrest.gone other hlater hmem
        · obtain rfl : other = key := (List.mem_cons.mp hother).resolve_right hlater
          rw [← AList.lookup_isSome, hrest.kept other hlater, AList.lookup_isSome] at hmem
          exact hfirst.gone other (by simp) hmem
      · intro other hother
        simp only [List.mem_cons, not_or] at hother
        exact (hrest.kept other hother.2).trans (hfirst.kept other (by simpa using hother.1))
      · intro fd hfd
        obtain ⟨hmem, hlater⟩ := hrest.closed fd hfd
        obtain ⟨hmem, hnow⟩ := hfirst.closed fd hmem
        refine ⟨hmem, ?_⟩
        intro other hother session hsession
        by_cases heq : other = key
        · exact hnow other (by simp [heq]) session hsession
        · have hin : other ∈ keys := (List.mem_cons.mp hother).resolve_left heq
          refine hlater other hin session ?_
          rw [hfirst.kept other (by simpa using heq)]
          exact hsession

end Destroying

/-- Whenever the loop ends, in whatever order the table is destroyed: no session is left,
no client socket is open, nor is a file that a session was sending, nor the listening
socket; every descriptor that the process ever got is open and was never closed, or was
closed exactly once; and no close misses. -/
theorem shutdown_closes
    {s t : Server} {is : List Input} {listener : Nat} {order : List Nat}
    (hs : system.init s) (hlistener : listener ∈ s.descriptors.entries)
    (hrun : Run system s is t)
    (horder : order.Perm t.sessions.keys) :
    (∀ key, key ∉ (t.destroy order listener).sessions) ∧
      (∀ fd, ¬ (t.destroy order listener).OpenSocket fd) ∧
      (∀ key session fd, t.sessions.lookup key = some session → session.file = some fd →
        fd ∉ (t.destroy order listener).descriptors.entries) ∧
      listener ∉ (t.destroy order listener).descriptors.entries ∧
      (∀ n < (t.destroy order listener).descriptors.issued,
        let table := (t.destroy order listener).descriptors
        (table.Live n ∧ table.closed.count (some n) = 0) ∨
          (¬ table.Live n ∧ table.closed.count (some n) = 1)) ∧
      none ∉ (t.destroy order listener).descriptors.closed := by
  have hempty := emptied_of_fold order (invariant_of_run hs hrun)
    (listening_of_run hs hlistener hrun)
  unfold destroy
  generalize order.foldl destroySession t = u at hempty
  have hall : ∀ key, key ∉ u.sessions := by
    intro key hmem
    by_cases hkey : key ∈ order
    · exact hempty.gone key hkey hmem
    · rw [← AList.lookup_isSome, hempty.kept key hkey, AList.lookup_isSome] at hmem
      exact hkey (horder.mem_iff.mpr hmem)
  have hclose : (closeAll u.descriptors listener none).Sound ∧
      none ∉ (closeAll u.descriptors listener none).closed :=
    closeAll_spec hempty.sound.sound hempty.sound.no_miss hempty.listening.mem nofun
  refine ⟨hall, ?_, ?_, ?_, hclose.1.closed_once, hclose.2⟩
  · rintro fd ⟨n, hn⟩
    exact hall fd (hempty.sound.key ⟨n, (lookup_erase_cases hn).2⟩)
  · intro key session fd hsession hfile hmem
    have hkey : key ∈ order := horder.mem_iff.mpr (mem_of_lookup hsession)
    exact (hempty.closed fd (mem_of_mem_close hmem)).2 key hkey session hsession hfile
  · exact fun hmem => (AList.mem_erase.mp hmem).1 rfl

/-- A server that listens on descriptor 3 ends with one client. -/
theorem withClient_shutdown_closes :
    3 ∉ (withClient.destroy [7] 3).descriptors.entries ∧
      none ∉ (withClient.destroy [7] 3).descriptors.closed := by
  have hinit : system.init started := ⟨[0, 1, 2, 3], by decide, rfl⟩
  have haccept : system.step started (.accept 7 none) withClient := ⟨by decide, rfl⟩
  have hkeys : withClient.sessions.keys = [7] := rfl
  have horder : [7].Perm withClient.sessions.keys := by
    rw [hkeys]
  have hlistener : 3 ∈ started.descriptors.entries := by
    decide
  have h := shutdown_closes hinit hlistener (.cons haccept (.nil _)) horder
  exact ⟨h.2.2.2.1, h.2.2.2.2.2⟩

end Server
end Goofy
