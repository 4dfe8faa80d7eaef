import Goofy.Lib.Handles
import Goofy.SessionEffects

/-!
# The server and its sessions

The `Server` of `main.cc`.  It keeps its sessions in a table under the numbers of
their sockets.  The kernel gives a number to every accepted socket and every
opened file, and reuses the number when it was closed.

The server acts in the accept callback and in the callbacks of its sessions, in
any order.  `Invariant` relates the table to the open descriptors, and
`CallbackCases` says what a callback of a session can do to both.  The invariant
holds between the callbacks of every run (`invariant_of_run`), so the keys are the
open client sockets, and each socket is closed exactly once, when its session is
dropped (`sessions_match_sockets`).
-/

namespace Goofy

open Effect Gopher Handles

/-- What an open descriptor is: a client socket, or anything else. -/
inductive Descriptor where
  | client
  | other
deriving DecidableEq

/-- The session table of the server, and the open descriptors of the process. -/
structure Server where
  sessions : AList (fun _ : Nat => Session)
  descriptors : Table Descriptor

namespace Server

def dropSession (s : Server) (sessionId : Nat) : Server :=
  { s with sessions := s.sessions.erase sessionId }

/-- `new_session`: `emplace` must not find its key taken. -/
def newSession (s : Server) (clsock : Nat) (add : AddResult) : Except Fail Server :=
  match Session.newSession clsock add with
  | .error f => .error f
  | .ok session =>
      if clsock ∈ s.sessions then .error .assertion
      else .ok { s with sessions := s.sessions.insert clsock session }

/-- `cb_accept`, for a socket that the kernel has just opened. -/
def cbAccept (s : Server) (clsocket : Nat) (add : AddResult) : Except Fail Server :=
  newSession { s with descriptors := s.descriptors.openAs .client clsocket } clsocket add

/-- What a session does to the server and to its descriptors. -/
def perform (s : Server) : Action → Server
  | .report _ => s
  | .shutdown _ => s
  | .drop id => s.dropSession id
  | .close fd => { s with descriptors := s.descriptors.close fd }

/-- A callback of the session under a key.  It may open descriptors: the file that
it answers with, or one that is lost when its size cannot be found out. -/
def callback (s : Server) (key : Nat) (opened : List Nat) (i : Session.Input) :
    Except Fail Unit × Server :=
  match s.sessions.lookup key with
  | none => (.error .undefined, s)
  | some session =>
      let out := session.callback i
      let running : Server :=
        ⟨s.sessions.insert key out.2, s.descriptors.openAll .other opened⟩
      (out.1, (out.2.actions.drop session.actions.length).foldl perform running)

/-- The callbacks: a client is accepted, or an event of a session occurs. -/
inductive Input where
  | accept (clsocket : Nat) (add : AddResult)
  | session (key : Nat) (i : Session.Input) (opened : List Nat)

/-- The key that a callback is about. -/
def Input.key : Input → Nat
  | accept clsocket _ => clsocket
  | session key _ _ => key

/-- The numbers that the kernel hands out are not open, and the file of an answer
is among them. -/
def Fresh (s : Server) (i : Session.Input) (opened : List Nat) : Prop :=
  opened.Nodup ∧ (∀ fd ∈ opened, fd ∉ s.descriptors.entries) ∧ ∀ fd, i.Serves fd → fd ∈ opened

/-- The server as the event loop runs it, from a process with some open
descriptors and no client. -/
def system : Transition.System Server Input where
  init s := ∃ fds : List Nat, fds.Nodup ∧ s = ⟨∅, Table.empty.openAll .other fds⟩
  step s i t :=
    match i with
    | .accept clsocket add =>
        clsocket ∉ s.descriptors.entries ∧ s.cbAccept clsocket add = .ok t
    | .session key i opened =>
        (∃ session, s.sessions.lookup key = some session ∧ session.Possible i) ∧
          s.Fresh i opened ∧ s.callback key opened i = (.ok (), t)

/-- The number is an open client socket. -/
def OpenSocket (s : Server) (fd : Nat) : Prop :=
  ∃ n, s.descriptors.entries.lookup fd = some (n, .client)

/-- The number is an open file that no session but the one under the key owns. -/
def OwnFile (s : Server) (key fd : Nat) : Prop :=
  (∃ n, s.descriptors.entries.lookup fd = some (n, .other)) ∧
    ∀ {other session}, s.sessions.lookup other = some session →
      session.file = some fd → other = key

/-- Between callbacks, the table and the descriptors agree: the keys are the open
client sockets, no session was dropped, and every session owns the socket that is its
key, and the open file of its writer. -/
structure Invariant (s : Server) : Prop where
  sound : s.descriptors.Sound
  no_miss : none ∉ s.descriptors.closed
  phase : ∀ {key session}, s.sessions.lookup key = some session → session.Phase key
  clsock : ∀ {key session}, s.sessions.lookup key = some session → session.clsock = key
  live : ∀ {key session}, s.sessions.lookup key = some session → session.drops = []
  socket : ∀ {key}, key ∈ s.sessions → s.OpenSocket key
  key : ∀ {fd}, s.OpenSocket fd → fd ∈ s.sessions
  file : ∀ {key session fd}, s.sessions.lookup key = some session →
    session.file = some fd → s.OwnFile key fd

/-- Between `s` and `t`, the socket under the number is closed, for the first time. -/
def ClosesSocket (s t : Server) (fd : Nat) : Prop :=
  fd ∉ t.descriptors.entries ∧
    ∃ n, s.descriptors.entries.lookup fd = some (n, .client) ∧
      s.descriptors.closed.count (some n) = 0 ∧ t.descriptors.closed.count (some n) = 1

section Steps

variable {s : Server}

theorem OpenSocket.mem {fd : Nat} (h : s.OpenSocket fd) : fd ∈ s.descriptors.entries := by
  obtain ⟨n, hn⟩ := h
  exact mem_of_lookup hn

theorem OwnFile.mem {key fd : Nat} (h : s.OwnFile key fd) : fd ∈ s.descriptors.entries := by
  obtain ⟨⟨n, hn⟩, -⟩ := h
  exact mem_of_lookup hn

/-- No socket is a file. -/
theorem OwnFile.ne_socket {key fd other : Nat} (h : s.OwnFile key fd)
    (hsocket : s.OpenSocket other) : fd ≠ other := by
  rintro rfl
  obtain ⟨⟨n, hn⟩, -⟩ := h
  obtain ⟨m, hm⟩ := hsocket
  rw [hn] at hm
  simp at hm

/-- Descriptors that are opened become files that nobody owns. -/
theorem Invariant.openAll (h : s.Invariant) {opened : List Nat} (hnodup : opened.Nodup)
    (hfresh : ∀ fd ∈ opened, fd ∉ s.descriptors.entries) :
    Invariant { s with descriptors := s.descriptors.openAll .other opened } ∧
      ∀ key, ∀ fd ∈ opened,
        OwnFile { s with descriptors := s.descriptors.openAll .other opened } key fd := by
  have hkeep : ∀ fd ∈ s.descriptors.entries,
      (s.descriptors.openAll .other opened).entries.lookup fd =
        s.descriptors.entries.lookup fd := by
    intro fd hfd
    exact Table.lookup_openAll_of_not_mem (fun hmem => hfresh fd hmem hfd) _
  constructor
  · refine ⟨h.sound.openAll hnodup hfresh, ?_, h.phase, h.clsock, h.live, ?_, ?_, ?_⟩
    · rw [Table.closed_openAll]
      exact h.no_miss
    · intro key hkey
      obtain ⟨n, hn⟩ := h.socket hkey
      exact ⟨n, (hkeep key (h.socket hkey).mem).trans hn⟩
    · rintro fd ⟨n, hn⟩
      by_cases hmem : fd ∈ opened
      · obtain ⟨m, hm⟩ : ∃ m, (s.descriptors.openAll .other opened).entries.lookup fd =
            some (m, Descriptor.other) :=
          Table.lookup_openAll_of_mem hnodup hmem s.descriptors
        rw [hm] at hn
        simp at hn
      · have hn : (s.descriptors.openAll .other opened).entries.lookup fd =
            some (n, .client) := hn
        rw [Table.lookup_openAll_of_not_mem hmem] at hn
        exact h.key ⟨n, hn⟩
    · intro key session fd hlookup hfile
      have hown := h.file hlookup hfile
      obtain ⟨n, hn⟩ := hown.1
      exact ⟨⟨n, (hkeep fd hown.mem).trans hn⟩, fun hother hfile' => hown.2 hother hfile'⟩
  · intro key fd hfd
    refine ⟨Table.lookup_openAll_of_mem hnodup hfd s.descriptors, ?_⟩
    intro other session hlookup hfile
    exact absurd (h.file hlookup hfile).mem (hfresh fd hfd)

/-- A session is replaced by a later state of it, which may own a file that no
other session owns. -/
theorem Invariant.update
    (h : s.Invariant) {key : Nat} {session : Session} (hkey : key ∈ s.sessions)
    (hphase : session.Phase key) (hclsock : session.clsock = key)
    (hlive : session.drops = [])
    (hfile : ∀ fd, session.file = some fd → s.OwnFile key fd) :
    Invariant { s with sessions := s.sessions.insert key session } := by
  refine ⟨h.sound, h.no_miss, forall_lookup_insert hphase h.phase,
    forall_lookup_insert (P := fun key session => Session.clsock session = key) hclsock h.clsock,
    forall_lookup_insert hlive h.live, ?_, ?_, ?_⟩
  · intro other hother
    rcases AList.mem_insert _ |>.mp hother with rfl | hother
    · exact h.socket hkey
    · exact h.socket hother
  · intro fd hfd
    exact AList.mem_insert _ |>.mpr (Or.inr (h.key hfd))
  · intro other found fd hfound hfd
    have hown : s.OwnFile other fd := by
      rcases lookup_insert_cases hfound with ⟨rfl, rfl⟩ | ⟨-, hfound⟩
      · exact hfile fd hfd
      · exact h.file hfound hfd
    refine ⟨hown.1, ?_⟩
    intro other' found' hfound' hfd'
    rcases lookup_insert_cases hfound' with ⟨rfl, rfl⟩ | ⟨-, hfound'⟩
    · rcases lookup_insert_cases hfound with ⟨rfl, rfl⟩ | ⟨hne, hfound⟩
      · rfl
      · exact absurd ((hfile fd hfd').2 hfound hfd) hne
    · exact hown.2 hfound' hfd'

/-- The descriptors without a socket and a file. -/
def closeAll (t : Table Descriptor) (clsock : Nat) (file : Option Nat) : Table Descriptor :=
  file.toList.foldl Table.close (t.close clsock)

theorem lookup_closeAll
    (t : Table Descriptor) {clsock fd : Nat} {file : Option Nat}
    (hsocket : fd ≠ clsock) (hfile : file ≠ some fd) :
    (closeAll t clsock file).entries.lookup fd = t.entries.lookup fd := by
  cases file with
  | none => exact Table.lookup_close_ne t hsocket
  | some other =>
      have hother : fd ≠ other := fun heq => hfile (by rw [heq])
      exact (Table.lookup_close_ne _ hother).trans (Table.lookup_close_ne t hsocket)

theorem lookup_closeAll_self (t : Table Descriptor) (clsock : Nat) (file : Option Nat) :
    (closeAll t clsock file).entries.lookup clsock = none := by
  cases file with
  | none => exact Table.lookup_close_self t clsock
  | some fd =>
      by_cases heq : clsock = fd
      · rw [heq]
        exact Table.lookup_close_self _ fd
      · exact (Table.lookup_close_ne _ heq).trans (Table.lookup_close_self t clsock)

/-- The serial of the socket is among those that were closed. -/
theorem mem_closed_closeAll
    {t : Table Descriptor} {clsock n : Nat} {kind : Descriptor}
    (hlookup : t.entries.lookup clsock = some (n, kind)) (file : Option Nat) :
    some n ∈ (closeAll t clsock file).closed := by
  cases file <;> simp [closeAll, Table.close, hlookup]

/-- Closing an open socket and another open file misses nothing. -/
theorem closeAll_spec
    {t : Table Descriptor} (h : t.Sound) (hmiss : none ∉ t.closed)
    {clsock : Nat} (hsocket : clsock ∈ t.entries) {file : Option Nat}
    (hfile : ∀ fd, file = some fd → fd ≠ clsock ∧ fd ∈ t.entries) :
    (closeAll t clsock file).Sound ∧ none ∉ (closeAll t clsock file).closed := by
  have hclose : ∀ {t : Table Descriptor} {number : Nat}, number ∈ t.entries →
      none ∉ t.closed → none ∉ (t.close number).closed := by
    intro t number hnumber hmiss hnone
    rcases List.mem_append.mp hnone with hnone | hnone
    · exact hmiss hnone
    · have hlookup := Option.map_eq_none_iff.mp (List.mem_singleton.mp hnone).symm
      exact AList.lookup_eq_none.mp hlookup hnumber
  cases file with
  | none => exact ⟨h.close clsock, hclose hsocket hmiss⟩
  | some fd =>
      obtain ⟨hne, hfd⟩ := hfile fd rfl
      have hopen : fd ∈ (t.close clsock).entries := by
        rw [← AList.lookup_isSome, Table.lookup_close_ne t hne, AList.lookup_isSome]
        exact hfd
      exact ⟨(h.close clsock).close fd, hclose hopen (hclose hsocket hmiss)⟩

/-- A session is dropped, with its socket and with a file that no other session
owns. -/
theorem Invariant.remove
    (h : s.Invariant) {key : Nat} (hkey : key ∈ s.sessions) {file : Option Nat}
    (hfile : ∀ fd, file = some fd → s.OwnFile key fd) :
    Invariant ⟨s.sessions.erase key, closeAll s.descriptors key file⟩ := by
  have hsocket := h.socket hkey
  obtain ⟨hsound, hmiss⟩ := closeAll_spec h.sound h.no_miss hsocket.mem
    (fun fd hfd => ⟨(hfile fd hfd).ne_socket hsocket, (hfile fd hfd).mem⟩)
  refine ⟨hsound, hmiss, ?_, ?_, ?_, ?_, ?_, ?_⟩
  · exact fun hfound => h.phase (lookup_erase_cases hfound).2
  · exact fun hfound => h.clsock (lookup_erase_cases hfound).2
  · exact fun hfound => h.live (lookup_erase_cases hfound).2
  · intro other hother
    obtain ⟨hne, hother⟩ := AList.mem_erase.mp hother
    obtain ⟨n, hn⟩ := h.socket hother
    have hnofile : file ≠ some other :=
      fun heq => (hfile other heq).ne_socket ⟨n, hn⟩ rfl
    exact ⟨n, (lookup_closeAll s.descriptors hne hnofile).trans hn⟩
  · rintro fd ⟨n, hn⟩
    have hn : (closeAll s.descriptors key file).entries.lookup fd = some (n, .client) := hn
    have hne : fd ≠ key := by
      rintro rfl
      rw [lookup_closeAll_self] at hn
      simp at hn
    have hnofile : file ≠ some fd := by
      rintro rfl
      have hclosed : (closeAll s.descriptors key (some fd)).entries.lookup fd = none :=
        Table.lookup_close_self _ fd
      rw [hclosed] at hn
      simp at hn
    rw [lookup_closeAll s.descriptors hne hnofile] at hn
    exact AList.mem_erase.mpr ⟨hne, h.key ⟨n, hn⟩⟩
  · intro other found fd hfound hfd
    obtain ⟨hne, hfound⟩ := lookup_erase_cases hfound
    have hown := h.file hfound hfd
    have hnofile : file ≠ some fd :=
      fun heq => hne ((hfile fd heq).2 hfound hfd)
    obtain ⟨n, hn⟩ := hown.1
    refine ⟨⟨n, (lookup_closeAll s.descriptors (hown.ne_socket hsocket) hnofile).trans hn⟩, ?_⟩
    intro other' found' hfound' hfd'
    exact hown.2 (lookup_erase_cases hfound').2 hfd'

/-- A fresh number is no key: `emplace` finds room. -/
theorem Invariant.not_mem (h : s.Invariant) {fd : Nat} (hfresh : fd ∉ s.descriptors.entries) :
    fd ∉ s.sessions :=
  fun hmem => hfresh (h.socket hmem).mem

theorem Invariant.cbAccept (h : s.Invariant) {fd : Nat}
    (hfresh : fd ∉ s.descriptors.entries) (add : AddResult) :
    ∃ session, Session.newSession fd add = .ok session ∧
      s.cbAccept fd add =
        .ok ⟨s.sessions.insert fd session, s.descriptors.openAs .client fd⟩ := by
  obtain ⟨session, hsession⟩ : ∃ session, Session.newSession fd add = .ok session := by
    cases add <;> exact ⟨_, rfl⟩
  refine ⟨session, hsession, ?_⟩
  rw [Server.cbAccept, Server.newSession, hsession]
  exact if_neg (h.not_mem hfresh)

/-- An accepted client has its own socket and no file. -/
theorem Invariant.accept
    (h : s.Invariant) {fd : Nat} (hfresh : fd ∉ s.descriptors.entries)
    {add : AddResult} {session : Session}
    (hsession : Session.newSession fd add = .ok session) :
    Invariant ⟨s.sessions.insert fd session, s.descriptors.openAs .client fd⟩ := by
  obtain ⟨hclsock, hlive, hnofile⟩ :
      session.clsock = fd ∧ session.drops = [] ∧ session.file = none := by
    cases add <;> obtain rfl := Except.ok.inj hsession <;> exact ⟨rfl, rfl, rfl⟩
  have hkeep : ∀ other ∈ s.descriptors.entries, other ≠ fd :=
    fun other hother heq => hfresh (heq ▸ hother)
  refine ⟨h.sound.openAs .client hfresh, h.no_miss,
    forall_lookup_insert (Session.newSession_phase hsession) h.phase,
    forall_lookup_insert (P := fun key session => Session.clsock session = key) hclsock h.clsock,
    forall_lookup_insert hlive h.live, ?_, ?_, ?_⟩
  · intro other hother
    rcases AList.mem_insert _ |>.mp hother with rfl | hother
    · exact ⟨_, Table.lookup_openAs_self .client s.descriptors other⟩
    · obtain ⟨n, hn⟩ := h.socket hother
      have hne := hkeep other (h.socket hother).mem
      exact ⟨n, (Table.lookup_openAs_ne .client s.descriptors hne).trans hn⟩
  · rintro other ⟨n, hn⟩
    by_cases hother : other = fd
    · exact AList.mem_insert _ |>.mpr (Or.inl hother)
    · have hn := (Table.lookup_openAs_ne .client s.descriptors hother).symm.trans hn
      exact AList.mem_insert _ |>.mpr (Or.inr (h.key ⟨n, hn⟩))
  · intro other found file hfound hfile
    rcases lookup_insert_cases hfound with ⟨rfl, rfl⟩ | ⟨-, hfound⟩
    · rw [hnofile] at hfile
      simp at hfile
    · have hown := h.file hfound hfile
      obtain ⟨n, hn⟩ := hown.1
      have hne := hkeep file hown.mem
      refine ⟨⟨n, (Table.lookup_openAs_ne .client s.descriptors hne).trans hn⟩, ?_⟩
      intro other' found' hfound' hfile'
      rcases lookup_insert_cases hfound' with ⟨rfl, rfl⟩ | ⟨-, hfound'⟩
      · rw [hnofile] at hfile'
        simp at hfile'
      · exact hown.2 hfound' hfile'

/-- Reports leave the server alone. -/
theorem perform_quiet {quiet : List Action} (hquiet : ∀ a ∈ quiet, ∃ r, a = .report r) :
    quiet.foldl perform s = s := by
  induction quiet with
  | nil => rfl
  | cons a quiet ih =>
      obtain ⟨r, rfl⟩ := hquiet a (by simp)
      exact ih (fun b hb => hquiet b (by simp [hb]))

/-- Dropping removes the session from the table and closes what it owned. -/
theorem perform_dropped (sock key : Nat) (file : Option Nat) :
    (([.shutdown sock, .drop key, .close sock] : List Action) ++
        file.toList.map Action.close).foldl perform s =
      ⟨s.sessions.erase key, closeAll s.descriptors sock file⟩ := by
  cases file <;> rfl

theorem erase_insert (sessions : AList (fun _ : Nat => Session)) (key : Nat)
    (session : Session) : (sessions.insert key session).erase key = sessions.erase key := by
  apply AList.ext
  have hentries : ((sessions.insert key session).erase key).entries =
      (sessions.insert key session).entries.kerase key := rfl
  rw [hentries, AList.entries_insert]
  exact List.kerase_cons_eq rfl

/-- What a callback about a key does: the session under the key takes a step, and stays in
the table with its new files, or is gone with its socket and its file. -/
inductive CallbackCases (s : Server) (key : Nat) (i : Session.Input) (opened : List Nat) :
    Server → Prop
  | kept {session next : Session}
      (hsession : s.sessions.lookup key = some session)
      (hown : Session.system.step session i next)
      (hdrops : next.drops = [])
      (hfile : ∀ fd, next.file = some fd → session.file = some fd ∨ i.Serves fd)
      (hclsock : next.clsock = session.clsock) :
      CallbackCases s key i opened
        ⟨s.sessions.insert key next, s.descriptors.openAll .other opened⟩
  | dropped {session next : Session} {file : Option Nat}
      (hsession : s.sessions.lookup key = some session)
      (hown : Session.system.step session i next)
      (hdrops : next.drops = [key])
      (hfile : ∀ fd, file = some fd → session.file = some fd ∨ i.Serves fd) :
      CallbackCases s key i opened
        ⟨s.sessions.erase key, closeAll (s.descriptors.openAll .other opened) key file⟩

theorem Invariant.callback_cases
    {t : Server} (h : s.Invariant) {key : Nat} {i : Session.Input} {opened : List Nat}
    (hstep : system.step s (.session key i opened) t) :
    CallbackCases s key i opened t := by
  obtain ⟨⟨session, hsession, hpossible⟩, -, hcallback⟩ := hstep
  simp only [Server.callback, hsession, Prod.mk.injEq] at hcallback
  obtain ⟨hreturns, rfl⟩ := hcallback
  rcases hrun : session.callback i with ⟨res, next⟩
  rw [hrun] at hreturns
  have hreturns : res = .ok () := hreturns
  subst hreturns
  have hown : Session.system.step session i next := ⟨hpossible, hrun⟩
  cases Session.callback_effect (h.phase hsession) hpossible hrun with
  | kept hactions hclsock hfile =>
      have hdrops : next.drops = [] := by
        rw [Session.drops, hactions]
        exact h.live hsession
      simp only [hactions, List.drop_length, List.foldl_nil]
      exact .kept hsession hown hdrops hfile hclsock
  | @dropped quiet file hquiet hactions hfile =>
      have hdrops : next.drops = [key] := by
        have hmem : Action.drop key ∈ next.actions := by
          simp [hactions]
        have hdropped : key ∈ next.drops :=
          List.mem_filterMap.mpr ⟨_, hmem, rfl⟩
        rcases Session.phase_of_step (h.phase hsession) hown with
          (hphase | hphase | hphase) | hphase
        · simp [hphase.alive.drops] at hdropped
        · simp [hphase.alive.drops] at hdropped
        · exact hphase.drops
        · simp [hphase.alive.drops] at hdropped
      simp only [hactions, List.drop_left, List.append_assoc, List.foldl_append,
        perform_quiet hquiet, h.clsock hsession]
      rw [← List.foldl_append, perform_dropped, erase_insert]
      exact .dropped hsession hown hdrops hfile

/-- The file of a session after a callback was its own before, or was opened just now. -/
theorem Invariant.ownFile_openAll
    (h : s.Invariant) {key : Nat} {session : Session}
    (hsession : s.sessions.lookup key = some session)
    {i : Session.Input} {opened : List Nat} (hfresh : s.Fresh i opened) {fd : Nat}
    (hfd : session.file = some fd ∨ i.Serves fd) :
    OwnFile { s with descriptors := s.descriptors.openAll .other opened } key fd := by
  obtain ⟨hnodup, hopened, hserves⟩ := hfresh
  obtain ⟨hopen, hown⟩ := h.openAll hnodup hopened
  rcases hfd with hfile | hserved
  · exact hopen.file hsession hfile
  · exact hown key fd (hserves fd hserved)

/-- A callback of a session replaces it by its next state, or removes it; no other
session is touched. -/
theorem Invariant.callback
    {t : Server} (h : s.Invariant) {key : Nat} {i : Session.Input} {opened : List Nat}
    (hstep : system.step s (.session key i opened) t) :
    t.Invariant ∧ ∀ other ≠ key, t.sessions.lookup other = s.sessions.lookup other := by
  have hfresh := hstep.2.1
  have hopen := (h.openAll hfresh.1 hfresh.2.1).1
  cases h.callback_cases hstep with
  | kept hsession hown hdrops hfile hclsock =>
      constructor
      · exact hopen.update (mem_of_lookup hsession)
          (Session.phase_of_step (h.phase hsession) hown) (hclsock.trans (h.clsock hsession))
          hdrops (fun fd hfd => h.ownFile_openAll hsession hfresh (hfile fd hfd))
      · exact fun other hother => AList.lookup_insert_ne hother
  | dropped hsession hown hdrops hfile =>
      constructor
      · exact hopen.remove (mem_of_lookup hsession)
          (fun fd hfd => h.ownFile_openAll hsession hfresh (hfile fd hfd))
      · exact fun other hother => AList.lookup_erase_ne hother

/-- Every callback keeps the invariant, and touches the session that it is about
only. -/
theorem Invariant.step
    {t : Server} (h : s.Invariant) {i : Input} (hstep : system.step s i t) :
    t.Invariant ∧ ∀ key ≠ i.key, t.sessions.lookup key = s.sessions.lookup key := by
  cases i with
  | accept clsocket add =>
      obtain ⟨hfresh, haccept⟩ := hstep
      obtain ⟨session, hsession, hcbAccept⟩ := h.cbAccept hfresh add
      rw [hcbAccept] at haccept
      obtain rfl := Except.ok.inj haccept
      exact ⟨h.accept hfresh hsession, fun key hkey => AList.lookup_insert_ne hkey⟩
  | session key i opened => exact h.callback hstep

/-- The descriptors that a callback opens are none of the sockets. -/
theorem Invariant.lookup_openAll_socket
    (h : s.Invariant) {i : Session.Input} {opened : List Nat} (hfresh : s.Fresh i opened)
    {key : Nat} (hkey : key ∈ s.sessions) :
    (s.descriptors.openAll .other opened).entries.lookup key =
      s.descriptors.entries.lookup key := by
  have hnew : key ∉ opened := fun hmem => hfresh.2.1 key hmem (h.socket hkey).mem
  exact Table.lookup_openAll_of_not_mem hnew s.descriptors

/-- The sockets of the other sessions stay open. -/
theorem Invariant.socket_kept
    {t : Server} (h : s.Invariant) {i : Input} (hstep : system.step s i t)
    {key : Nat} (hkey : key ∈ s.sessions) (hne : key ≠ i.key) :
    t.descriptors.entries.lookup key = s.descriptors.entries.lookup key := by
  cases i with
  | accept clsocket add =>
      obtain ⟨hfresh, haccept⟩ := hstep
      obtain ⟨session, -, hcbAccept⟩ := h.cbAccept hfresh add
      obtain rfl := Except.ok.inj (hcbAccept.symm.trans haccept)
      exact Table.lookup_openAs_ne .client s.descriptors hne
  | session other i opened =>
      have hfresh := hstep.2.1
      have hkeep := h.lookup_openAll_socket hfresh hkey
      cases h.callback_cases hstep with
      | kept => exact hkeep
      | @dropped session next file hsession hown hdrops hfile =>
          have hnofile : file ≠ some key := by
            intro heq
            have hopened := h.ownFile_openAll hsession hfresh (hfile key heq)
            obtain ⟨n, hn⟩ := h.socket hkey
            exact hopened.ne_socket ⟨n, hkeep.trans hn⟩ rfl
          exact (lookup_closeAll _ hne hnofile).trans hkeep

/-- A client that is accepted gets a session and a socket under its number. -/
theorem Invariant.accepted
    {t : Server} (h : s.Invariant) {fd : Nat} {add : AddResult}
    (hstep : system.step s (.accept fd add) t) :
    ∃ session, Session.newSession fd add = .ok session ∧
      t.sessions.lookup fd = some session ∧
      t.descriptors.entries.lookup fd = some (s.descriptors.issued, .client) := by
  obtain ⟨hfresh, haccept⟩ := hstep
  obtain ⟨session, hsession, hcbAccept⟩ := h.cbAccept hfresh add
  obtain rfl := Except.ok.inj (hcbAccept.symm.trans haccept)
  exact ⟨session, hsession, AList.lookup_insert _,
    Table.lookup_openAs_self .client s.descriptors fd⟩

/-- A callback about a key is a step of the session under the key: it keeps the session
and its socket, or drops the session, which leaves the table, and closes the socket. -/
theorem Invariant.callback_socket
    {t : Server} (h : s.Invariant) {key : Nat} {i : Session.Input} {opened : List Nat}
    (hstep : system.step s (.session key i opened) t) :
    ∃ session next, s.sessions.lookup key = some session ∧
      Session.system.step session i next ∧
      (next.drops = [] ∧ t.sessions.lookup key = some next ∧
          t.descriptors.entries.lookup key = s.descriptors.entries.lookup key ∨
        next.drops = [key] ∧ key ∉ t.sessions ∧ s.ClosesSocket t key) := by
  have hsound := (h.callback hstep).1.sound
  have hfresh := hstep.2.1
  cases h.callback_cases hstep with
  | kept hsession hown hdrops =>
      exact ⟨_, _, hsession, hown, .inl ⟨hdrops, AList.lookup_insert _,
        h.lookup_openAll_socket hfresh (mem_of_lookup hsession)⟩⟩
  | @dropped session next file hsession hown hdrops =>
      obtain ⟨n, hn⟩ := h.socket (mem_of_lookup hsession)
      have hrunning := (h.lookup_openAll_socket hfresh (mem_of_lookup hsession)).trans hn
      have hone := hsound.count_eq_one (mem_closed_closeAll hrunning file)
      refine ⟨_, _, hsession, hown, .inr ⟨hdrops, ?_, ?_, n, hn, ?_, hone⟩⟩
      · exact fun hmem => (AList.mem_erase.mp hmem).1 rfl
      · exact AList.lookup_eq_none.mp (lookup_closeAll_self _ key file)
      · exact h.sound.count_eq_zero hn

theorem invariant_of_init (h : system.init s) : s.Invariant := by
  obtain ⟨fds, hnodup, rfl⟩ := h
  have hnothing : Invariant ⟨∅, Table.empty⟩ := by
    refine ⟨Table.sound_empty, by simp [Table.empty], ?_, ?_, ?_, ?_, ?_, ?_⟩
    all_goals simp [OpenSocket, Table.empty]
  exact (hnothing.openAll hnodup (by simp [Table.empty])).1

theorem invariant_of_run
    {t : Server} {is : List Input} (hs : system.init s)
    (hrun : Transition.Run system s is t) : t.Invariant :=
  hrun.invariant (fun _ _ _ h hstep => (h.step hstep).1) (invariant_of_init hs)

end Steps

/-- Between the callbacks of every run: the keys of the table are the open client
sockets; the session under a key owns that socket and was not dropped; `new_session` finds
room for every number that is not open; every descriptor, and so every accepted socket, is
open and was never closed, or was closed exactly once, and no close misses.  The next
callback leaves all sessions but its own in place, with their sockets; an accept puts a
session under the new socket; a callback of a session keeps it with its socket, or drops
it: then the session leaves the table, and its socket is closed for the first time. -/
theorem sessions_match_sockets
    {s t : Server} {is : List Input} (hs : system.init s)
    (hrun : Transition.Run system s is t) :
    (∀ fd, fd ∈ t.sessions ↔ t.OpenSocket fd) ∧
      (∀ key session, t.sessions.lookup key = some session →
        session.clsock = key ∧ session.drops = []) ∧
      (∀ fd add, fd ∉ t.descriptors.entries → ∃ u, t.cbAccept fd add = .ok u) ∧
      (∀ n < t.descriptors.issued,
        (t.descriptors.Live n ∧ t.descriptors.closed.count (some n) = 0) ∨
          (¬ t.descriptors.Live n ∧ t.descriptors.closed.count (some n) = 1)) ∧
      none ∉ t.descriptors.closed ∧
      (∀ i u, system.step t i u → ∀ key ≠ i.key,
        u.sessions.lookup key = t.sessions.lookup key ∧
          (key ∈ t.sessions →
            u.descriptors.entries.lookup key = t.descriptors.entries.lookup key)) ∧
      (∀ fd add u, system.step t (.accept fd add) u →
        ∃ session, Session.newSession fd add = .ok session ∧
          u.sessions.lookup fd = some session ∧
          u.descriptors.entries.lookup fd = some (t.descriptors.issued, .client)) ∧
      ∀ key i opened u, system.step t (.session key i opened) u →
        ∃ session next, t.sessions.lookup key = some session ∧
          Session.system.step session i next ∧
          (next.drops = [] ∧ u.sessions.lookup key = some next ∧
              u.descriptors.entries.lookup key = t.descriptors.entries.lookup key ∨
            next.drops = [key] ∧ key ∉ u.sessions ∧ t.ClosesSocket u key) := by
  have h := invariant_of_run hs hrun
  refine ⟨fun fd => ⟨h.socket, h.key⟩, ?_, ?_, h.sound.closed_once, h.no_miss, ?_,
    fun _ _ _ hstep => h.accepted hstep, fun _ _ _ _ hstep => h.callback_socket hstep⟩
  · exact fun _ _ hlookup => ⟨h.clsock hlookup, h.live hlookup⟩
  · intro fd add hfresh
    obtain ⟨session, -, hcbAccept⟩ := h.cbAccept hfresh add
    exact ⟨_, hcbAccept⟩
  · intro i u hstep key hne
    exact ⟨(h.step hstep).2 key hne, fun hkey => h.socket_kept hstep hkey hne⟩

/-- A server that waits for its first client. -/
def started : Server :=
  ⟨∅, Table.empty.openAll .other [0, 1, 2, 3]⟩

/-- The server with one client, on socket 7. -/
def withClient : Server :=
  ⟨started.sessions.insert 7 (Session.accepted .pending), started.descriptors.openAs .client 7⟩

/-- The server after this client timed out. -/
def withoutClient : Server :=
  ⟨withClient.sessions.erase 7, withClient.descriptors.close 7⟩

/-- The timeout of the client closes its socket, and the number can be accepted again. -/
theorem socket_reused :
    withClient.ClosesSocket withoutClient 7 ∧
      (7 ∈ withoutClient.sessions ↔ withoutClient.OpenSocket 7) ∧
      ∃ u, withoutClient.cbAccept 7 none = .ok u := by
  have hinit : system.init started := ⟨[0, 1, 2, 3], by decide, rfl⟩
  have haccept : system.step started (.accept 7 none) withClient := ⟨by decide, rfl⟩
  have htimeout : system.step withClient (.session 7 .readTimeout []) withoutClient := by
    refine ⟨⟨Session.accepted .pending, rfl, rfl⟩, ⟨List.nodup_nil, ?_, ?_⟩, rfl⟩
    · simp
    · exact fun fd hfd => hfd.elim
  have hbefore := sessions_match_sockets hinit (.cons haccept (.nil _))
  have hafter := sessions_match_sockets hinit (.cons haccept (.cons htimeout (.nil _)))
  refine ⟨?_, hafter.1 7, hafter.2.2.1 7 none (by decide)⟩
  obtain ⟨session, next, -, -, hkept | hdropped⟩ :=
    hbefore.2.2.2.2.2.2.2 7 .readTimeout [] withoutClient htimeout
  · exact absurd ((AList.lookup_erase 7 _).symm.trans hkept.2.1) nofun
  · exact hdropped.2.2

end Server

end Goofy
