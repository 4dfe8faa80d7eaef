import Goofy.Conversation

/-!
# The end of a session

Every callback of a session hears a byte or says one, or it is the last: no event of the
session occurs afterwards.  The exception is a `sendfile` that takes nothing although
bytes of the file are left (`Stalls`).  A session hears 258 bytes at most and says no more
than one answer, so without stalls its callbacks are counted, and the last one drops it
(`session_ends`).
-/

namespace Goofy
namespace Session

open Gopher Transition

variable {sock : Nat} {contents : Nat → Bytes} {answer : Request → Body → Prop}

/-- No event of the session can occur. -/
def Stopped (s : Session) : Prop :=
  ∀ i, ¬ s.Possible i

section Steps

variable {s t : Session} {x : Exchange.State Byte Byte}

theorem Alive.stopped_giveUp
    (h : s.Alive sock) (r : Report) :
    (s.giveUp r).Stopped :=
  (h.giveUp r).not_possible

/-- A callback of the reader hears a byte, or the session stops. -/
theorem hears_or_stops
    {ev : Event} (h : s.Reading sock ev)
    {res : Except Errno Bytes} {serve : Request → Except Exn Body}
    {readAdd writeAdd : AddResult}
    (hstep : system.step s (.readable res serve readAdd writeAdd) t) :
    1 ≤ (Input.readable res serve readAdd writeAdd).delivered.length ∨ t.Stopped := by
  by_cases hnil : (Input.readable res serve readAdd writeAdd).delivered = []
  · right
    obtain ⟨r, rfl⟩ := gaveUp_of_nothing hstep.2 hnil
    exact h.alive.stopped_giveUp r
  · left
    exact List.length_pos_iff.mpr hnil

/-- A callback of the writer says a byte, or stalls, or the session stops. -/
theorem tells_or_stops
    {w : Writer} (h : s.Writing sock)
    (hwriter : s.writer = some w) (hfits : w.body.Fits contents)
    {res : Except Errno Nat} {writeAdd : AddResult}
    (hstep : system.step s (.writable res writeAdd) t)
    (hstall : ¬ s.Stalls (.writable res writeAdd)) :
    1 ≤ (s.sent contents (.writable res writeAdd)).length ∨ t.Stopped := by
  obtain ⟨rest, hrest, hcases⟩ := says_of_callback h hwriter hfits hstep.1 hstep.2
  cases hcases with
  | done =>
      right
      exact h.alive.close.not_possible
  | gaveUp r =>
      right
      exact h.alive.stopped_giveUp r
  | @more body hfits' hmore hsame =>
      left
      rw [Nat.one_le_iff_ne_zero, ne_eq, List.length_eq_zero_iff]
      intro hnil
      rw [hnil, List.nil_append] at hrest
      exact hstall (hsame hrest.symm)

/-- A callback that does not stall hears or says a byte, or the session stops. -/
theorem Agrees.moves
    (h : Agrees sock contents s x) {i : Input}
    (hstep : system.step s i t) (hstall : ¬ s.Stalls i) :
    1 ≤ i.delivered.length + (s.sent contents i).length ∨ t.Stopped := by
  cases h with
  | listening h =>
      cases i with
      | readable res serve readAdd writeAdd =>
          exact (hears_or_stops h hstep).imp_left (fun hle => Nat.le_add_right_of_le hle)
      | readTimeout =>
          obtain rfl := (Prod.mk.inj hstep.2).2
          exact .inr (h.alive.stopped_giveUp .timedOut)
      | writable res writeAdd =>
          obtain ⟨w, hw, hpending, -⟩ := hstep.1
          exact absurd ⟨w, hw, hpending⟩ h.not_writePending
      | writeTimeout => exact absurd hstep.1 h.not_writePending
  | speaking h hwriter hfits =>
      cases i with
      | readable => exact absurd hstep.1.1 h.not_readPending
      | readTimeout => exact absurd hstep.1 h.not_readPending
      | writable res writeAdd =>
          exact (tells_or_stops h hwriter hfits hstep hstall).imp_left
            (fun hle => Nat.le_add_left_of_le hle)
      | writeTimeout =>
          obtain rfl := (Prod.mk.inj ((callback_writeTimeout hwriter).symm.trans hstep.2)).2
          exact .inr (h.alive.stopped_giveUp .timedOut)
  | ended h => exact absurd hstep.1 (h.not_possible i)

/-- All callbacks but the last hear or say a byte. -/
theorem length_le_of_run
    {is : List Input}
    (hrun : Run (system.restrict (fun s i => i.Within contents answer ∧ ¬ s.Stalls i)) s is t) :
    ∀ {x : Exchange.State Byte Byte}, Agrees sock contents s x → x.heard.length ≤ 258 →
      is.length ≤ (heard is).length + (said contents s is).length + 1 := by
  induction hrun with
  | nil => simp
  | @cons s t u i is hfirst hrest ih =>
      intro x hagrees hroom
      obtain ⟨⟨hwithin, hstall⟩, hstep⟩ := hfirst
      obtain ⟨y, hy⟩ := hagrees.step hroom ⟨hwithin, hstep⟩
      have hnext : (s.callback i).2 = t := congrArg Prod.snd hstep.2
      have hheard : heard (i :: is) = i.delivered ++ heard is := by
        simp [heard]
      have hsaid : said contents s (i :: is) = s.sent contents i ++ said contents t is := by
        rw [said, hnext]
      rw [hheard, hsaid, List.length_append, List.length_append, List.length_cons]
      rcases hagrees.moves hstep hstall with hbyte | hstopped
      · have hle := ih hy.agrees hy.room
        omega
      · cases hrest with
        | nil => simp
        | cons hsecond => exact absurd hsecond.2.1 (hstopped _)

end Steps

/-- When no `sendfile` stalls and `event_add` works for the reader, a session ends: the
number of its callbacks is bounded by the buffer and the longest answer, and until it is
dropped there is always an event that can occur. -/
theorem session_ends
    {size : Nat} {s t : Session} {is : List Input}
    (hsize : ∀ request body, answer request body →
      (body.beforeWrite.remaining contents).length ≤ size)
    (hnew : newSession sock none = .ok s)
    (hrun : Run (system.restrict (fun s i =>
      (i.Within contents answer ∧ ¬ s.Stalls i) ∧ s.ReaderAdds i)) s is t) :
    is.length ≤ 258 + size + 1 ∧
      (t.drops = [sock] ∨ t.drops = [] ∧ ∃ i u, system.step t i u) := by
  constructor
  · have hroom : (Exchange.fresh : Exchange.State Byte Byte).heard.length ≤ 258 :=
      Nat.zero_le _
    have hcount := length_le_of_run (hrun.weaken (fun _ _ h => h.1))
      (agrees_newSession hnew) hroom
    obtain ⟨y, hagrees, hsound, hheard, hsaid, hlen⟩ :=
      exchange_of_run hnew (hrun.weaken (fun _ _ h => h.1.1))
    have hbound : y.said.length ≤ size := by
      rcases hagrees.answered hsound with
        ⟨hnone, -⟩ | ⟨before, after, body, -, hanswer, hprefix, -⟩
      · simp [hnone]
      · exact hprefix.length_le.trans (hsize _ _ hanswer)
    rw [hheard] at hlen
    rw [hsaid] at hbound
    omega
  · have hkeep : ∀ (s : Session) (i : Input) (t : Session), s.Settled sock →
        (system.restrict ReaderAdds).step s i t → t.Settled sock := by
      rintro s i t hs ⟨hadds, hstep⟩
      rcases step_cases (.settled hs) hstep with ⟨-, hsettled⟩ | ⟨hfails, -⟩
      · exact hsettled
      · exact absurd hadds hfails
    have hsettled : t.Settled sock :=
      (hrun.weaken (D := ReaderAdds) (fun _ _ h => h.2)).invariant hkeep
        (.reading (newSession_reading hnew))
    have hgoes : ∀ i, t.Possible i → ∃ i u, system.step t i u := by
      intro i hpossible
      obtain ⟨u, hu, -⟩ := callback_step (.settled hsettled) hpossible
      exact ⟨i, u, hpossible, hu⟩
    cases hsettled with
    | reading h => exact .inr ⟨h.alive.drops, hgoes .readTimeout h.reader⟩
    | writing h => exact .inr ⟨h.alive.drops, hgoes .writeTimeout h.writer⟩
    | dropped h => exact .inl h.drops

/-- The session with the two bytes to send is not stuck. -/
theorem greeting_goes_on :
    greeting.drops = [7] ∨ greeting.drops = [] ∧ ∃ i u, system.step greeting i u := by
  have hsize : ∀ (_ : Request) (body : Body), body = greetingBody →
      (body.beforeWrite.remaining (fun _ => [])).length ≤ 2 := by
    rintro request body rfl
    exact Nat.le_refl 2
  have hnew : newSession 7 none = .ok (accepted .pending) := rfl
  have hstall : ¬ (accepted .pending).Stalls hello := by
    rintro ⟨⟨add, hadd⟩, -⟩
    exact absurd hadd nofun
  have hadds : (accepted .pending).ReaderAdds hello := fun _ => rfl
  exact (session_ends hsize hnew
    (.cons ⟨⟨⟨within_hello, hstall⟩, hadds⟩, step_hello⟩ (.nil _))).2

end Session
end Goofy
