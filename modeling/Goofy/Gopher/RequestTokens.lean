import Goofy.Gopher.ReaderRuns
import Goofy.Util.Tokens

/-!
# The tokens of a string

`tokenize` against the join of strings: its tokens are the only list of parts between the
separators (`tokenize_inverse_join`).  The 32-bit index of `tokenize` can scan every request
line, since a line is a part of the reader's buffer (`length_of_gotLine`).
-/

namespace Goofy
namespace Gopher

open Delimited Transition Util

section RequestLines

namespace Reading

variable {answer : Bytes → List ReaderCall → Except Fail Bool} {s t : Reading}
  {buflen : Nat}

/-- No line that the owner was told is longer than the buffer. -/
def LinesFit (buflen : Nat) (s : Reading) : Prop :=
  ∀ line, .gotLine line ∈ s.calls → line.length ≤ buflen + 2

/-- A line that the owner was told by now was told before, or ends now. -/
theorem mem_calls_heard
    {line data : Bytes} {add : AddResult} {i : Nat} {reply : Except Fail Bool}
    (h : .gotLine line ∈ (s.heard data add i reply).calls) :
    .gotLine line ∈ s.calls ∨ line = lineAt s.reader data i := by
  rcases reply with f | again
  · cases f with
    | exn e => simpa [heard] using h
    | assertion => simpa [heard] using h
    | undefined => simpa [heard] using h
    | hang => simpa [heard] using h
  · simpa [heard] using h

theorem LinesFit.step
    {i : ReaderStep} (hfit : LinesFit buflen s) (hs : WellFormed buflen s)
    (h : (lifetime answer buflen).step s i t) :
    LinesFit buflen t := by
  intro line hline
  cases stepCases_of_step h with
  | readFrom hfree => exact hfit line hline
  | timeout => exact hfit line (by simpa using hline)
  | failed => exact hfit line (by simpa using hline)
  | eof => exact hfit line (by simpa using hline)
  | more hne hnone => exact hfit line hline
  | @line data add i hne hsome =>
      rcases mem_calls_heard hline with hbefore | rfl
      · exact hfit line hbefore
      · have hlen := Reader.length_received (hs.fit h.1)
        rw [← hs.size, ← hlen]
        exact List.length_take_le' _ _

/-- A reader's lines are no longer than its buffer. -/
theorem length_of_gotLine
    {is : List ReaderStep} {line : Bytes}
    (hrun : Run (lifetime answer buflen) (create buflen) is t)
    (hline : .gotLine line ∈ t.calls) :
    line.length ≤ buflen + 2 := by
  have hstep : ∀ s i t, WellFormed buflen s ∧ LinesFit buflen s →
      (lifetime answer buflen).step s i t → WellFormed buflen t ∧ LinesFit buflen t := by
    rintro s i t ⟨hs, hfit⟩ h
    exact ⟨hs.step h, hfit.step hs h⟩
  have hinv := hrun.invariant hstep ⟨wellFormed_create buflen, nofun⟩
  exact hinv.2 line hline

end Reading

end RequestLines

/-- `tokenize` is the inverse of a join.  On a string that its 32-bit index can scan it ends
after a bounded number of turns, with every read inside the string and a separator found by
every `memchr`, and returns the parts between the separators, which is the only such list.
The lines of a session's reader are such strings. -/
theorem tokenize_inverse_join :
    (∀ (r : StrRef) (sep : Byte), r.len < 2 ^ 32 →
      ∃ tokens, tokenize r sep = .ok tokens ∧
        (∃ reads places,
          Run (Tokenizing.execution r.str sep) .start reads (.returned places)) ∧
        (∀ reads t, Run (Tokenizing.execution r.str sep) .start reads t →
          Tokenizing.Sound r.str sep (tokens.map StrRef.str) reads t) ∧
        Splits sep r.str (tokens.map StrRef.str) ∧
        ∀ texts, Splits sep r.str texts → texts = tokens.map StrRef.str) ∧
    ∀ answer is t line, Run (Reading.lifetime answer 256) (.create 256) is t →
      .gotLine line ∈ t.calls → line.length < 2 ^ 32 := by
  constructor
  · intro r sep hlen
    obtain ⟨tokens, htokens, htexts, hends⟩ := Tokenizing.tokenize_spec sep hlen
    refine ⟨tokens, htokens, hends, ?_, (splits_iff sep).mpr htexts, ?_⟩
    · intro reads t hrun
      rw [htexts]
      exact Tokenizing.sound_of_run hlen hrun
    · intro texts hsplits
      rw [htexts]
      exact (splits_iff sep).mp hsplits
  · intro answer is t line hrun hline
    exact (Reading.length_of_gotLine hrun hline).trans_lt (by decide)

/-- Separators at both ends and side by side, and the first line of a session's reader. -/
theorem tokenize_inverse_join_spaces :
    (∃ tokens, tokenize (.of (lit " a  b ")) 32 = .ok tokens ∧
      tokens.map StrRef.str = [[], lit "a", [], lit "b", []]) ∧
    (lit "docs").length < 2 ^ 32 := by
  constructor
  · obtain ⟨tokens, htokens, -, -, -, honly⟩ :=
      tokenize_inverse_join.1 (.of (lit " a  b ")) 32 (by decide)
    exact ⟨tokens, htokens, (honly _ ⟨by decide, by decide, by decide⟩).symm⟩
  · refine tokenize_inverse_join.2 (fun _ _ => .ok false)
      [.readFrom none, .readable (.ok (lit "docs\n")) none] _ (lit "docs")
      (.cons ⟨⟨rfl, rfl⟩, rfl⟩ (.cons ⟨⟨rfl, rfl, ?_⟩, rfl⟩ (.nil _))) ?_
    · decide +kernel
    · decide +kernel

end Gopher
end Goofy
