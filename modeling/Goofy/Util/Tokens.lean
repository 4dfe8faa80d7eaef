import Goofy.Lib.Transition
import Goofy.Util.Str

/-!
# The loops of `tokenize`

`tokenize` of `util/str.cc` one turn of a loop at a time.  A turn is labelled with the part
of the string that it may read, and every token is kept as its place in the string, so that
reads and tokens can be compared with the bounds of the string.

One invariant (`Invariant`) links the count, the cursor and what remains with the tokens cut
off so far.  Every execution is `Sound` by it (`sound_of_run`), and `run_of_tokenize` says
that the turns compute what the function `tokenize` does.
-/

namespace Goofy
namespace Util

open Delimited Transition

/-- A part of a string: where it starts, and how many bytes it has. -/
structure Place where
  start : Nat
  len : Nat
deriving DecidableEq

namespace Place

/-- The bytes of a string at a place. -/
def bytes (s : Bytes) (p : Place) : Bytes :=
  (s.drop p.start).take p.len

/-- The place does not leave the string. -/
def Inside (s : Bytes) (p : Place) : Prop :=
  p.start + p.len ≤ s.length

end Place

/-- Where `tokenize` stands: at the head of its counting loop, at the head of its cutting
loop, or at its end. -/
inductive Tokenizing where
  | counting (i : UInt32) (count : Nat)
  | cutting (count cursor remains : Nat) (out : List Place)
  | returned (out : List Place)
  | failed (f : Fail)

namespace Tokenizing

/-- The start of the counting loop. -/
def start : Tokenizing :=
  .counting 0 0

/-- What the counting loop leaves behind: the whole string as the only token, or the start
of the cutting loop. -/
def counted (s : Bytes) : Nat → Tokenizing
  | 0 => .returned [⟨0, s.length⟩]
  | count + 1 => .cutting (count + 1) 0 s.length []

/-- One turn of a loop. -/
def next (s : Bytes) (sep : Byte) : Tokenizing → Option Tokenizing
  | .counting i count =>
      if i.toNat < s.length then
        some (.counting (i + 1) (if s[i.toNat]? = some sep then count + 1 else count))
      else some (counted s count)
  | .cutting 0 cursor remains out =>
      some (.returned (out ++ [⟨cursor, remains⟩]))
  | .cutting (count + 1) cursor remains out =>
      match memchrFrom s cursor remains sep with
      | .error f => some (.failed f)
      | .ok none => some (.failed .undefined)
      | .ok (some stop) =>
          let len := stop - cursor
          some (.cutting count (stop + 1) (sizeSub remains (len + 1)) (out ++ [⟨cursor, len⟩]))
  | .returned _ => none
  | .failed _ => none

/-- What the next turn may read: the byte at the index, or all that `memchr` is given. -/
def reads (s : Bytes) : Tokenizing → Place
  | .counting i _ => if i.toNat < s.length then ⟨i.toNat, 1⟩ else ⟨0, 0⟩
  | .cutting (_ + 1) cursor remains _ => ⟨cursor, remains⟩
  | _ => ⟨0, 0⟩

/-- The executions of `tokenize`, with what every turn reads. -/
def execution (s : Bytes) (sep : Byte) : System Tokenizing Place where
  init t := t = start
  step t p u := p = t.reads s ∧ t.next s sep = some u

/-- The next call of `memchr` finds the separator within what remains, and what is cut off
with it is no longer than that. -/
def Finds (s : Bytes) (sep : Byte) : Tokenizing → Prop
  | .cutting (_ + 1) cursor remains _ =>
      ∃ stop, memchrFrom s cursor remains sep = .ok (some stop) ∧ s[stop]? = some sep ∧
        cursor ≤ stop ∧ stop - cursor + 1 ≤ remains
  | _ => True

/-- The count is that of the separators before the index, then that of those behind the
cursor; cursor and what remains make up the string, and the tokens cut off so far are its
first parts. -/
def Invariant (s : Bytes) (sep : Byte) : Tokenizing → Prop
  | .counting i count => i.toNat ≤ s.length ∧ count = (s.take i.toNat).count sep
  | .cutting count cursor remains out =>
      cursor + remains = s.length ∧ (s.drop cursor).count sep = count ∧
        (∀ p ∈ out, p.Inside s) ∧
        out.map (Place.bytes s) ++ (s.drop cursor).splitOn sep = s.splitOn sep
  | .returned out => (∀ p ∈ out, p.Inside s) ∧ out.map (Place.bytes s) = s.splitOn sep
  | .failed _ => False

/-- The turns that are left. -/
def turnsLeft (s : Bytes) (sep : Byte) : Tokenizing → Nat
  | .counting i _ => s.length - i.toNat + s.count sep + 2
  | .cutting count _ _ _ => count + 1
  | .returned _ => 0
  | .failed _ => 0

/-- An execution that has got to a state with these reads: it has read the string only,
finds a separator whenever it looks for one, has a bound, and if it cannot go on it has
returned places of the string that hold these texts. -/
structure Sound (s : Bytes) (sep : Byte) (texts : List Bytes) (reads : List Place)
    (t : Tokenizing) : Prop where
  inside : ∀ p ∈ reads, p.Inside s
  finds : t.Finds s sep
  bounded : reads.length ≤ s.length + s.count sep + 2
  returns : t.next s sep = none →
    ∃ places, t = .returned places ∧ (∀ p ∈ places, p.Inside s) ∧
      places.map (Place.bytes s) = texts

section Refinement

variable {s : Bytes} {sep : Byte}

/-- The counting loop runs to what it leaves behind. -/
theorem run_of_countSep {n : Nat} :
    ∀ (fuel : Nat) (i : UInt32) (count : Nat),
      countSep s sep fuel i count = some n →
      ∃ reads, Run (execution s sep) (.counting i count) reads (counted s n)
  | 0, i, count, h => by simp [countSep] at h
  | fuel + 1, i, count, h => by
      rw [countSep] at h
      by_cases hlt : i.toNat < s.length
      · rw [if_pos hlt] at h
        obtain ⟨reads, hrest⟩ := run_of_countSep fuel _ _ h
        have hfirst : (execution s sep).step (.counting i count) _ _ :=
          ⟨rfl, if_pos hlt⟩
        exact ⟨_, .cons hfirst hrest⟩
      · rw [if_neg hlt] at h
        obtain rfl := Option.some.inj h
        have hlast : (execution s sep).step (.counting i count) _ _ :=
          ⟨rfl, if_neg hlt⟩
        exact ⟨_, .cons hlast (.nil _)⟩

/-- The cutting loop runs to its end, and appends the places of its tokens. -/
theorem run_of_cutTokens :
    ∀ (count cursor remains : Nat) {tokens : List StrRef} (out : List Place),
      cutTokens s sep count cursor remains = .ok tokens →
      ∃ reads places,
        Run (execution s sep) (.cutting count cursor remains out) reads
          (.returned (out ++ places)) ∧
        tokens = places.map (fun p => StrRef.of (p.bytes s))
  | 0, cursor, remains, tokens, out, h => by
      obtain rfl := Except.ok.inj h
      exact ⟨_, [⟨cursor, remains⟩], .cons ⟨rfl, rfl⟩ (.nil _), rfl⟩
  | count + 1, cursor, remains, tokens, out, h => by
      rw [cutTokens] at h
      cases hfind : memchrFrom s cursor remains sep with
      | error f => simp [hfind] at h
      | ok found =>
          cases found with
          | none => simp [hfind] at h
          | some stop =>
              cases hcut : cutTokens s sep count (stop + 1)
                  (sizeSub remains (stop - cursor + 1)) with
              | error f => simp [hfind, hcut] at h
              | ok later =>
                  simp only [hfind, hcut, Except.ok.injEq] at h
                  obtain ⟨reads, places, hrest, rfl⟩ :=
                    run_of_cutTokens count _ _ (out ++ [⟨cursor, stop - cursor⟩]) hcut
                  have hfirst : (execution s sep).step
                      (.cutting (count + 1) cursor remains out) ⟨cursor, remains⟩
                      (.cutting count (stop + 1) (sizeSub remains (stop - cursor + 1))
                        (out ++ [⟨cursor, stop - cursor⟩])) := by
                    refine ⟨rfl, ?_⟩
                    simp only [next, hfind]
                  rw [List.append_assoc] at hrest
                  exact ⟨_, ⟨cursor, stop - cursor⟩ :: places, .cons hfirst hrest, h.symm⟩

/-- What `tokenize` returns is what its loops run to. -/
theorem run_of_tokenize {r : StrRef} {tokens : List StrRef}
    (h : tokenize r sep = .ok tokens) :
    ∃ reads places,
      Run (execution r.str sep) start reads (.returned places) ∧
      tokens.map StrRef.str = places.map (Place.bytes r.str) := by
  rw [tokenize] at h
  cases hcount : countSep r.str sep (r.len + 1) 0 0 with
  | none => simp [hcount] at h
  | some n =>
      obtain ⟨reads, hcounted⟩ := run_of_countSep (r.len + 1) 0 0 hcount
      cases n with
      | zero =>
          simp only [hcount, Except.ok.injEq] at h
          refine ⟨reads, _, hcounted, ?_⟩
          simp [← h, Place.bytes]
      | succ n =>
          simp only [hcount] at h
          obtain ⟨reads', places, hcutting, rfl⟩ := run_of_cutTokens _ _ _ [] h
          refine ⟨_, places, hcounted.append hcutting, ?_⟩
          simp [Function.comp_def]

end Refinement

section Invariant

variable {s : Bytes} {sep : Byte} {t u : Tokenizing}

theorem invariant_start (s : Bytes) (sep : Byte) : Invariant s sep start := by
  exact ⟨Nat.zero_le _, rfl⟩

/-- The cutting loop starts with the separators of the whole string. -/
theorem invariant_counted (s : Bytes) (sep : Byte) :
    Invariant s sep (counted s (s.count sep)) := by
  cases hn : s.count sep with
  | zero =>
      refine ⟨by simp [Place.Inside], ?_⟩
      rw [List.splitOn_eq_singleton (List.count_eq_zero.mp hn)]
      simp [Place.bytes]
  | succ n => exact ⟨Nat.zero_add _, hn, by simp, rfl⟩

theorem turnsLeft_counted (s : Bytes) (sep : Byte) (n : Nat) :
    turnsLeft s sep (counted s n) ≤ n + 1 := by
  cases n with
  | zero => exact Nat.zero_le _
  | succ n => exact Nat.le_refl _

/-- No turn reads outside the string. -/
theorem Invariant.inside (ht : Invariant s sep t) : (t.reads s).Inside s := by
  cases t with
  | counting i count =>
      rw [reads]
      split_ifs with hlt
      · exact hlt
      · exact Nat.zero_le _
  | cutting count cursor remains out =>
      cases count with
      | zero => exact Nat.zero_le _
      | succ count => exact ht.1.le
  | returned out => exact Nat.zero_le _
  | failed f => exact Nat.zero_le _

/-- The separators that the count promises are there. -/
theorem Invariant.finds (ht : Invariant s sep t) : t.Finds s sep := by
  cases t with
  | counting i count => trivial
  | cutting count cursor remains out =>
      cases count with
      | zero => trivial
      | succ count =>
          obtain ⟨hfit, hcount, -, -⟩ := ht
          obtain ⟨stop, hcut⟩ := exists_cutAt sep hcount
          have hremains : s.length - cursor = remains := by omega
          have hge := hcut.ge
          have hlt := hcut.lt
          exact ⟨stop, hremains ▸ hcut.found, hcut.isSep, hge, by omega⟩
  | returned out => trivial
  | failed f => trivial

/-- A turn of the counting loop. -/
theorem Invariant.next_counting
    {i : UInt32} {count : Nat} (hlen : s.length < 2 ^ 32)
    (ht : Invariant s sep (.counting i count))
    (h : next s sep (.counting i count) = some u) :
    Invariant s sep u ∧ turnsLeft s sep u < turnsLeft s sep (.counting i count) := by
  obtain ⟨hle, hcount⟩ := ht
  by_cases hlt : i.toNat < s.length
  · obtain rfl : Tokenizing.counting (i + 1) _ = u :=
      Option.some.inj ((if_pos hlt).symm.trans h)
    have hnext := toNat_add_one hlen hlt
    refine ⟨⟨hnext.trans_le hlt, ?_⟩, ?_⟩
    · rw [hnext, List.take_add_one, List.count_append, ← hcount,
        List.getElem?_eq_getElem hlt]
      by_cases hsep : s[i.toNat] = sep
      · simp [hsep]
      · simp [hsep]
    · simp only [turnsLeft, hnext]
      omega
  · obtain rfl : counted s count = u := Option.some.inj ((if_neg hlt).symm.trans h)
    have hall : count = s.count sep := by
      rw [hcount, List.take_of_length_le (by omega)]
    subst hall
    have hturns := turnsLeft_counted s sep (s.count sep)
    refine ⟨invariant_counted s sep, ?_⟩
    rw [turnsLeft]
    omega

/-- A turn of the cutting loop. -/
theorem Invariant.next_cutting
    {count cursor remains : Nat} {out : List Place} (hlen : s.length < 2 ^ 32)
    (ht : Invariant s sep (.cutting count cursor remains out))
    (h : next s sep (.cutting count cursor remains out) = some u) :
    Invariant s sep u ∧
      turnsLeft s sep u < turnsLeft s sep (.cutting count cursor remains out) := by
  obtain ⟨hfit, hcount, hout, hparts⟩ := ht
  obtain rfl : remains = s.length - cursor := by omega
  cases count with
  | zero =>
      obtain rfl := Option.some.inj h
      refine ⟨⟨?_, ?_⟩, Nat.zero_lt_succ 0⟩
      · exact List.forall_mem_append.mpr ⟨hout, List.forall_mem_singleton.mpr hfit.le⟩
      · rw [← hparts, List.splitOn_eq_singleton (List.count_eq_zero.mp hcount),
          List.map_append, List.map_singleton, Place.bytes,
          List.take_of_length_le (by simp)]
  | succ count =>
      obtain ⟨stop, hcut⟩ := exists_cutAt sep hcount
      have hge := hcut.ge
      have hlt := hcut.lt
      simp only [next, hcut.found, Option.some.injEq, hcut.remains hlen] at h
      subst h
      refine ⟨⟨by omega, hcut.count, ?_, ?_⟩, Nat.lt_succ_self _⟩
      · have hplace : (⟨cursor, stop - cursor⟩ : Place).Inside s := by
          show cursor + (stop - cursor) ≤ s.length
          omega
        exact List.forall_mem_append.mpr ⟨hout, List.forall_mem_singleton.mpr hplace⟩
      · rw [← hparts, hcut.splitOn, List.map_append, List.append_assoc]
        rfl

/-- Every turn keeps the invariant, and leaves fewer turns. -/
theorem Invariant.step {p : Place} (hlen : s.length < 2 ^ 32) (ht : Invariant s sep t)
    (h : (execution s sep).step t p u) :
    Invariant s sep u ∧ turnsLeft s sep u < turnsLeft s sep t := by
  cases t with
  | counting i count => exact ht.next_counting hlen h.2
  | cutting count cursor remains out => exact ht.next_cutting hlen h.2
  | returned out => exact absurd h.2 nofun
  | failed f => exact absurd ht id

/-- Only an execution at its end cannot go on. -/
theorem Invariant.returned_of_next (ht : Invariant s sep t) (hnext : t.next s sep = none) :
    ∃ places, t = .returned places := by
  cases t with
  | counting i count =>
      rw [next] at hnext
      split_ifs at hnext
  | cutting count cursor remains out =>
      cases count with
      | zero => exact absurd hnext nofun
      | succ count =>
          obtain ⟨stop, hfind, -⟩ := ht.finds
          simp [next, hfind] at hnext
  | returned out => exact ⟨out, rfl⟩
  | failed f => exact absurd ht id

/-- Every execution on a string that the 32-bit index can scan is sound. -/
theorem sound_of_run {reads : List Place} (hlen : s.length < 2 ^ 32)
    (hrun : Run (execution s sep) start reads t) :
    Sound s sep (s.splitOn sep) reads t := by
  have hstart := invariant_start s sep
  have ht : Invariant s sep t :=
    hrun.invariant (fun _ _ _ hs h => (hs.step hlen h).1) hstart
  have hbound : reads.length + turnsLeft s sep t ≤ turnsLeft s sep start :=
    hrun.length_le (fun _ _ _ hs h => hs.step hlen h) hstart
  refine ⟨?_, ht.finds, (Nat.le_add_right _ _).trans hbound, ?_⟩
  · refine hrun.labels (I := Invariant s sep) ?_ hstart
    intro t p u ht h
    exact ⟨(ht.step hlen h).1, h.1 ▸ ht.inside⟩
  · intro hnext
    obtain ⟨places, rfl⟩ := ht.returned_of_next hnext
    exact ⟨places, rfl, ht.1, ht.2⟩

end Invariant

/-- On strings that the 32-bit index can scan, `tokenize` returns the tokens that its loops
run to, and they are the parts of the string between the separators. -/
theorem tokenize_spec {r : StrRef} (sep : Byte) (hlen : r.len < 2 ^ 32) :
    ∃ tokens, tokenize r sep = .ok tokens ∧
      tokens.map StrRef.str = r.str.splitOn sep ∧
      ∃ reads places, Run (execution r.str sep) start reads (.returned places) := by
  have hreturns : ∃ tokens, tokenize r sep = .ok tokens := by
    match r with
    | ⟨none⟩ => exact ⟨[⟨none⟩], by simp [tokenize, countSep, StrRef.str]⟩
    | ⟨some s⟩ => exact ⟨_, tokenize_of sep hlen⟩
  obtain ⟨tokens, htokens⟩ := hreturns
  obtain ⟨reads, places, hrun, htexts⟩ := run_of_tokenize htokens
  obtain ⟨_, hplaces, -, hparts⟩ := (sound_of_run hlen hrun).returns rfl
  obtain rfl := returned.inj hplaces
  exact ⟨tokens, htokens, htexts.trans hparts, reads, places, hrun⟩

end Tokenizing

end Util

end Goofy
