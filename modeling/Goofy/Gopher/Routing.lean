import Goofy.Gopher.Map

/-!
# Routing

Where a request goes, and which path it takes along.  `selector` skips leading
slashes and takes the first component; `asPath` drops the first token, which is
empty on a line that starts with a slash.  So the two cut a line at the same
place exactly when no slash leads it, or when it has no component at all
(`selector_asPath_iff`).
-/

namespace Goofy
namespace Gopher

open Delimited Effect

namespace Request

/-- The line without its leading slashes. -/
def unslashed (r : Request) : Request :=
  ⟨r.rawBody.dropWhile (fun b => b == SLASH)⟩

/-- Nothing is dropped from a text that no slash leads. -/
theorem dropWhile_slash_of_head {s : Bytes} (h : s.head? ≠ some SLASH) :
    s.dropWhile (fun b => b == SLASH) = s := by
  cases s with
  | nil => rfl
  | cons b s =>
      have hb : b ≠ SLASH := by simpa using h
      simp [hb]

/-- The components of a line are its first token, if not empty, and those below. -/
theorem pieces_eq (r : Request) :
    pieces SLASH r.rawBody =
      (if (r.rawBody.splitOn SLASH).headD [] = [] then []
        else [(r.rawBody.splitOn SLASH).headD []]) ++ r.below := by
  rw [pieces, below]
  cases hsplit : r.rawBody.splitOn SLASH with
  | nil => rfl
  | cons token tokens =>
      by_cases hnil : token = []
      · simp [hnil]
      · simp [hnil]

/-- On a line that no slash leads, the first token is the selector. -/
theorem headD_splitOn_of_head {r : Request}
    (hurl : r.isUrl = false) (hhead : r.rawBody.head? ≠ some SLASH) :
    (r.rawBody.splitOn SLASH).headD [] = r.selector := by
  rw [selector_eq hurl, dropWhile_slash_of_head hhead]
  by_cases hmem : SLASH ∈ r.rawBody
  · obtain ⟨a, b, hab, ha⟩ := List.eq_append_cons_of_mem hmem
    have hall : ∀ c ∈ a, (c != SLASH) = true := by
      intro c hc
      have hne : c ≠ SLASH := fun h => ha (h ▸ hc)
      simpa using hne
    rw [hab, List.splitOn_append_cons_self_of_not_mem ha, List.takeWhile_append_of_pos hall]
    simp
  · have hall : ∀ c ∈ r.rawBody, (c != SLASH) = true := by
      intro c hc
      have hne : c ≠ SLASH := fun h => hmem (h ▸ hc)
      simpa using hne
    rw [List.splitOn_eq_singleton hmem, List.takeWhile_eq_self_iff.mpr hall]
    rfl

/-- The first token of a line that a slash leads is empty. -/
theorem headD_splitOn_of_slash {r : Request} (hhead : r.rawBody.head? = some SLASH) :
    (r.rawBody.splitOn SLASH).headD [] = [] := by
  cases hbody : r.rawBody with
  | nil => rfl
  | cons b s =>
      rw [hbody] at hhead
      have hb : b = SLASH := by simpa using hhead
      rw [hb]
      simp

/-- A line without components selects nothing. -/
theorem selector_of_pieces_nil {r : Request}
    (hurl : r.isUrl = false) (hnil : pieces SLASH r.rawBody = []) :
    r.selector = [] ∧ r.unslashed.rawBody = [] := by
  have hall : ∀ s : Bytes, pieces SLASH s = [] → s.dropWhile (fun b => b == SLASH) = [] := by
    intro s
    induction s with
    | nil => simp
    | cons b s ih =>
        intro hs
        by_cases hb : b = SLASH
        · rw [hb, pieces_cons_self] at hs
          simp [hb, ih hs]
        · by_cases hmem : SLASH ∈ b :: s
          · obtain ⟨x, y, hxy, hx⟩ := List.eq_append_cons_of_mem hmem
            have hne : x ≠ [] := by
              rintro rfl
              simp at hxy
              exact hb hxy.1
            rw [hxy, pieces_append_cons, pieces_of_not_mem hx hne] at hs
            simp at hs
          · rw [pieces_of_not_mem hmem (by simp)] at hs
            simp at hs
  refine ⟨?_, hall _ hnil⟩
  rw [selector_eq hurl, hall _ hnil]
  rfl

/-- A line that selects nothing is made of slashes. -/
theorem pieces_eq_nil_of_selector {r : Request}
    (hurl : r.isUrl = false) (hselector : r.selector = []) :
    pieces SLASH r.rawBody = [] := by
  have hdrop : r.rawBody.dropWhile (fun b => b == SLASH) = [] := by
    rw [selector_eq hurl] at hselector
    cases hcase : r.rawBody.dropWhile (fun b => b == SLASH) with
    | nil => rfl
    | cons b s =>
        have hb : b ≠ SLASH := by
          have hfirst := List.head?_dropWhile_not (fun b => b == SLASH) r.rawBody
          rw [hcase] at hfirst
          simpa using hfirst
        rw [hcase] at hselector
        simp [hb] at hselector
  have hreplicate : r.rawBody = List.replicate r.rawBody.length SLASH := by
    rw [List.eq_replicate_iff]
    refine ⟨rfl, fun b hb => ?_⟩
    have := List.dropWhile_eq_nil_iff.mp hdrop b hb
    simpa using this
  have hslashes : pieces SLASH (List.replicate r.rawBody.length SLASH ++ []) =
      pieces SLASH [] :=
    pieces_replicate_append _ _
  rw [hreplicate]
  simpa using hslashes

end Request

/-- `selector` and `as_path` cut a line at the same place, and the line means the
same without its leading slashes, exactly when no slash leads it or when it has
no component. -/
theorem selector_asPath_iff
    (lm : LookupMap) (r : Request) (p : Bytes)
    (hurl : r.isUrl = false)
    (hp : r.asPath = .ok p) :
    (pieces SLASH r.rawBody =
          (if r.selector = [] then [] else [r.selector]) ++ pieces SLASH p ∧
        lm.lookup r.unslashed = lm.lookup r ∧
        r.unslashed.asPath = .ok p)
      ↔
    r.rawBody.head? ≠ some SLASH ∨ pieces SLASH r.rawBody = [] := by
  obtain ⟨hlen, hdots, hpath⟩ := (Request.asPath_eq_ok_iff hurl p).mp hp
  have hbelow : pieces SLASH p = r.below := by
    rw [hpath, Request.pieces_intercalate_below]
  have hpieces := r.pieces_eq
  constructor
  · rintro ⟨heq, -, -⟩
    by_contra hcond
    obtain ⟨hslash, hne⟩ := not_or.mp hcond
    have hhead : r.rawBody.head? = some SLASH := not_not.mp hslash
    -- The first token is empty, so the path holds every component of the line.
    rw [Request.headD_splitOn_of_slash hhead, if_pos rfl, List.nil_append] at hpieces
    rw [hbelow, ← hpieces] at heq
    have hselector : r.selector = [] := by
      by_contra hsel
      rw [if_neg hsel] at heq
      have := congrArg List.length heq
      simp at this
    exact hne (Request.pieces_eq_nil_of_selector hurl hselector)
  · rintro (hhead | hnil)
    · have hsame : r.unslashed = r := by
        rw [Request.unslashed, Request.dropWhile_slash_of_head hhead]
      rw [hsame]
      refine ⟨?_, rfl, hp⟩
      rw [hpieces, Request.headD_splitOn_of_head hurl hhead, hbelow]
    · obtain ⟨hselector, hempty⟩ := Request.selector_of_pieces_nil hurl hnil
      have hbelowNil : r.below = [] := by
        rw [hnil] at hpieces
        exact (List.append_eq_nil_iff.mp hpieces.symm).2
      have hp' : p = [] := by
        rw [hpath, hbelowNil]
        rfl
      have hreq : r.unslashed = ⟨[]⟩ := by
        rw [← hempty]
      refine ⟨?_, ?_, ?_⟩
      · rw [hbelow, hnil, hbelowNil, hselector]
        rfl
      · rw [hreq]
        refine lm.lookup_congr (by decide) hurl ?_
        rw [hselector]
        decide
      · rw [hreq, hp']
        decide

/-- Repeated slashes behind the selector do no harm. -/
theorem selector_asPath_doubled :
    pieces SLASH (lit "1//foo") = [lit "1", lit "foo"] ∧
      (⟨lit "1//foo"⟩ : Request).asPath = .ok (lit "foo") := by
  have hp : (⟨lit "1//foo"⟩ : Request).asPath = .ok (lit "foo") := by
    decide
  have hiff := selector_asPath_iff
    ⟨{}, ⟨⟨⟨104, lit "URL resolver", lit "URL:", lit "localhost", 70⟩, by decide⟩⟩, ∅⟩
    ⟨lit "1//foo"⟩ (lit "foo") (by decide) hp
  have heq := (hiff.mpr (Or.inl (by decide))).1
  exact ⟨heq.trans (by decide), hp⟩

/-- The line `/1/foo` selects the node `1` and then asks it for `1/foo`. -/
theorem selector_asPath_leading :
    (⟨lit "/1/foo"⟩ : Request).isUrl = false ∧
      (⟨lit "/1/foo"⟩ : Request).asPath = .ok (lit "1/foo") ∧
      (⟨lit "1/foo"⟩ : Request).asPath = .ok (lit "foo") ∧
      pieces SLASH (lit "/1/foo") = [lit "1", lit "foo"] ∧
      pieces SLASH (lit "/1/foo") ≠
        (⟨lit "/1/foo"⟩ : Request).selector :: pieces SLASH (lit "1/foo") := by
  decide

end Gopher
end Goofy
