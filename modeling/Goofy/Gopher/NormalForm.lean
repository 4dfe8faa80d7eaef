import Goofy.Gopher.Request

/-!
# The normal form of paths

`as_path` drops the first token of a line, empty tokens and the slashes around
them.  What it returns has no slash to spare, and it is read back unchanged from
every line that consists of a first token and the path, however many slashes are
added to that line.
-/

namespace Goofy
namespace Gopher

open Delimited Util

/-- A path without spare slashes and without dots. -/
structure NormalPath (p : Bytes) : Prop where
  leading : p.head? ≠ some SLASH
  trailing : p.getLast? ≠ some SLASH
  doubled : ¬ [SLASH, SLASH] <:+: p
  dots : ∀ c ∈ p.splitOn SLASH, c ≠ lit "." ∧ c ≠ lit ".."

theorem isDots_eq_true_iff (c : Bytes) :
    isDots c = true ↔ c = lit "." ∨ c = lit ".." := by
  simp only [isDots, Bool.or_eq_true, beq_iff_eq]
  exact or_comm

/-- Components that are joined by single slashes make a normal path. -/
theorem normalPath_intercalate {cs : List Bytes}
    (hcs : ∀ c ∈ cs, c ≠ [] ∧ SLASH ∉ c)
    (hdots : ∀ c ∈ cs, isDots c = false) :
    NormalPath ([SLASH].intercalate cs) := by
  by_cases hnil : cs = []
  · subst hnil
    exact ⟨by simp, by simp, by simp, by decide⟩
  · have hsplit : ([SLASH].intercalate cs).splitOn SLASH = cs :=
      List.splitOn_intercalate SLASH (fun c hc => (hcs c hc).2) hnil
    have hparts : [] ∉ ([SLASH].intercalate cs).splitOn SLASH := by
      rw [hsplit]
      exact fun h => (hcs [] h).1 rfl
    obtain ⟨hlead, htrail, hdouble⟩ := separators_of_nil_not_mem_splitOn hparts
    refine ⟨hlead, htrail, hdouble, ?_⟩
    intro c hc
    rw [hsplit] at hc
    have hc : ¬ isDots c = true := by
      simp [hdots c hc]
    rw [isDots_eq_true_iff] at hc
    exact not_or.mp hc

namespace Request

/-- The tokens behind the first one. -/
def laterTokens (r : Request) : List Bytes :=
  (r.rawBody.splitOn SLASH).tail

/-- Some token behind the first one is `.` or `..`. -/
def HasDots (r : Request) : Prop :=
  ∃ c ∈ r.laterTokens, c = lit "." ∨ c = lit ".."

/-- `p` is the path below the first token: its components are the tokens, and it
is the path of every line made of a first token, `p` and further slashes. -/
structure PathBelow (r : Request) (p : Bytes) : Prop where
  normal : NormalPath p
  components : pieces SLASH p = r.laterTokens.filter (fun c => !c.isEmpty)
  fixed : ∀ s line : Bytes, s ≠ [] → SLASH ∉ s →
    (⟨s ++ SLASH :: p⟩ : Request).isUrl = false →
    Padded SLASH (s ++ SLASH :: p) line → line.length < 2 ^ 32 →
    (⟨line⟩ : Request).asPath = .ok p

/-- Empty tokens have no dots. -/
theorem hasDots_iff (r : Request) :
    r.HasDots ↔ r.below.any isDots = true := by
  rw [List.any_eq_true]
  constructor
  · rintro ⟨c, hc, hdots⟩
    have hne : c ≠ [] := by
      rcases hdots with rfl | rfl <;> decide
    exact ⟨c, List.mem_filter.mpr ⟨hc, by simpa using hne⟩, (isDots_eq_true_iff c).mpr hdots⟩
  · rintro ⟨c, hc, hdots⟩
    exact ⟨c, (List.mem_filter.mp hc).1, (isDots_eq_true_iff c).mp hdots⟩

/-- Whether a line is a URL request is decided before its first slash. -/
theorem isUrl_append_slash (s t : Bytes) :
    (⟨s ++ SLASH :: t⟩ : Request).isUrl = (⟨s⟩ : Request).isUrl := by
  rw [Bool.eq_iff_iff, isUrl_iff, isUrl_iff]
  exact prefix_append_cons_iff (by decide) s t

/-- A checked path is read back behind every first token. -/
theorem asPath_padded
    {r : Request} (hdots : ∀ c ∈ r.below, isDots c = false)
    {s line : Bytes} (hs : SLASH ∉ s)
    (hurl : (⟨s ++ SLASH :: [SLASH].intercalate r.below⟩ : Request).isUrl = false)
    (hline : Padded SLASH (s ++ SLASH :: [SLASH].intercalate r.below) line)
    (hlen : line.length < 2 ^ 32) :
    (⟨line⟩ : Request).asPath = .ok ([SLASH].intercalate r.below) := by
  obtain ⟨t, rfl, ht⟩ := hline.exists_pieces hs
  have hurl' : (⟨s ++ SLASH :: t⟩ : Request).isUrl = false := by
    rw [isUrl_append_slash] at hurl ⊢
    exact hurl
  have hbelow : (⟨s ++ SLASH :: t⟩ : Request).below = r.below := by
    rw [below_append_cons hs, ht, pieces_intercalate_below]
  rw [asPath_eq_ok_iff hurl', hbelow]
  exact ⟨hlen, hdots, rfl⟩

/-- `as_path` refuses exactly the lines with dots behind the first token, and
returns the normal path below that token for the others. -/
theorem asPath_normal_form
    (r : Request)
    (hurl : r.isUrl = false)
    (hlen : r.rawBody.length < 2 ^ 32) :
    (r.asPath = .error (.exn (.badRequest r.rawBody (lit "invalid path"))) ↔ r.HasDots) ∧
      (¬ r.HasDots → ∃ p, r.asPath = .ok p ∧ r.PathBelow p) := by
  rw [asPath_eq hurl hlen, hasDots_iff]
  constructor
  · constructor
    · intro h
      by_contra hdots
      simp [hdots] at h
    · exact fun hdots => if_pos hdots
  · intro hnone
    have hdots : ∀ c ∈ r.below, isDots c = false := by
      simpa using hnone
    refine ⟨[SLASH].intercalate r.below, if_neg hnone, ?_⟩
    exact {
      normal := normalPath_intercalate (fun c hc => mem_below hc) hdots
      components := pieces_intercalate_below r
      fixed := fun s line _ hs hurl hline hlen => asPath_padded hdots hs hurl hline hlen }

/-- The path `a/b` of the line `docs//a/b/`. -/
theorem asPath_normal_form_docs :
    ((⟨lit "docs//a/b/"⟩ : Request).asPath =
          .error (.exn (.badRequest (lit "docs//a/b/") (lit "invalid path")))
        ↔ (⟨lit "docs//a/b/"⟩ : Request).HasDots) ∧
      (¬ (⟨lit "docs//a/b/"⟩ : Request).HasDots →
        ∃ p, (⟨lit "docs//a/b/"⟩ : Request).asPath = .ok p ∧
          (⟨lit "docs//a/b/"⟩ : Request).PathBelow p) :=
  asPath_normal_form ⟨lit "docs//a/b/"⟩ (by decide) (by decide)

end Request

end Gopher
end Goofy
