import Goofy.Gopher.NodeRedirect
import Goofy.Lib.Substitution

/-!
# The page of the redirector

The redirector replaces the keyword of its template by the URL of the client, one
occurrence after the other and each time from the beginning.  This is the
substitution of the URL for every keyword of the template as long as the URL does not
hold the keyword; a URL that does is replaced for ever.
-/

namespace Goofy
namespace Gopher

open Effect Substitution

namespace NodeRedirect

/-- The loop replaces first occurrences. -/
theorem replaceFirst_eq (needle word s : Bytes) :
    replaceFirst needle word s =
      (find needle s).map (fun next => s.take next ++ word ++ s.drop (next + needle.length)) := by
  induction s with
  | nil =>
      rw [replaceFirst, find]
      split_ifs <;> simp
  | cons b s ih =>
      rw [replaceFirst, find]
      split_ifs with hstarts
      · simp
      · rw [ih, Option.map_map, Option.map_map]
        congr 1
        funext next
        simp [Nat.add_right_comm]

theorem replaceKeyword_eq (url : Bytes) (rounds : Nat) (page : Bytes) :
    replaceKeyword url rounds page =
      match replaceLoop keyword url rounds page with
      | none => .error .hang
      | some page' => .ok page' := by
  induction rounds generalizing page with
  | zero => rfl
  | succ rounds ih =>
      rw [replaceKeyword, replaceLoop, replaceFirst_eq]
      cases find keyword page with
      | none => rfl
      | some next => exact ih _

/-- The template before its first keyword. -/
def beginning : Bytes :=
  (text.splitOn 36).headD []

/-- What follows each keyword of the template. -/
def segments : List Bytes :=
  (text.splitOn 36).tail.map (fun piece => piece.drop 5)

/-- The quotes, brackets and blanks around a keyword are none of its bytes.  All that
is to be computed about the template is here, so that it is evaluated once. -/
theorem text_spec :
    (text = beginning ++ segments.flatMap (keyword ++ ·) ∧
        segments ≠ [] ∧ segments.length < text.length + 1) ∧
      ∀ seg ∈ beginning :: segments, 36 ∉ seg ∧
        (∃ b ∈ seg.head?, b ∉ keyword) ∧ (∃ b ∈ seg.getLast?, b ∉ keyword) := by
  decide +kernel

theorem text_eq : text = beginning ++ segments.flatMap (keyword ++ ·) :=
  text_spec.1.1

theorem segment_of_mem {seg : Bytes} (h : seg ∈ beginning :: segments) :
    Segment keyword seg := by
  obtain ⟨hdollar, hhead, hlast⟩ := text_spec.2 seg h
  exact Segment.of_not_mem hdollar hhead hlast

/-- The template with the URL for every keyword. -/
theorem substitute_text (url : Bytes) :
    substitute keyword url text = beginning ++ segments.flatMap (url ++ ·) := by
  rw [text_eq]
  exact substitute_segments
    (fun seg hseg => (text_spec.2 seg (by simp [hseg])).1)
    (text_spec.2 beginning (by simp)).1 url

theorem replaceKeyword_text
    {url : Bytes} (hurl : ¬ keyword <:+: url)
    {rounds : Nat} (hrounds : segments.length < rounds) :
    replaceKeyword url rounds text = .ok (substitute keyword url text) := by
  have hdollar : (36 : Byte) ∉ lit "\x7bURL\x7d" := by
    decide
  have hloop := replaceLoop_segments hdollar hurl
    (fun seg hseg => segment_of_mem (List.mem_cons_of_mem _ hseg))
    (segment_of_mem (List.mem_cons_self ..)) hrounds
  have htext : replaceLoop keyword url rounds text =
      some (beginning ++ segments.flatMap (url ++ ·)) := by
    rw [text_eq]
    exact hloop
  rw [replaceKeyword_eq, htext, substitute_text]

/-- A URL that holds the keyword brings it back in every round. -/
theorem replaceKeyword_hang
    {url : Bytes} (hurl : keyword <:+: url) (rounds : Nat) :
    replaceKeyword url rounds text = .error .hang := by
  have htext : keyword <:+: text := by
    obtain ⟨seg, segs, hsegs⟩ := List.exists_cons_of_ne_nil text_spec.1.2.1
    rw [text_eq, hsegs]
    exact ⟨beginning, seg ++ segs.flatMap (keyword ++ ·), by simp⟩
  rw [replaceKeyword_eq, replaceLoop_eq_none hurl htext]

/-- The loop ends, and the page is the template with the URL for every keyword. -/
def Redirects (n : NodeRedirect) (r : Request) : Prop :=
  (∃ rounds, replaceKeyword r.url rounds text = .ok (substitute keyword r.url text)) ∧
    ∀ (ω : Type) (w : ω), Prog.exec (n.makeWriter r) w =
      (.ok (.bytes (({} : BytesWriter).appendString (substitute keyword r.url text))), w)

/-- The URL of a request that is one. -/
theorem url_of_append (url : Bytes) :
    (⟨lit "URL:" ++ url⟩ : Request).url = url := by
  have hurl : (⟨lit "URL:" ++ url⟩ : Request).isUrl = true :=
    (Request.isUrl_iff _).mpr (List.prefix_append _ _)
  rw [Request.url, if_pos hurl, Request.first, if_pos hurl]
  rfl

end NodeRedirect

/-- Exactly the URLs that hold the keyword of the template are not redirected. -/
theorem redirects_iff (n : NodeRedirect) (url : Bytes) :
    n.Redirects ⟨lit "URL:" ++ url⟩ ↔ ¬ NodeRedirect.keyword <:+: url := by
  rw [NodeRedirect.Redirects, NodeRedirect.url_of_append]
  constructor
  · rintro ⟨⟨rounds, hrounds⟩, -⟩ hurl
    rw [NodeRedirect.replaceKeyword_hang hurl] at hrounds
    simp at hrounds
  · intro hurl
    have hpage := NodeRedirect.replaceKeyword_text hurl NodeRedirect.text_spec.1.2.2
    refine ⟨⟨_, hpage⟩, ?_⟩
    intro ω w
    rw [NodeRedirect.makeWriter, NodeRedirect.url_of_append, hpage, Prog.lift_ok_bind]
    rfl

/-- The URL that is the keyword: no number of rounds makes a page. -/
theorem keyword_redirected_for_ever :
    ¬ ∃ rounds page, NodeRedirect.replaceKeyword
        (⟨lit "URL:$\x7bURL\x7d"⟩ : Request).url rounds NodeRedirect.text = .ok page := by
  rintro ⟨rounds, page, hpage⟩
  rw [NodeRedirect.replaceKeyword_hang (by decide)] at hpage
  simp at hpage

end Gopher
end Goofy
