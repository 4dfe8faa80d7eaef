import Goofy.Util.Str

/-!
# Requests

`gopher/request.h` and `gopher/request.cc`.  A request is one line; its other
members are computed from the line by the constructor.  Two functions take the
line apart: `selector` skips leading slashes and stops at the next one, while
`query` cuts the whole line at its slashes and drops the first token.
-/

namespace Goofy
namespace Gopher

open Delimited Util

/-- A client's request; `rawBody` is the line as the reader delivered it. -/
structure Request where
  rawBody : Bytes
deriving DecidableEq

/-- Is the path component `.` or `..`? -/
def isDots (c : Bytes) : Bool :=
  c == lit ".." || c == lit "."

theorem slash_not_mem_toDecimal (k : Nat) : SLASH ∉ toDecimal k :=
  Decimal.not_mem_encode (by decide)

namespace Request

def isUrl (r : Request) : Bool :=
  find (lit "URL:") r.rawBody == some 0

def separator (r : Request) : Byte :=
  if r.isUrl then COLON else SLASH

/-- Where the selector starts; `none` is `npos`. -/
def first (r : Request) : Option Nat :=
  if r.isUrl then some (lit "URL:").length
  else r.rawBody.findIdx? (fun b => b != r.separator)

def selector (r : Request) : Bytes :=
  match r.first with
  | none => []
  | some first =>
      if r.isUrl then lit "URL:"
      else (r.rawBody.drop first).takeWhile (fun b => b != r.separator)

def url (r : Request) : Bytes :=
  if r.isUrl then r.rawBody.drop (r.first.getD 0) else []

def query (r : Request) : Except Fail (List StrRef) :=
  if r.isUrl then .ok []
  else (tokenize (.of r.rawBody) r.separator).map List.tail

/-- The loop of `as_path` over the tokens of the query. -/
def joinTokens (r : Request) : List StrRef → Bytes → Except Fail Bytes
  | [], out => .ok out
  | tok :: toks, out =>
      if tok.len = 0 then joinTokens r toks out
      else if isDots tok.str then
        .error (.exn (.badRequest r.rawBody (lit "invalid path")))
      else joinTokens r toks (out ++ tok.str ++ [SLASH])

def asPath (r : Request) : Except Fail Bytes :=
  if r.isUrl then .ok []
  else
    match r.query with
    | .error f => .error f
    | .ok tokens => (joinTokens r tokens []).map List.dropLast

/-- The assertion of the constructor: an empty line has no selector. -/
theorem first_of_nil : (⟨[]⟩ : Request).first = none := by
  decide

theorem isUrl_iff (r : Request) :
    r.isUrl = true ↔ lit "URL:" <+: r.rawBody := by
  rw [isUrl, beq_iff_eq, find_eq_zero_iff]

/-- A line whose first byte is not `U` is no URL request. -/
theorem isUrl_eq_false_of_head {r : Request}
    (h : r.rawBody.head? ≠ some 85) : r.isUrl = false := by
  rw [Bool.eq_false_iff]
  intro hurl
  obtain ⟨rest, hrest⟩ := (isUrl_iff r).mp hurl
  apply h
  rw [← hrest]
  rfl

/-- A text that starts with a decimal number is no URL request. -/
theorem isUrl_of_toDecimal (k : Nat) (rest : Bytes) :
    (⟨toDecimal k ++ rest⟩ : Request).isUrl = false := by
  apply isUrl_eq_false_of_head
  cases hk : toDecimal k with
  | nil => exact absurd hk (Decimal.encode_ne_nil k)
  | cons b bs =>
      have hb : b ∈ Decimal.encode k := by
        rw [show Decimal.encode k = b :: bs from hk]
        simp
      have hdigit := Decimal.isDigit_of_mem_encode hb
      intro h
      have hU : b = 85 := by simpa using h
      rw [hU] at hdigit
      exact absurd hdigit (by decide)

/-- The components of a line below its first token. -/
def below (r : Request) : List Bytes :=
  ((r.rawBody.splitOn SLASH).tail).filter (fun c => !c.isEmpty)

theorem mem_below {r : Request} {c : Bytes} (hc : c ∈ r.below) :
    c ≠ [] ∧ SLASH ∉ c := by
  obtain ⟨hmem, hne⟩ := List.mem_filter.mp hc
  exact ⟨by simpa using hne,
    not_mem_of_mem_splitOn SLASH (List.mem_of_mem_tail hmem)⟩

theorem below_append_cons {a : Bytes} (ha : SLASH ∉ a) (b : Bytes) :
    (⟨a ++ SLASH :: b⟩ : Request).below = pieces SLASH b := by
  simp [below, pieces, List.splitOn_append_cons_self_of_not_mem ha]

/-- The loop of `as_path` appends every component with a slash behind it. -/
theorem joinTokens_eq (r : Request) (toks : List Bytes) (out : Bytes) :
    joinTokens r (toks.map StrRef.of) out =
      if (toks.filter (fun c => !c.isEmpty)).any isDots then
        .error (.exn (.badRequest r.rawBody (lit "invalid path")))
      else
        .ok (out ++ (toks.filter (fun c => !c.isEmpty)).flatMap
          (fun c => c ++ [SLASH])) := by
  induction toks generalizing out with
  | nil => simp [joinTokens]
  | cons tok toks ih =>
      rw [List.map_cons, joinTokens, StrRef.len_of, StrRef.str_of]
      by_cases hnil : tok = []
      · simp [hnil, ih]
      · have hlen : tok.length ≠ 0 := by simpa using hnil
        have hkeep : (tok :: toks).filter (fun c => !c.isEmpty) =
            tok :: toks.filter (fun c => !c.isEmpty) := by
          simp [hnil]
        rw [if_neg hlen, hkeep, List.any_cons, ih]
        by_cases hdots : isDots tok = true
        · simp [hdots]
        · simp [hdots]

/-- Dropping the last slash turns the loop's output into a joined path. -/
theorem dropLast_flatMap_slash (cs : List Bytes) :
    (cs.flatMap (fun c => c ++ [SLASH])).dropLast = [SLASH].intercalate cs := by
  induction cs with
  | nil => rfl
  | cons c cs ih =>
      cases cs with
      | nil => simp
      | cons d ds =>
          have hne : (d :: ds).flatMap (fun c => c ++ [SLASH]) ≠ [] := by
            simp
          rw [List.flatMap_cons, List.dropLast_append_of_ne_nil hne, ih]
          simp

/-- What `as_path` computes on the lines that the reader delivers. -/
theorem asPath_eq {r : Request}
    (hurl : r.isUrl = false)
    (hlen : r.rawBody.length < 2 ^ 32) :
    r.asPath =
      if r.below.any isDots then
        .error (.exn (.badRequest r.rawBody (lit "invalid path")))
      else .ok ([SLASH].intercalate r.below) := by
  have hquery : r.query =
      .ok ((r.rawBody.splitOn SLASH).tail.map StrRef.of) := by
    simp only [query, separator, hurl, Bool.false_eq_true, if_false,
      tokenize_of SLASH hlen]
    simp [Except.map]
  simp only [asPath, hurl, hquery, Bool.false_eq_true, if_false, joinTokens_eq]
  by_cases hdots : r.below.any isDots = true
  · have hdots' := hdots
    rw [below] at hdots'
    simp [hdots, hdots', Except.map]
  · have hdots' := hdots
    rw [below] at hdots'
    simp [hdots', Except.map, ← dropLast_flatMap_slash, below]

/-- On a longer line `as_path` never returns. -/
theorem asPath_hang {r : Request}
    (hurl : r.isUrl = false)
    (hlen : 2 ^ 32 ≤ r.rawBody.length) :
    r.asPath = .error .hang := by
  have hquery : r.query = .error .hang := by
    simp only [query, separator, hurl, Bool.false_eq_true, if_false,
      tokenize_hang SLASH hlen]
    rfl
  simp only [asPath, hurl, hquery, Bool.false_eq_true, if_false]

/-- A path that `as_path` returns is the joined line below its first token. -/
theorem asPath_eq_ok_iff {r : Request} (hurl : r.isUrl = false) (p : Bytes) :
    r.asPath = .ok p
      ↔
    r.rawBody.length < 2 ^ 32 ∧
      (∀ c ∈ r.below, isDots c = false) ∧
      p = [SLASH].intercalate r.below := by
  by_cases hlen : r.rawBody.length < 2 ^ 32
  · rw [asPath_eq hurl hlen]
    by_cases hdots : r.below.any isDots = true
    · rw [if_pos hdots]
      obtain ⟨c, hc, hcdots⟩ := List.any_eq_true.mp hdots
      constructor
      · intro h
        simp at h
      · rintro ⟨-, hall, -⟩
        rw [hall c hc] at hcdots
        exact Bool.noConfusion hcdots
    · have hall : ∀ c ∈ r.below, isDots c = false := by
        simpa using hdots
      rw [if_neg hdots]
      constructor
      · intro h
        exact ⟨hlen, hall, (Except.ok.inj h).symm⟩
      · rintro ⟨-, -, rfl⟩
        rfl
  · rw [asPath_hang hurl (by omega)]
    constructor
    · intro h
      simp at h
    · rintro ⟨hshort, -⟩
      exact absurd hshort hlen

/-- The components of a returned path are those of the line below its first token. -/
theorem pieces_intercalate_below (r : Request) :
    pieces SLASH ([SLASH].intercalate r.below) = r.below :=
  pieces_intercalate (fun _ hc => mem_below hc)

/-- A selector stops at the first slash behind the leading ones. -/
theorem selector_eq {r : Request} (hurl : r.isUrl = false) :
    r.selector =
      (r.rawBody.dropWhile (fun b => b == SLASH)).takeWhile (fun b => b != SLASH) := by
  have hdrop : ∀ s : Bytes, (∀ i, s.findIdx? (fun b => b != SLASH) = some i →
        s.drop i = s.dropWhile (fun b => b == SLASH)) ∧
      (s.findIdx? (fun b => b != SLASH) = none →
        s.dropWhile (fun b => b == SLASH) = []) := by
    intro s
    induction s with
    | nil => simp
    | cons b s ih =>
        by_cases hb : b = SLASH
        · subst hb
          constructor
          · intro i hi
            cases hs : s.findIdx? (fun b => b != SLASH) with
            | none => simp [List.findIdx?_cons, hs] at hi
            | some j =>
                have hij : i = j + 1 := by
                  simp [List.findIdx?_cons, hs] at hi
                  exact hi.symm
                rw [hij]
                simpa using ih.1 j hs
          · intro hnone
            have hs : s.findIdx? (fun b => b != SLASH) = none := by
              simpa [List.findIdx?_cons] using hnone
            simpa using ih.2 hs
        · have hbne : (b != SLASH) = true := by simpa using hb
          constructor
          · intro i hi
            have hi0 : i = 0 := by
              simp [List.findIdx?_cons, hbne] at hi
              exact hi.symm
            simp [hi0, hb]
          · intro hnone
            simp [List.findIdx?_cons, hbne] at hnone
  simp only [selector, first, separator, hurl, Bool.false_eq_true, if_false]
  cases hfind : r.rawBody.findIdx? (fun b => b != SLASH) with
  | none => simp [(hdrop r.rawBody).2 hfind]
  | some i => simp [(hdrop r.rawBody).1 i hfind]

/-- A first component without slashes is the selector, whatever follows it. -/
theorem selector_of_append {a rest : Bytes}
    (hurl : (⟨a ++ rest⟩ : Request).isUrl = false)
    (hne : a ≠ []) (ha : SLASH ∉ a)
    (hrest : rest = [] ∨ ∃ t, rest = SLASH :: t) :
    (⟨a ++ rest⟩ : Request).selector = a := by
  rw [selector_eq hurl]
  cases a with
  | nil => exact absurd rfl hne
  | cons b a =>
      have hb : b ≠ SLASH := fun h => ha (by simp [h])
      have hall : ∀ c ∈ b :: a, (c != SLASH) = true := by
        intro c hc
        simp only [bne_iff_ne, ne_eq]
        rintro rfl
        exact ha hc
      have hdrop : (b :: a ++ rest).dropWhile (fun b => b == SLASH) =
          b :: a ++ rest := by
        simp [hb]
      rw [hdrop, List.takeWhile_append_of_pos hall]
      rcases hrest with rfl | ⟨t, rfl⟩
      · simp
      · simp

end Request

end Gopher
end Goofy
