import Goofy.Base

/-!
# The menus of RFC 1436

The part of the protocol description that is about menus, in its own terms: a
directory entity is one line of four fields, a menu is a sequence of entities
closed by a line with a single dot.  `render` writes a menu, `decode` reads one
by the grammar: lines end with CR LF, the first line that is a lone dot closes
the menu, fields are cut at tabs and hold neither tab, CR, LF nor NUL.

`decode` accepts exactly the rendered menus (`parse_eq_some_iff`).
-/

namespace Goofy
namespace Rfc1436

open Delimited

/-- `UNASCII`: the bytes that a field may hold. -/
def unascii (b : Byte) : Bool :=
  b != TAB && b != CR && b != LF && b != NUL

/-- The text of a field of the grammar: a sequence of `UNASCII` bytes. -/
def FieldText (s : Bytes) : Prop :=
  ∀ b ∈ s, unascii b = true

instance (s : Bytes) : Decidable (FieldText s) :=
  decidable_of_iff (s.all unascii = true) List.all_eq_true

/-- `DirEntity`, its fields as they stand in the line. -/
structure DirEntity where
  type : Byte
  userName : Bytes
  selector : Bytes
  host : Bytes
  port : Bytes

/-- The entity obeys the grammar: fields are `UNASCII`, the port is a `DigitSeq`. -/
structure DirEntity.WellFormed (e : DirEntity) : Prop where
  type : unascii e.type = true
  userName : FieldText e.userName
  selector : FieldText e.selector
  host : FieldText e.host
  port : (Decimal.decode e.port).isSome = true

/-- A decoded entity: the port is a number. -/
structure Entry where
  type : Byte
  userName : Bytes
  selector : Bytes
  host : Bytes
  port : Nat
deriving DecidableEq

namespace DirEntity

/-- The line of an entity, without its end. -/
def line (e : DirEntity) : Bytes :=
  e.type :: e.userName ++ TAB :: e.selector ++ TAB :: e.host ++ TAB :: e.port

def render (e : DirEntity) : Bytes :=
  e.line ++ [CR, LF]

/-- All bytes of an entity but its separators. -/
def fields (e : DirEntity) : Bytes :=
  e.type :: e.userName ++ e.selector ++ e.host ++ e.port

def entry (e : DirEntity) : Entry :=
  ⟨e.type, e.userName, e.selector, e.host, (Decimal.decode e.port).getD 0⟩

end DirEntity

/-- `Menu`: the entities, then the last line. -/
def render (es : List DirEntity) : Bytes :=
  es.flatMap DirEntity.render ++ [DOT, CR, LF]

/-- The byte sequences that the grammar derives from `Menu`. -/
def IsMenu (bs : Bytes) : Prop :=
  ∃ es : List DirEntity, (∀ e ∈ es, e.WellFormed) ∧ bs = render es

/-- Read one line as an entity. -/
def parseLine (line : Bytes) : Option DirEntity :=
  match line.splitOn TAB with
  | [type :: userName, selector, host, port] =>
      if line.all (fun b => unascii b || b == TAB) && (Decimal.decode port).isSome then
        some ⟨type, userName, selector, host, port⟩
      else none
  | _ => none

/-- Read the lines of a menu; the closing line must be the last one. -/
def parseLines : List Bytes → Option (List DirEntity)
  | [] => none
  | line :: lines =>
      if line = [DOT] then (if lines = [] then some [] else none)
      else
        match parseLine line, parseLines lines with
        | some e, some es => some (e :: es)
        | _, _ => none

/-- Read a byte sequence as a menu. -/
def parse (bs : Bytes) : Option (List DirEntity) :=
  if (records CR LF bs).2 = [] then parseLines (records CR LF bs).1 else none

/-- Decode a menu into its entries. -/
def decode (bs : Bytes) : Option (List Entry) :=
  (parse bs).map (List.map DirEntity.entry)

section Grammar

theorem not_mem_of_field {s : Bytes} {b : Byte}
    (hs : FieldText s) (hb : unascii b = false) : b ∉ s := by
  intro hmem
  rw [hs b hmem] at hb
  exact Bool.noConfusion hb

theorem field_append {s t : Bytes} : FieldText (s ++ t) ↔ FieldText s ∧ FieldText t := by
  simp [FieldText, or_imp, forall_and]

theorem field_of_decode {s : Bytes} (hs : (Decimal.decode s).isSome = true) :
    FieldText s := by
  have hall : s.all Decimal.isDigit = true := by
    unfold Decimal.decode at hs
    split_ifs at hs with h
    · exact h.2
    · simp at hs
  intro b hb
  have hdigit := List.all_eq_true.mp hall b hb
  simp only [Decimal.isDigit, decide_eq_true_eq] at hdigit
  simp only [unascii, Bool.and_eq_true, bne_iff_ne, ne_eq]
  refine ⟨⟨⟨?_, ?_⟩, ?_⟩, ?_⟩ <;>
    · rintro rfl
      revert hdigit
      decide

/-- The line of a well-formed entity splits into its four fields. -/
theorem splitOn_line {e : DirEntity} (he : e.WellFormed) :
    e.line.splitOn TAB = [e.type :: e.userName, e.selector, e.host, e.port] := by
  have htype : TAB ∉ e.type :: e.userName := by
    refine not_mem_of_field ?_ (b := TAB) rfl
    intro b hb
    rcases List.mem_cons.mp hb with rfl | hb
    · exact he.type
    · exact he.userName b hb
  have hselector : TAB ∉ e.selector := not_mem_of_field he.selector rfl
  have hhost : TAB ∉ e.host := not_mem_of_field he.host rfl
  have hport : TAB ∉ e.port := not_mem_of_field (field_of_decode he.port) rfl
  have hassoc : e.line =
      (e.type :: e.userName) ++ TAB :: (e.selector ++ TAB :: (e.host ++ TAB :: e.port)) := by
    simp [DirEntity.line]
  rw [hassoc, List.splitOn_append_cons_self_of_not_mem htype,
    List.splitOn_append_cons_self_of_not_mem hselector,
    List.splitOn_append_cons_self_of_not_mem hhost,
    List.splitOn_eq_singleton hport]

/-- Every byte of an entity's line is a tab or may stand in a field. -/
theorem unascii_or_tab_of_mem_line {e : DirEntity} (he : e.WellFormed)
    {b : Byte} (hb : b ∈ e.line) : unascii b = true ∨ b = TAB := by
  simp only [DirEntity.line, List.mem_append, List.mem_cons] at hb
  rcases hb with (((rfl | hb) | rfl | hb) | rfl | hb) | rfl | hb
  · exact Or.inl he.type
  · exact Or.inl (he.userName b hb)
  · exact Or.inr rfl
  · exact Or.inl (he.selector b hb)
  · exact Or.inr rfl
  · exact Or.inl (he.host b hb)
  · exact Or.inr rfl
  · exact Or.inl (field_of_decode he.port b hb)

theorem not_mem_line {e : DirEntity} (he : e.WellFormed)
    {b : Byte} (hfield : unascii b = false) (htab : b ≠ TAB) : b ∉ e.line := by
  intro hb
  rcases unascii_or_tab_of_mem_line he hb with h | h
  · rw [h] at hfield
    exact Bool.noConfusion hfield
  · exact htab h

theorem parseLine_line {e : DirEntity} (he : e.WellFormed) :
    parseLine e.line = some e := by
  have hall : e.line.all (fun b => unascii b || b == TAB) = true := by
    rw [List.all_eq_true]
    intro b hb
    simpa using unascii_or_tab_of_mem_line he hb
  simp only [parseLine, splitOn_line he, hall, he.port, Bool.and_self, if_true]

/-- A line that is read as an entity is the line of that entity. -/
theorem parseLine_sound {line : Bytes} {e : DirEntity}
    (h : parseLine line = some e) :
    e.WellFormed ∧ line = e.line := by
  unfold parseLine at h
  split at h
  · rename_i type userName selector host port hsplit
    split_ifs at h with hcheck
    rw [Bool.and_eq_true] at hcheck
    obtain ⟨hall, hport⟩ := hcheck
    have he : e = ⟨type, userName, selector, host, port⟩ := (Option.some.inj h).symm
    have hline : line = e.line := by
      have hjoin : [TAB].intercalate (line.splitOn TAB) = line :=
        List.intercalate_splitOn TAB
      rw [hsplit] at hjoin
      rw [← hjoin, he]
      simp [DirEntity.line]
    have hnotab : ∀ p ∈ line.splitOn TAB, TAB ∉ p :=
      fun p hp => not_mem_of_mem_splitOn TAB hp
    rw [hsplit] at hnotab
    have hbyte : ∀ b ∈ line, b ≠ TAB → unascii b = true := by
      intro b hb htab
      have := List.all_eq_true.mp hall b hb
      simpa [htab] using this
    have hfield : ∀ p : Bytes, TAB ∉ p → (∀ b ∈ p, b ∈ line) → FieldText p := by
      intro p htab hsub b hb
      exact hbyte b (hsub b hb) (fun h => htab (h ▸ hb))
    have hfirst : FieldText (type :: userName) := by
      apply hfield _ (hnotab _ (by simp))
      intro b hb
      rw [hline, he]
      simp only [DirEntity.line, List.mem_append]
      exact Or.inl (Or.inl (Or.inl hb))
    refine ⟨⟨?_, ?_, ?_, ?_, ?_⟩, hline⟩
    · rw [he]
      exact hfirst type (by simp)
    · rw [he]
      exact fun b hb => hfirst b (by simp [hb])
    · rw [he]
      apply hfield _ (hnotab _ (by simp))
      intro b hb
      rw [hline, he]
      simp [DirEntity.line, hb]
    · rw [he]
      apply hfield _ (hnotab _ (by simp))
      intro b hb
      rw [hline, he]
      simp [DirEntity.line, hb]
    · rw [he]
      exact hport
  · simp at h

/-- The line of an entity is never the closing line: it holds tabs. -/
theorem line_ne_dot (e : DirEntity) : e.line ≠ [DOT] := by
  intro h
  have hlen := congrArg List.length h
  simp [DirEntity.line] at hlen

theorem parseLines_render {es : List DirEntity}
    (hes : ∀ e ∈ es, e.WellFormed) :
    parseLines (es.map DirEntity.line ++ [[DOT]]) = some es := by
  induction es with
  | nil => simp [parseLines]
  | cons e es ih =>
      have ih := ih (fun d hd => hes d (by simp [hd]))
      rw [List.map_cons, List.cons_append, parseLines, if_neg (line_ne_dot e),
        parseLine_line (hes e (by simp)), ih]

theorem parseLines_sound {lines : List Bytes} :
    ∀ {es : List DirEntity}, parseLines lines = some es →
      (∀ e ∈ es, e.WellFormed) ∧ lines = es.map DirEntity.line ++ [[DOT]] := by
  induction lines with
  | nil =>
      intro es h
      simp [parseLines] at h
  | cons line lines ih =>
      intro es h
      rw [parseLines] at h
      split_ifs at h with hdot hlast
      · have hes : es = [] := (Option.some.inj h).symm
        simp [hes, hdot, hlast]
      · cases hline : parseLine line with
        | none => simp [hline] at h
        | some e =>
            cases hlines : parseLines lines with
            | none => simp [hline, hlines] at h
            | some ds =>
                have hes : es = e :: ds := by simpa [hline, hlines] using h.symm
                obtain ⟨hwf, heq⟩ := parseLine_sound hline
                obtain ⟨hwfs, heqs⟩ := ih hlines
                rw [hes]
                constructor
                · intro d hd
                  rcases List.mem_cons.mp hd with rfl | hd
                  · exact hwf
                  · exact hwfs d hd
                · rw [heq, heqs]
                  simp

/-- The records of a rendered menu are its lines. -/
theorem records_render {es : List DirEntity}
    (hes : ∀ e ∈ es, e.WellFormed) :
    records CR LF (render es) = (es.map DirEntity.line ++ [[DOT]], []) := by
  induction es with
  | nil => decide
  | cons e es ih =>
      have ih := ih (fun d hd => hes d (by simp [hd]))
      have hcr : CR ∉ e.line := not_mem_line (hes e (by simp)) rfl (by decide)
      have hsplit : render (e :: es) = e.line ++ CR :: LF :: render es := by
        simp [render, DirEntity.render]
      rw [hsplit, records_append hcr, ih]
      rfl

/-- Reading by the grammar accepts exactly what it derives, with its entities. -/
theorem parse_eq_some_iff (bs : Bytes) (es : List DirEntity) :
    parse bs = some es
      ↔
    (∀ e ∈ es, e.WellFormed) ∧ bs = render es := by
  constructor
  · intro h
    unfold parse at h
    split_ifs at h with hrest
    obtain ⟨hwf, hlines⟩ := parseLines_sound h
    refine ⟨hwf, ?_⟩
    have hflat := flatMap_records (x := CR) (y := LF) bs
    rw [hrest, hlines, List.append_nil] at hflat
    rw [← hflat]
    simp only [render, List.flatMap_append, List.flatMap_map]
    rfl
  · rintro ⟨hwf, rfl⟩
    rw [parse, records_render hwf, if_pos rfl]
    exact parseLines_render hwf

/-- Decoding a rendered menu gives its entries. -/
theorem decode_render {es : List DirEntity}
    (hes : ∀ e ∈ es, e.WellFormed) :
    decode (render es) = some (es.map DirEntity.entry) := by
  rw [decode, (parse_eq_some_iff _ _).mpr ⟨hes, rfl⟩]
  rfl

/-- What decodes is a menu, with as many entities as there are entries. -/
theorem decode_sound {bs : Bytes} {entries : List Entry}
    (h : decode bs = some entries) :
    ∃ es : List DirEntity, (∀ e ∈ es, e.WellFormed) ∧
      bs = render es ∧ entries = es.map DirEntity.entry := by
  rw [decode, Option.map_eq_some_iff] at h
  obtain ⟨es, hparse, hentries⟩ := h
  obtain ⟨hwf, hbs⟩ := (parse_eq_some_iff bs es).mp hparse
  exact ⟨es, hwf, hbs, hentries.symm⟩

/-- Besides the bytes of its fields, a rendered menu holds a fixed number of
each byte for every entity, and the closing line. -/
theorem count_render (b : Byte) (es : List DirEntity) :
    (render es).count b =
      (es.flatMap DirEntity.fields).count b +
        es.length * ([TAB, TAB, TAB, CR, LF] : Bytes).count b +
          ([DOT, CR, LF] : Bytes).count b := by
  induction es with
  | nil => simp [render]
  | cons e es ih =>
      have hsplit : render (e :: es) = e.line ++ [CR, LF] ++ render es := by
        simp [render, DirEntity.render]
      have hline : (e.line ++ [CR, LF]).count b =
          e.fields.count b + ([TAB, TAB, TAB, CR, LF] : Bytes).count b := by
        simp only [DirEntity.line, DirEntity.fields, List.count_append, List.count_cons,
          List.count_nil]
        omega
      rw [hsplit, List.count_append, hline, ih, List.flatMap_cons, List.count_append,
        List.length_cons, Nat.succ_mul]
      omega

theorem DirEntity.WellFormed.fields {e : DirEntity} (he : e.WellFormed) :
    FieldText e.fields := by
  have htype : FieldText [e.type] := by
    simpa [FieldText] using he.type
  have happend : e.fields =
      [e.type] ++ e.userName ++ e.selector ++ e.host ++ e.port := by
    simp [DirEntity.fields]
  rw [happend]
  simp only [field_append]
  exact ⟨⟨⟨⟨htype, he.userName⟩, he.selector⟩, he.host⟩, field_of_decode he.port⟩

/-- A text that is rendered from as many entities as a menu, and is that menu,
was made of fields: no byte of them can pass for a separator. -/
theorem field_of_render_eq {es menu : List DirEntity}
    (hmenu : ∀ e ∈ menu, e.WellFormed)
    (hlen : es.length = menu.length)
    (h : render es = render menu) :
    ∀ e ∈ es, FieldText e.fields := by
  intro e he b hb
  by_contra hbad
  have hsep : unascii b = false := by simpa using hbad
  have hnone : (menu.flatMap DirEntity.fields).count b = 0 := by
    rw [List.count_eq_zero, List.mem_flatMap]
    rintro ⟨d, hd, hbd⟩
    exact not_mem_of_field (hmenu d hd).fields hsep hbd
  have hsome : 0 < (es.flatMap DirEntity.fields).count b :=
    List.count_pos_iff.mpr (List.mem_flatMap.mpr ⟨e, he, hb⟩)
  have hcount := congrArg (List.count b) h
  rw [count_render, count_render, hnone, hlen] at hcount
  omega

end Grammar

end Rfc1436
end Goofy
