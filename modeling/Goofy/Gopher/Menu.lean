import Goofy.Gopher.ProtoWriter

/-!
# The menus that `MenuWriter` builds

A menu is built by a sequence of calls (`MenuCall`).  Each call appends the
rendering of one directory entity, whatever its arguments are
(`buffer_apply`); when the arguments are fields of the grammar, the entity is
well formed, and the closed buffer is a menu that decodes to the entries of the
calls, in order.
-/

namespace Goofy
namespace Gopher

open Rfc1436

/-- One call of `MenuWriter::node`, `text` or `error`, by overload. -/
inductive MenuCall where
  | node (info : NodeInfo)
  | text (msg : Bytes) (len : Nat)
  | textString (msg : Bytes)
  | error (msg : Bytes) (len : Nat)
  | errorString (msg : Bytes)
deriving DecidableEq

namespace MenuCall

def apply (w : MenuWriter) : MenuCall → MenuWriter
  | node info => w.node info
  | text msg len => w.text msg len
  | textString msg => w.textString msg
  | error msg len => w.error msg len
  | errorString msg => w.errorString msg

/-- The message that a pointer and a length mean: length zero means "measure it". -/
def sized (msg : Bytes) (len : Nat) : Bytes :=
  if len > 0 then msg.take len else cStr msg

/-- The entry that a call is meant to add. -/
def entry : MenuCall → Entry
  | node info => ⟨info.type, info.displayName, info.selector, info.host, info.port.toNat⟩
  | text msg len => ⟨NodeType.info.code, sized msg len, [], lit "info.host", 1⟩
  | textString msg => ⟨NodeType.info.code, msg, [], lit "info.host", 1⟩
  | error msg len => ⟨NodeType.error.code, sized msg len, [], lit "error.host", 1⟩
  | errorString msg => ⟨NodeType.error.code, msg, [], lit "error.host", 1⟩

/-- The type and the texts of a call may stand in the fields of a menu line. -/
def Clean : MenuCall → Prop
  | node info => unascii info.type = true ∧ FieldText info.displayName ∧
      FieldText info.selector ∧ FieldText info.host
  | text msg len => FieldText (sized msg len)
  | textString msg => FieldText msg
  | error msg len => FieldText (sized msg len)
  | errorString msg => FieldText msg

/-- The entity whose line a call appends. -/
def entity (c : MenuCall) : DirEntity :=
  ⟨c.entry.type, c.entry.userName, c.entry.selector, c.entry.host,
    toDecimal c.entry.port⟩

theorem entry_entity (c : MenuCall) : c.entity.entry = c.entry := by
  simp [entity, DirEntity.entry]

/-- The length of a string is the measured one when it is zero. -/
theorem sized_length (msg : Bytes) : sized msg msg.length = msg := by
  cases msg with
  | nil => rfl
  | cons b msg => simp [sized]

theorem take_eq_sized (msg : Bytes) (len : Nat) :
    msg.take (if len > 0 then len else (cStr msg).length) = sized msg len := by
  unfold sized
  split_ifs with hlen
  · rfl
  · exact (List.prefix_iff_eq_take.mp (List.takeWhile_prefix _)).symm

theorem buffer_message
    (type : NodeType) (host : Bytes)
    (w : MenuWriter) (msg : Bytes) (len : Nat) :
    (MenuWriter.message type (lit "\t\t" ++ host ++ lit "\t1\r\n") w msg len).buffer =
      w.buffer ++ DirEntity.render ⟨type.code, sized msg len, [], host, lit "1"⟩ := by
  have htabs : lit "\t\t" = [TAB, TAB] := by decide
  have hend : lit "\t1\r\n" = TAB :: lit "1" ++ [CR, LF] := by decide
  simp only [MenuWriter.message, BytesWriter.append, BytesWriter.appendByte,
    take_eq_sized, List.take_length]
  rw [htabs, hend]
  simp [DirEntity.render, DirEntity.line]

/-- Every call appends the rendering of its entity. -/
theorem buffer_apply (w : MenuWriter) (c : MenuCall) :
    (c.apply w).buffer = w.buffer ++ c.entity.render := by
  have hone : toDecimal 1 = lit "1" := by decide
  have htext : ∀ msg len, (w.text msg len).buffer =
      w.buffer ++ DirEntity.render
        ⟨NodeType.info.code, sized msg len, [], lit "info.host", lit "1"⟩ :=
    fun msg len => buffer_message .info (lit "info.host") w msg len
  have herror : ∀ msg len, (w.error msg len).buffer =
      w.buffer ++ DirEntity.render
        ⟨NodeType.error.code, sized msg len, [], lit "error.host", lit "1"⟩ :=
    fun msg len => buffer_message .error (lit "error.host") w msg len
  cases c with
  | node info =>
      simp [apply, MenuWriter.node, BytesWriter.appendByte,
        BytesWriter.appendString, entity, entry, DirEntity.render, DirEntity.line]
  | text msg len =>
      rw [apply, htext, entity, entry, hone]
  | textString msg =>
      rw [apply, MenuWriter.textString, htext, sized_length, entity, entry, hone]
  | error msg len =>
      rw [apply, herror, entity, entry, hone]
  | errorString msg =>
      rw [apply, MenuWriter.errorString, herror, sized_length, entity, entry, hone]

theorem wellFormed_entity {c : MenuCall} (hc : c.Clean) :
    c.entity.WellFormed := by
  have hhost : FieldText (lit "info.host") ∧ FieldText (lit "error.host") := by
    decide
  have hnil : FieldText [] := by
    simp [FieldText]
  have hport : ∀ n, (Decimal.decode (toDecimal n)).isSome = true := by
    simp
  cases c with
  | node info =>
      obtain ⟨htype, hname, hselector, hhost⟩ := hc
      exact ⟨htype, hname, hselector, hhost, hport _⟩
  | text msg len => exact ⟨rfl, hc, hnil, hhost.1, hport _⟩
  | textString msg => exact ⟨rfl, hc, hnil, hhost.1, hport _⟩
  | error msg len => exact ⟨rfl, hc, hnil, hhost.2, hport _⟩
  | errorString msg => exact ⟨rfl, hc, hnil, hhost.2, hport _⟩

/-- Where the bytes of an entity are those of fields, the call was clean. -/
theorem clean_of_fields {c : MenuCall} (hfields : FieldText c.entity.fields) :
    c.Clean := by
  have hsub : ∀ s : Bytes, (∀ b ∈ s, b ∈ c.entity.fields) → FieldText s :=
    fun s hs b hb => hfields b (hs b hb)
  cases c with
  | node info =>
      refine ⟨hfields _ (by simp [DirEntity.fields, entity, entry]), ?_⟩
      refine ⟨hsub _ ?_, hsub _ ?_, hsub _ ?_⟩
      all_goals
        intro b hb
        simp [DirEntity.fields, entity, entry, hb]
  | text msg len =>
      exact hsub _ (fun b hb => by simp [DirEntity.fields, entity, entry, hb])
  | textString msg =>
      exact hsub _ (fun b hb => by simp [DirEntity.fields, entity, entry, hb])
  | error msg len =>
      exact hsub _ (fun b hb => by simp [DirEntity.fields, entity, entry, hb])
  | errorString msg =>
      exact hsub _ (fun b hb => by simp [DirEntity.fields, entity, entry, hb])

/-- The line of a call is that of some well-formed entity exactly when the call is
clean. -/
theorem render_eq_iff_clean (c : MenuCall) :
    (∃ d : DirEntity, d.WellFormed ∧ c.entity.render = d.render) ↔ c.Clean := by
  constructor
  · rintro ⟨d, hd, hrender⟩
    have hmenu : Rfc1436.render [c.entity] = Rfc1436.render [d] := by
      simp [Rfc1436.render, hrender]
    have hwf : ∀ e ∈ [d], e.WellFormed := by
      simpa using hd
    have hlen : [c.entity].length = [d].length := rfl
    exact clean_of_fields (field_of_render_eq hwf hlen hmenu c.entity (by simp))
  · exact fun hc => ⟨c.entity, wellFormed_entity hc, rfl⟩

end MenuCall

/-- A menu writer after a sequence of calls. -/
def MenuWriter.run (w : MenuWriter) (calls : List MenuCall) : MenuWriter :=
  calls.foldl MenuCall.apply w

theorem MenuWriter.buffer_run (w : MenuWriter) (calls : List MenuCall) :
    (w.run calls).buffer =
      w.buffer ++ (calls.map MenuCall.entity).flatMap DirEntity.render := by
  induction calls generalizing w with
  | nil => simp [MenuWriter.run]
  | cons c calls ih =>
      have ih := ih (c.apply w)
      rw [MenuWriter.run, List.foldl_cons]
      rw [MenuWriter.run] at ih
      rw [ih, MenuCall.buffer_apply]
      simp

/-- The closed buffer of a menu is the rendering of the entities of its calls. -/
theorem MenuWriter.buffer_beforeWrite_run (calls : List MenuCall) :
    (MenuWriter.run {} calls).beforeWrite.buffer =
      Rfc1436.render (calls.map MenuCall.entity) := by
  have hdot : (lit ".\r\n").take 3 = [DOT, CR, LF] := by decide
  simp only [MenuWriter.beforeWrite, BytesWriter.append, hdot,
    MenuWriter.buffer_run, Rfc1436.render]
  rfl

theorem wellFormed_entities {calls : List MenuCall}
    (hclean : ∀ c ∈ calls, c.Clean) :
    ∀ e ∈ calls.map MenuCall.entity, e.WellFormed := by
  intro e he
  obtain ⟨c, hc, rfl⟩ := List.mem_map.mp he
  exact MenuCall.wellFormed_entity (hclean c hc)

theorem decode_run {calls : List MenuCall}
    (hclean : ∀ c ∈ calls, c.Clean) :
    decode (MenuWriter.run {} calls).beforeWrite.buffer =
      some (calls.map MenuCall.entry) := by
  rw [MenuWriter.buffer_beforeWrite_run, decode_render (wellFormed_entities hclean),
    List.map_map]
  congr 1
  exact List.map_congr_left (fun c _ => MenuCall.entry_entity c)

/-- A menu that decodes to one entry for each call was built by clean calls. -/
theorem clean_of_decode_run {calls : List MenuCall} {entries : List Entry}
    (h : decode (MenuWriter.run {} calls).beforeWrite.buffer = some entries)
    (hlen : entries.length = calls.length) :
    ∀ c ∈ calls, c.Clean := by
  rw [MenuWriter.buffer_beforeWrite_run] at h
  obtain ⟨menu, hmenu, hrender, hentries⟩ := decode_sound h
  have hlen' : (calls.map MenuCall.entity).length = menu.length := by
    rw [List.length_map, ← hlen, hentries, List.length_map]
  intro c hc
  exact MenuCall.clean_of_fields
    (field_of_render_eq hmenu hlen' hrender c.entity (List.mem_map.mpr ⟨c, hc, rfl⟩))

/-- Encoding a sequence of clean calls gives a menu, and decoding gives their
entries back. -/
theorem menu_decode_encode
    (calls : List MenuCall)
    (hclean : ∀ c ∈ calls, c.Clean) :
    IsMenu (MenuWriter.run {} calls).beforeWrite.buffer ∧
      decode (MenuWriter.run {} calls).beforeWrite.buffer =
        some (calls.map MenuCall.entry) :=
  ⟨⟨_, wellFormed_entities hclean, MenuWriter.buffer_beforeWrite_run calls⟩,
    decode_run hclean⟩

/-- A menu with an entry of type `.`, an empty message and a measured one. -/
theorem menu_decode_encode_dot :
    decode (MenuWriter.run {}
      [.node ⟨DOT, [], [], lit "h", 65535⟩, .textString [],
        .error (lit "e") 0]).beforeWrite.buffer =
      some [⟨DOT, [], [], lit "h", 65535⟩,
        ⟨105, [], [], lit "info.host", 1⟩, ⟨51, lit "e", [], lit "error.host", 1⟩] :=
  (menu_decode_encode
    [.node ⟨DOT, [], [], lit "h", 65535⟩, .textString [], .error (lit "e") 0]
    (by simp [MenuCall.Clean, MenuCall.sized]; decide)).2

end Gopher
end Goofy
