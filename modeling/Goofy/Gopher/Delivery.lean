import Goofy.Gopher.ProtoWriter
import Goofy.Lib.Transition

/-!
# The delivery of a buffer

A bytes writer writes its buffer to a socket that takes any part of what it is
offered, call after call.  The bytes that the socket took are the beginning of the
buffer, the cursor counts them, and success is told when the last of them is taken:
this holds in every run exactly when the length of the buffer fits into the 32 bits of
the cursor.
-/

namespace Goofy
namespace Gopher

open Effect Transition

/-- What the owner of a writer is told. -/
inductive Told where
  | success
  | error (e : Exn)
  | timeout
deriving DecidableEq

/-- The owner that writes down what it is told. -/
def tellAll : WriteParams (List Told) where
  gotSuccess told := told ++ [.success]
  gotError e told := told ++ [.error e]
  gotTimeout told := told ++ [.timeout]

/-- A writer on its way: how its last call ended, what the socket has taken, and what
the owner was told. -/
structure Delivery where
  outcome : Except Fail Unit
  writer : Writer
  wire : Bytes
  told : List Told

namespace Delivery

/-- After `write_to`. -/
def start (buffer : Bytes) : Delivery :=
  match Writer.writeTo none (.create (.bytes { buffer })) with
  | (outcome, writer) => ⟨outcome, writer, [], []⟩

/-- What the writer offers to the socket. -/
def offered (s : Delivery) : Bytes :=
  match s.writer.body with
  | .bytes b => b.buffer.drop b.cursor.toNat
  | _ => []

/-- The callback of a socket that takes the first `sent` of the bytes offered. -/
def write (s : Delivery) (sent : Nat) : Delivery :=
  let fired : Writer := { s.writer with evWrite := s.writer.evWrite.fired }
  match Writer.cbWrite tellAll none (.ok sent) fired s.told with
  | (outcome, writer, told) => ⟨outcome, writer, s.wire ++ s.offered.take sent, told⟩

/-- While the writer waits, the socket takes one byte at least, and at most all. -/
def system (buffer : Bytes) : System Delivery Nat where
  init s := s = start buffer
  step s sent t :=
    s.outcome = .ok () ∧ s.writer.evWrite = .pending ∧
      1 ≤ sent ∧ sent ≤ s.offered.length ∧ t = s.write sent

/-- What is asked of a writer after the given calls: the event is pending after a call
while bytes remain, and success is told in the call that leaves none. -/
structure Delivers (buffer : Bytes) (sents : List Nat) (s : Delivery) : Prop where
  outcome : s.outcome = .ok ()
  wire : s.wire <+: buffer
  cursor : ∃ b, s.writer.body = .bytes b ∧ b.buffer = buffer ∧
    b.cursor.toNat = s.wire.length ∧ b.cursor.toNat ≤ buffer.length
  pending : sents ≠ [] → (s.writer.evWrite = .pending ↔ s.wire.length < buffer.length)
  told : s.told =
    if sents ≠ [] ∧ s.wire.length = buffer.length then [.success] else []

section Runs

variable {buffer : Bytes}

/-- The writer waits, with the cursor behind the bytes that were taken. -/
def waiting (buffer : Bytes) (cursor : UInt32) : Delivery :=
  ⟨.ok (), ⟨.pending, .bytes ⟨buffer, cursor⟩⟩, buffer.take cursor.toNat, []⟩

/-- The writer was told that all is taken. -/
def delivered (buffer : Bytes) (cursor : UInt32) : Delivery :=
  ⟨.ok (), ⟨.idle, .bytes ⟨buffer, cursor⟩⟩, buffer, [.success]⟩

theorem start_eq : start buffer = waiting buffer 0 := by
  simp [start, waiting, Writer.writeTo, Writer.create, Body.beforeWrite, Writer.schedule]

/-- One call that takes a part of what remains: the cursor follows, modulo its
width. -/
theorem write_waiting
    {cursor : UInt32} {sent : Nat} (hpos : 1 ≤ sent)
    (hsent : sent ≤ buffer.length - cursor.toNat) :
    ∃ cursor', cursor'.toNat = (cursor.toNat + sent) % 2 ^ 32 ∧
      (waiting buffer cursor).write sent =
        ⟨.ok (), ⟨if cursor'.toNat < buffer.length then .pending else .idle,
            .bytes ⟨buffer, cursor'⟩⟩,
          buffer.take cursor.toNat ++ (buffer.drop cursor.toNat).take sent,
          if cursor'.toNat < buffer.length then [] else [.success]⟩ := by
  have hle := Writer.cursor_add_le hsent (by omega)
  have hnat : (cursor + UInt32.ofNat sent).toNat = (cursor.toNat + sent) % 2 ^ 32 := by
    simp [UInt32.toNat_add, UInt32.toNat_ofNat']
  refine ⟨cursor + UInt32.ofNat sent, hnat, ?_⟩
  have hzero : sent ≠ 0 := by omega
  simp only [write, waiting, offered, Event.fired, Writer.cbWrite, Writer.writeChunk,
    Writer.writeChunkBytes, if_neg hzero]
  generalize cursor + UInt32.ofNat sent = next at hle
  by_cases hlt : next.toNat < buffer.length
  · simp [hlt, Writer.proceed, Writer.schedule]
  · have heq : next.toNat = buffer.length := Nat.le_antisymm hle (Nat.not_lt.mp hlt)
    simp [heq, Writer.proceed, tellAll]

/-- After a call the writer waits for the rest, or it has delivered everything. -/
inductive Called (buffer : Bytes) : Delivery → Prop
  | waiting {cursor : UInt32}
      (hlt : cursor.toNat < buffer.length) :
      Called buffer (waiting buffer cursor)
  | delivered {cursor : UInt32}
      (heq : cursor.toNat = buffer.length) :
      Called buffer (delivered buffer cursor)

theorem length_offered_waiting (cursor : UInt32) :
    (waiting buffer cursor).offered.length = buffer.length - cursor.toNat := by
  simp [offered, waiting]

/-- The cursor of a buffer that fits does not wrap. -/
theorem called_write_waiting
    (hfits : buffer.length < 2 ^ 32) {cursor : UInt32} {sent : Nat}
    (hpos : 1 ≤ sent) (hsent : sent ≤ buffer.length - cursor.toNat) :
    Called buffer ((waiting buffer cursor).write sent) := by
  obtain ⟨cursor', hnat, hwrite⟩ := write_waiting hpos hsent
  have hcursor : cursor'.toNat = cursor.toNat + sent := by
    rw [hnat]
    exact Nat.mod_eq_of_lt (by omega)
  rw [hwrite, ← List.take_add, ← hcursor]
  by_cases hlt : cursor'.toNat < buffer.length
  · simp only [if_pos hlt]
    exact .waiting hlt
  · have heq : cursor'.toNat = buffer.length := by omega
    have htake : buffer.take cursor'.toNat = buffer := by rw [heq, List.take_length]
    simp only [if_neg hlt, htake]
    exact .delivered heq

theorem Called.step
    (hfits : buffer.length < 2 ^ 32) {s t : Delivery} {sent : Nat}
    (hs : Called buffer s) (h : (system buffer).step s sent t) :
    Called buffer t := by
  obtain ⟨-, hpending, hpos, hsent, rfl⟩ := h
  cases hs with
  | waiting hlt =>
      rw [length_offered_waiting] at hsent
      exact called_write_waiting hfits hpos hsent
  | delivered heq => exact absurd hpending (by simp [Delivery.delivered])

theorem called_of_run
    (hfits : buffer.length < 2 ^ 32) {sents : List Nat} {s : Delivery}
    (hrun : Run (system buffer) (start buffer) sents s) (hne : sents ≠ []) :
    Called buffer s := by
  cases hrun with
  | nil => exact absurd rfl hne
  | cons hfirst hrest =>
      obtain ⟨-, -, hpos, hsent, rfl⟩ := hfirst
      rw [start_eq] at hsent hrest
      rw [length_offered_waiting] at hsent
      exact hrest.invariant (fun _ _ _ hs h => hs.step hfits h)
        (called_write_waiting hfits hpos hsent)

theorem delivers_start : Delivers buffer [] (start buffer) := by
  rw [start_eq]
  refine ⟨rfl, by simp [waiting], ⟨⟨buffer, 0⟩, rfl, rfl, ?_, ?_⟩, by simp, by simp [waiting]⟩
  · simp [waiting]
  · simp

theorem Called.delivers
    {s : Delivery} (hs : Called buffer s) {sents : List Nat} (hne : sents ≠ []) :
    Delivers buffer sents s := by
  cases hs with
  | @waiting cursor hlt =>
      have hlength : (buffer.take cursor.toNat).length = cursor.toNat :=
        List.length_take_of_le (Nat.le_of_lt hlt)
      refine ⟨rfl, List.take_prefix _ _,
        ⟨⟨buffer, cursor⟩, rfl, rfl, hlength.symm, Nat.le_of_lt hlt⟩, ?_, ?_⟩
      · intro _
        exact ⟨fun _ => hlength.trans_lt hlt, fun _ => rfl⟩
      · have hne' : (buffer.take cursor.toNat).length ≠ buffer.length := by omega
        exact (if_neg (fun h => hne' h.2)).symm
  | @delivered cursor heq =>
      refine ⟨rfl, List.prefix_rfl,
        ⟨⟨buffer, cursor⟩, rfl, rfl, heq, Nat.le_of_eq heq⟩, ?_, ?_⟩
      · simp [Delivery.delivered]
      · simp [Delivery.delivered, hne]

/-- The writer after the socket took 2^32 bytes: the cursor has wrapped to zero. -/
def wrapped (buffer : Bytes) : Delivery :=
  ⟨.ok (), ⟨.pending, .bytes ⟨buffer, 0⟩⟩, buffer.take (2 ^ 32), []⟩

theorem run_wrapped (hbig : 2 ^ 32 ≤ buffer.length) :
    Run (system buffer) (start buffer) [2 ^ 32] (wrapped buffer) := by
  have hsent : 2 ^ 32 ≤ buffer.length - (0 : UInt32).toNat := hbig
  have hwrapped : wrapped buffer = (start buffer).write (2 ^ 32) := by
    obtain ⟨cursor, hnat, hwrite⟩ := write_waiting (by decide) hsent
    have hzero : cursor = 0 := by
      rw [← UInt32.toNat_inj, hnat]
      rfl
    have hpos : 0 < buffer.length := by omega
    rw [start_eq, hwrite, hzero]
    simp [wrapped, hpos]
  refine .cons ⟨?_, ?_, by decide, ?_, hwrapped⟩ (.nil _)
  · rw [start_eq]
    rfl
  · rw [start_eq]
    rfl
  · rw [start_eq, length_offered_waiting]
    exact hsent

end Runs

end Delivery

/-- Every run delivers the buffer exactly when its length fits into the cursor. -/
theorem delivers_iff (buffer : Bytes) :
    (∀ sents s, Run (Delivery.system buffer) (.start buffer) sents s →
        Delivery.Delivers buffer sents s)
      ↔
    buffer.length < 2 ^ 32 := by
  constructor
  · intro hall
    by_contra hfits
    have hbig : 2 ^ 32 ≤ buffer.length := Nat.not_lt.mp hfits
    obtain ⟨b, hb, -, hcursor, -⟩ := (hall _ _ (Delivery.run_wrapped hbig)).cursor
    obtain rfl := Body.bytes.inj hb
    rw [Delivery.wrapped, List.length_take_of_le hbig] at hcursor
    simp at hcursor
  · intro hfits sents s hrun
    by_cases hne : sents = []
    · subst hne
      cases hrun
      exact Delivery.delivers_start
    · exact (Delivery.called_of_run hfits hrun hne).delivers hne

/-- All of 2^32 bytes are taken in the first call, success is not told, and all of
them are offered once more. -/
theorem wrapped_repeats :
    Run (Delivery.system (List.replicate (2 ^ 32) 0)) (.start (List.replicate (2 ^ 32) 0))
        [2 ^ 32] (.wrapped (List.replicate (2 ^ 32) 0)) ∧
      (Delivery.wrapped (List.replicate (2 ^ 32) 0)).wire = List.replicate (2 ^ 32) 0 ∧
      (Delivery.wrapped (List.replicate (2 ^ 32) 0)).told = [] ∧
      (Delivery.wrapped (List.replicate (2 ^ 32) 0)).offered = List.replicate (2 ^ 32) 0 := by
  refine ⟨Delivery.run_wrapped ?_, ?_, rfl, ?_⟩
  · rw [List.length_replicate]
  · rw [Delivery.wrapped, List.take_of_length_le]
    rw [List.length_replicate]
  · rfl

end Gopher
end Goofy
