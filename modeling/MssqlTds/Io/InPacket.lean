import MssqlTds.Io.PacketWriter
import MssqlTds.Lib.EState

/-!
# Writes that end inside the packet

Below the end of the packet no write sends anything: it only puts its bytes into the buffer.  Where
`Emits` describes a message up to how it is cut into packets, `Buffers m bs` gives the exact state
that `m` leaves, and two computations that buffer the same bytes are interchangeable there.
-/

namespace MssqlTds.PacketWriter

open Bytes EState

/-- The sizes of the writer are within the `i32` the code casts them to. -/
structure InRange (w : PacketWriter) : Prop where
  size_lt : w.maxPayloadSize < 2 ^ 31
  pos_lt : w.payloadCursor.pos - packetHeaderSize < 2 ^ 31

/-- The writer with `bs` put into its buffer. -/
def written (w : PacketWriter) (bs : List UInt8) : PacketWriter :=
  { w with payloadCursor := w.payloadCursor.write bs }

/-- The next `n` bytes end before the packet does. -/
structure Roomy (w : PacketWriter) (n : ℕ) : Prop extends InRange w where
  room : w.payloadCursor.pos - packetHeaderSize + n < w.maxPayloadSize

/-- The buffer reaches up to the position. -/
def Reaches (w : PacketWriter) : Prop := w.payloadCursor.pos ≤ w.payloadCursor.buf.length

/-- From a writer with room for `bs` and a byte more, `m` buffers `bs` and does nothing else. -/
def Buffers (m : WriterM Unit) (bs : List UInt8) : Prop :=
  ∀ w, Roomy w bs.length → Reaches w → m w = .ok () (w.written bs)

variable {w : PacketWriter} {n k : ℕ} {m m' : WriterM Unit} {bs cs : List UInt8}

theorem InRange.position_eq (h : InRange w) :
    w.position = (w.payloadCursor.pos - packetHeaderSize : ℕ) := asI32_of_lt h.pos_lt

theorem InRange.asUsize_position (h : InRange w) :
    asUsize w.position = w.payloadCursor.pos - packetHeaderSize := by
  have := h.pos_lt
  rw [h.position_eq, asUsize_natCast (by omega)]

/-- The strict test of the fast path. -/
theorem hasSpace_succ_iff (h : InRange w) : w.hasSpace (n + 1) = true ↔ Roomy w n := by
  rw [hasSpace, decide_eq_true_iff, h.asUsize_position]
  constructor
  · intro hspace
    exact ⟨h, by omega⟩
  · intro hroom
    have := hroom.room
    omega

theorem Roomy.mono (h : Roomy w n) (hk : k ≤ n) : Roomy w k :=
  ⟨h.toInRange, by have := h.room; omega⟩

theorem Roomy.hasSpace (h : Roomy w n) (hk : k ≤ n + 1) : w.hasSpace k = true := by
  rw [PacketWriter.hasSpace, decide_eq_true_iff, h.asUsize_position]
  have := h.room
  omega

theorem Roomy.written (h : Roomy w (bs.length + n)) : Roomy (w.written bs) n := by
  have hroom := h.room
  have hsize := h.size_lt
  refine ⟨⟨hsize, ?_⟩, ?_⟩
  · change w.payloadCursor.pos + bs.length - packetHeaderSize < 2 ^ 31
    omega
  · change w.payloadCursor.pos + bs.length - packetHeaderSize + n < w.maxPayloadSize
    omega

theorem reaches_written : Reaches (w.written bs) := by
  change w.payloadCursor.pos + bs.length ≤ (w.payloadCursor.write bs).buf.length
  rw [Cursor.length_write]
  exact Nat.le_max_left _ _

theorem written_append : w.written (bs ++ cs) = (w.written bs).written cs := by
  simp only [written, Cursor.write_append]

theorem written_nil (h : Reaches w) : w.written [] = w := by
  simp only [written, Cursor.write_nil h]

/-! ### The rules -/

namespace Buffers

theorem pure : Buffers (Pure.pure ()) [] := by
  intro w _ hreach
  rw [written_nil hreach]
  rfl

theorem bind (h : Buffers m bs) (h' : Buffers m' cs) :
    Buffers (m >>= fun _ => m') (bs ++ cs) := by
  intro w hroom hreach
  rw [List.length_append] at hroom
  rw [bind_ok (h w (hroom.mono (Nat.le_add_right _ _)) hreach),
    h' _ hroom.written reaches_written, written_append]

theorem forM {α : Type} {f : α → WriterM Unit} {g : α → List UInt8} :
    ∀ {xs : List α}, (∀ x ∈ xs, Buffers (f x) (g x)) → Buffers (xs.forM f) (xs.flatMap g)
  | [], _ => .pure
  | x :: xs, h => by
    exact (h x List.mem_cons_self).bind (forM fun y hy => h y (List.mem_cons_of_mem x hy))

end Buffers

theorem writeUnchecked_apply : writeUnchecked bs w = .ok () (w.written bs) := rfl

theorem writeUnchecked_buffers : Buffers (writeUnchecked bs) bs := fun _ _ _ => writeUnchecked_apply

/-- A checked write that ends inside the packet sends nothing. -/
theorem writeChecked_roomy (h : Roomy w bs.length) :
    writeChecked bs w = .ok () (w.written bs) := by
  have hroom : Roomy (w.written bs) 0 := .written (n := 0) h
  have hopen : ¬ (w.written bs).position ≥ asI32 (w.written bs).maxPayloadSize := by
    rw [hroom.position_eq, asI32_of_lt hroom.size_lt]
    have := hroom.room
    omega
  rw [writeChecked, bind_ok writeUnchecked_apply, handleOverflowIfNeeded,
    bind_ok get_apply, if_neg hopen]
  rfl

theorem writeChecked_buffers : Buffers (writeChecked bs) bs := fun _ h _ => writeChecked_roomy h

theorem writeFixedBytes_buffers : Buffers (writeFixedBytes bs) bs := by
  intro w hroom _
  rw [writeFixedBytes, bind_ok get_apply, if_pos (hroom.hasSpace (Nat.le_refl _))]
  exact writeUnchecked_apply

theorem writeAsync_buffers : Buffers (writeAsync bs) bs := by
  intro w hroom hreach
  rw [writeAsync, writeLoop]
  by_cases hbs : bs = []
  · rw [if_neg (by simpa using hbs), hbs, written_nil hreach]
    rfl
  · have hspace : ¬ w.packetSpaceLeft < bs.length := by
      have := hroom.room
      rw [packetSpaceLeft, usizeSub, hroom.asUsize_position]
      split <;> omega
    rw [if_pos (by simpa using hbs), bind_ok get_apply, if_neg hspace]
    exact writeUnchecked_apply

end MssqlTds.PacketWriter
