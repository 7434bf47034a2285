import Mathlib.Tactic.Common
import Mathlib.Order.Lattice

/-!
# A write cursor over a growable byte vector

`Cursor` is a byte vector with a position, written at the position: bytes already there are
overwritten, a position past the end is first reached by zero bytes.  `region c s` is what stands
between a fixed offset `s` and the position; `region_write` says that a write appends to it.
-/

/-- A growable byte vector with the position of the next write. -/
structure Cursor where
  /-- The vector. -/
  buf : List UInt8
  /-- Index of the next byte to write. -/
  pos : ℕ
  deriving DecidableEq, Repr

namespace Cursor

open List

/-- The vector, zero-filled up to the position. -/
def padded (c : Cursor) : List UInt8 := c.buf ++ List.replicate (c.pos - c.buf.length) 0

/-- Write `bs` at the position and move past it. -/
def write (c : Cursor) (bs : List UInt8) : Cursor where
  buf := c.padded.take c.pos ++ bs ++ c.padded.drop (c.pos + bs.length)
  pos := c.pos + bs.length

def setPosition (c : Cursor) (p : ℕ) : Cursor := { c with pos := p }

/-- Copy the `n` bytes at `src` over those at `dst`; the position stays. -/
def copyWithin (c : Cursor) (src n dst : ℕ) : Cursor :=
  { c with buf := c.buf.take dst ++ (c.buf.drop src).take n ++ c.buf.drop (dst + n) }

/-- The bytes between offset `s` and the position. -/
def region (c : Cursor) (s : ℕ) : List UInt8 := (c.buf.take c.pos).drop s

/-- The position is inside the vector, or at an offset `s` nothing has been written past. -/
def Filled (c : Cursor) (s : ℕ) : Prop := s ≤ c.pos ∧ c.pos ≤ max s c.buf.length

variable {c : Cursor} {s p : ℕ} {bs cs : List UInt8}

@[simp] theorem write_pos : (c.write bs).pos = c.pos + bs.length := rfl

@[simp] theorem setPosition_pos : (c.setPosition p).pos = p := rfl

@[simp] theorem setPosition_buf : (c.setPosition p).buf = c.buf := rfl

theorem length_padded : c.padded.length = max c.pos c.buf.length := by
  simp only [padded, length_append, length_replicate]
  omega

theorem length_write : (c.write bs).buf.length = max (c.pos + bs.length) c.buf.length := by
  simp only [write, length_append, length_take, length_drop, length_padded]
  omega

/-- Writing at position `0` replaces the front of the vector. -/
theorem write_zero (h : c.pos = 0) : (c.write bs).buf = bs ++ c.buf.drop bs.length := by
  simp [write, padded, h]

theorem take_write : (c.write bs).buf.take (c.pos + bs.length) = c.padded.take c.pos ++ bs := by
  have hlen : (c.padded.take c.pos ++ bs).length = c.pos + bs.length := by
    simp [length_padded]
  rw [write, ← hlen, take_left]

theorem padded_write : (c.write bs).padded = (c.write bs).buf := by
  have hlen : (c.write bs).pos - (c.write bs).buf.length = 0 := by
    rw [length_write, write_pos]
    omega
  rw [padded, hlen, replicate_zero, append_nil]

/-- Two writes in a row are one. -/
theorem write_append : c.write (bs ++ cs) = (c.write bs).write cs := by
  have hfront : (c.write bs).buf.take (c.pos + bs.length) = c.padded.take c.pos ++ bs := take_write
  have hback : (c.write bs).buf.drop (c.pos + bs.length + cs.length)
      = c.padded.drop (c.pos + (bs ++ cs).length) := by
    have hlen : (c.padded.take c.pos ++ bs).length = c.pos + bs.length := by
      simp [length_padded]
    rw [write, ← hlen, drop_length_add_append, hlen, drop_drop, length_append,
      Nat.add_assoc]
  rw [write, write.eq_1 (c.write bs), padded_write, write_pos, hfront, hback, length_append,
    ← Nat.add_assoc, append_assoc, append_assoc, append_assoc, append_assoc]

theorem write_nil (h : c.pos ≤ c.buf.length) : c.write [] = c := by
  have hpad : c.padded = c.buf := by
    rw [padded, Nat.sub_eq_zero_of_le h, replicate_zero, append_nil]
  simp [write, hpad]

theorem region_write (h : c.Filled s) : (c.write bs).region s = c.region s ++ bs := by
  obtain ⟨hs, hp⟩ := h
  have hpad : (c.padded.take c.pos).drop s = (c.buf.take c.pos).drop s := by
    by_cases hlen : c.pos ≤ c.buf.length
    · rw [padded, take_append_of_le_length hlen]
    · have hps : c.pos = s := by omega
      simp [hps]
  have hlen : s ≤ (c.padded.take c.pos).length := by
    simp only [length_take, length_padded]
    omega
  rw [region, write_pos, take_write, drop_append_of_le_length hlen, hpad, region]

theorem filled_write (h : c.Filled s) : (c.write bs).Filled s := by
  unfold Filled at *
  rw [length_write, write_pos]
  omega

theorem length_region (h : c.Filled s) : (c.region s).length = c.pos - s := by
  unfold Filled at h
  simp only [region, length_drop, length_take]
  omega

@[simp] theorem region_setPosition_self : (c.setPosition s).region s = [] := by
  simp [region]

theorem filled_setPosition_self : (c.setPosition s).Filled s :=
  ⟨le_rfl, le_max_left _ _⟩

/-- Copying what lies between `src` and the position down to `s` drops the front of the region. -/
theorem region_copyWithin {n : ℕ} (src : ℕ) (h : c.Filled s) (hs : s ≤ src) (hn : src + n = c.pos)
    (hpos : s < c.pos) :
    ((c.copyWithin src n s).setPosition (s + n)).Filled s ∧
      ((c.copyWithin src n s).setPosition (s + n)).region s = (c.region s).drop (src - s) := by
  have hlen : c.pos ≤ c.buf.length := by
    have := h.2
    omega
  have htake : (c.buf.take s).length = s := by
    rw [length_take]
    omega
  have hmid : ((c.buf.drop src).take n).length = n := by
    rw [length_take, length_drop]
    omega
  constructor
  · unfold Filled
    simp only [setPosition_pos, setPosition_buf, copyWithin, length_append, htake, hmid]
    omega
  · have hfront : (c.buf.take s ++ (c.buf.drop src).take n ++ c.buf.drop (s + n)).take (s + n) =
        c.buf.take s ++ (c.buf.drop src).take n := by
      apply take_left'
      rw [length_append, htake, hmid]
    simp only [region, setPosition_pos, setPosition_buf, copyWithin]
    rw [hfront, drop_left' htake, drop_drop, Nat.add_sub_cancel' hs, drop_take]
    congr 1
    omega

theorem filled_copyWithin (src : ℕ) (h : c.Filled s) (hs : s ≤ src) :
    ((c.copyWithin src (c.pos - src) s).setPosition (s + (c.pos - src))).Filled s := by
  by_cases hpos : c.pos ≤ src
  · rw [Nat.sub_eq_zero_of_le hpos]
    exact filled_setPosition_self
  · exact (region_copyWithin src h hs (by omega) (by omega)).1

/-- `c'` is `c` after writes of `bs` in all, as seen from every filled offset. -/
def Extends (c c' : Cursor) (bs : List UInt8) : Prop :=
  c'.pos = c.pos + bs.length ∧
    ∀ s, c.Filled s → c'.Filled s ∧ c'.region s = c.region s ++ bs

theorem extends_write (bs : List UInt8) : c.Extends (c.write bs) bs :=
  ⟨write_pos, fun _ h => ⟨filled_write h, region_write h⟩⟩

theorem Extends.refl (c : Cursor) : c.Extends c [] := ⟨rfl, fun _ h => ⟨h, by simp⟩⟩

theorem Extends.trans {c₁ c₂ c₃ : Cursor} (h₁ : c₁.Extends c₂ bs) (h₂ : c₂.Extends c₃ cs) :
    c₁.Extends c₃ (bs ++ cs) := by
  refine ⟨by rw [h₂.1, h₁.1, length_append, Nat.add_assoc], fun s hs => ?_⟩
  obtain ⟨hf, hr⟩ := h₁.2 s hs
  obtain ⟨hf', hr'⟩ := h₂.2 s hf
  exact ⟨hf', by rw [hr', hr, append_assoc]⟩

end Cursor
