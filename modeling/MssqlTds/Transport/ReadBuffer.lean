import MssqlTds.Error
import MssqlTds.Lib.Segment

/-!
# The read buffer

`TdsReadBuffer` holds the payload bytes that are still to be read, between a position and a length,
and behind them the raw bytes of later packets that came in with the same network read.  Every slice
of the vector is checked, as it is in Rust: a range outside of it is a panic.

`Bounded` is what the indices keep, `buffered` and `parked` are the two regions.
-/

namespace MssqlTds

open List

structure TdsReadBuffer where
  bufferPosition : ℕ
  bufferLength : ℕ
  maxPacketSize : ℕ
  workingBuffer : List UInt8
  /-- Raw bytes that have been received beyond the current packet. -/
  pendingBytes : ℕ
  pendingBytesOffset : ℕ
  /-- The last packet received ends its message. -/
  endOfMessage : Bool
  deriving DecidableEq, Repr

namespace TdsReadBuffer

def new (packetSize : ℕ) : TdsReadBuffer where
  bufferPosition := 0
  bufferLength := 0
  maxPacketSize := packetSize
  workingBuffer := List.replicate (packetSize * 2) 0
  pendingBytes := 0
  pendingBytesOffset := 0
  endOfMessage := false

variable (b : TdsReadBuffer)

def getRemainingByteCount : ℕ := b.bufferLength - b.bufferPosition

def doWeHaveEnoughData (byteCount : ℕ) : Bool := byteCount ≤ b.getRemainingByteCount

/-- The slice `working_buffer[lo..hi]`. -/
def slice (lo hi : ℕ) : TdsResult (List UInt8) :=
  if lo ≤ hi ∧ hi ≤ b.workingBuffer.length then .ok (b.workingBuffer.segment lo (hi - lo))
  else .error (.panic "range out of bounds")

/-- `working_buffer.copy_within(lo..hi, dest)`. -/
def copyWithin (lo hi dest : ℕ) : TdsResult TdsReadBuffer :=
  if lo ≤ hi ∧ hi ≤ b.workingBuffer.length ∧ dest + (hi - lo) ≤ b.workingBuffer.length then
    .ok { b with workingBuffer := b.workingBuffer.copySegment lo (hi - lo) dest }
  else .error (.panic "range out of bounds")

def consumeBytes (byteCount : ℕ) : TdsResult TdsReadBuffer :=
  let remaining := b.getRemainingByteCount
  if byteCount > remaining then
    .error (.protocolError
      (s!"Cannot consume {byteCount} byte(s) from the packet buffer: " ++
        s!"only {remaining} remain"))
  else
    let position := b.bufferPosition + byteCount
    -- an exact drain starts over at the front
    if b.bufferLength = position then .ok { b with bufferLength := 0, bufferPosition := 0 }
    else .ok { b with bufferPosition := position }

/-- Read `n` bytes if they are there. -/
def tryReadArray (n : ℕ) : TdsResult (Option (List UInt8) × TdsReadBuffer) :=
  if !b.doWeHaveEnoughData n then .ok (none, b)
  else do
    let bytes ← b.slice b.bufferPosition (b.bufferPosition + n)
    let b ← b.consumeBytes n
    pure (some bytes, b)

def resetToLength (length : ℕ) : TdsReadBuffer :=
  { b with bufferPosition := 0, bufferLength := length, endOfMessage := false }

/-- Move the raw bytes right behind the bytes to read. -/
def shiftPending : TdsResult TdsReadBuffer :=
  if b.pendingBytes > 0 then do
    let moved ← b.copyWithin b.pendingBytesOffset (b.pendingBytesOffset + b.pendingBytes)
      b.bufferLength
    pure { moved with pendingBytesOffset := b.bufferLength }
  else pure b

/-- Move the bytes to read to the front, then the raw bytes behind them. -/
def shiftDataToFront : TdsResult TdsReadBuffer := do
  let remaining := b.getRemainingByteCount
  let moved ← b.copyWithin b.bufferPosition b.bufferLength 0
  shiftPending { moved with bufferPosition := 0, bufferLength := remaining }

/-- Take the header off the packet behind the bytes to read, which makes its payload part of them.
-/
def removeHeaderFromPacket (newPacketSize : ℕ) : TdsResult TdsReadBuffer := do
  let moved ← b.copyWithin (b.bufferLength + 8) (b.bufferLength + newPacketSize) b.bufferLength
  pure { moved with bufferLength := b.bufferLength + (newPacketSize - 8) }

/-! ### The regions -/

/-- The payload bytes that are still to be read. -/
def buffered : List UInt8 := b.workingBuffer.segment b.bufferPosition b.getRemainingByteCount

/-- The raw bytes received beyond the current packet. -/
def parked : List UInt8 := b.workingBuffer.segment b.pendingBytesOffset b.pendingBytes

/-- The indices are in order and inside the vector, which has room for two packets; the raw bytes
stand behind the bytes to read. -/
structure Bounded : Prop where
  header : 8 ≤ b.maxPacketSize
  capacity : b.workingBuffer.length = 2 * b.maxPacketSize
  position : b.bufferPosition ≤ b.bufferLength
  length : b.bufferLength ≤ b.workingBuffer.length
  pending : b.pendingBytesOffset + b.pendingBytes ≤ b.workingBuffer.length
  behind : 0 < b.pendingBytes → b.bufferLength ≤ b.pendingBytesOffset

/-- The buffer as its readers see it: the bytes to read, the raw bytes behind them, and whether the
message ends with the bytes to read. -/
structure Holds (size : ℕ) (data raw : List UInt8) (eom : Bool) : Prop extends Bounded b where
  size_eq : b.maxPacketSize = size
  data_eq : b.buffered = data
  raw_eq : b.parked = raw
  eom_eq : b.endOfMessage = eom

variable {b} {size n : ℕ} {data raw : List UInt8} {eom : Bool}

theorem new_holds (h : 8 ≤ size) : (new size).Holds size [] [] false where
  header := h
  capacity := by simp [new, Nat.mul_comm]
  position := Nat.le_refl _
  length := Nat.zero_le _
  pending := Nat.zero_le _
  behind := by simp [new]
  size_eq := rfl
  data_eq := by simp [buffered, getRemainingByteCount, new]
  raw_eq := by simp [parked, new]
  eom_eq := rfl

theorem slice_eq_ok {lo hi : ℕ} (h : lo ≤ hi) (hend : hi ≤ b.workingBuffer.length) :
    b.slice lo hi = .ok (b.workingBuffer.segment lo (hi - lo)) := if_pos ⟨h, hend⟩

theorem copyWithin_eq_ok {lo hi dest : ℕ} (h : lo ≤ hi) (hend : hi ≤ b.workingBuffer.length)
    (hdest : dest + (hi - lo) ≤ b.workingBuffer.length) :
    b.copyWithin lo hi dest
      = .ok { b with workingBuffer := b.workingBuffer.copySegment lo (hi - lo) dest } :=
  if_pos ⟨h, hend, hdest⟩

theorem Bounded.length_buffered (h : b.Bounded) : b.buffered.length = b.getRemainingByteCount := by
  have hpos := h.position
  have hlen := h.length
  refine length_segment ?_
  unfold getRemainingByteCount
  omega

theorem Holds.remaining (h : b.Holds size data raw eom) :
    b.getRemainingByteCount = data.length := by
  rw [← h.data_eq, h.length_buffered]

theorem Holds.pendingBytes_eq (h : b.Holds size data raw eom) : b.pendingBytes = raw.length := by
  rw [← h.raw_eq, parked, length_segment h.pending]

/-! ### Taking bytes out -/

theorem Holds.consumeBytes (h : b.Holds size data raw eom) (hn : n ≤ data.length) :
    ∃ b', b.consumeBytes n = .ok b' ∧ b'.Holds size (data.drop n) raw eom := by
  have hrem := h.remaining
  have hpos := h.position
  have hlen := h.length
  have hdata := h.data_eq
  unfold TdsReadBuffer.consumeBytes
  rw [if_neg (by omega)]
  unfold getRemainingByteCount at hrem
  dsimp only
  split
  · rename_i hdrain
    refine ⟨_, rfl,
      { h with position := Nat.le_refl _, length := Nat.zero_le _, behind := ?_, data_eq := ?_ }⟩
    · intro _
      exact Nat.zero_le _
    · rw [drop_of_length_le (by omega)]
      simp [buffered, getRemainingByteCount]
  · rename_i hmore
    refine ⟨_, rfl, { h with position := ?_, data_eq := ?_ }⟩
    · show b.bufferPosition + n ≤ b.bufferLength
      omega
    · rw [← hdata, buffered, buffered, drop_segment]
      simp only [getRemainingByteCount, Nat.sub_add_eq]

theorem Holds.slice (h : b.Holds size data raw eom) (hn : n ≤ data.length) :
    b.slice b.bufferPosition (b.bufferPosition + n) = .ok (data.take n) := by
  have hrem := h.remaining
  have hlen := h.length
  have hpos := h.position
  have hdata := h.data_eq
  unfold getRemainingByteCount at hrem
  rw [slice_eq_ok (Nat.le_add_right _ _) (by omega), Nat.add_sub_cancel_left, ← hdata, buffered,
    take_segment (by unfold getRemainingByteCount; omega)]

theorem Holds.tryReadArray (h : b.Holds size data raw eom) (hn : n ≤ data.length) :
    ∃ b', b.tryReadArray n = .ok (some (data.take n), b') ∧
      b'.Holds size (data.drop n) raw eom := by
  obtain ⟨b', hrun, hb'⟩ := h.consumeBytes hn
  refine ⟨b', ?_, hb'⟩
  have henough : b.doWeHaveEnoughData n = true := by
    simpa [doWeHaveEnoughData, h.remaining] using hn
  simp only [TdsReadBuffer.tryReadArray, henough, Bool.not_true, Bool.false_eq_true, if_false,
    h.slice hn, hrun]
  rfl

theorem Holds.tryReadArray_none (h : b.Holds size data raw eom) (hn : data.length < n) :
    b.tryReadArray n = .ok (none, b) := by
  have hshort : b.doWeHaveEnoughData n = false := by
    simpa [doWeHaveEnoughData, h.remaining] using hn
  simp [TdsReadBuffer.tryReadArray, hshort]

/-! ### Making room -/

theorem Holds.resetToLength (h : b.Holds size data raw eom) :
    (b.resetToLength 0).Holds size [] raw false :=
  { h with
    position := Nat.le_refl _
    length := Nat.zero_le _
    behind := fun _ => Nat.zero_le _
    data_eq := by simp [buffered, getRemainingByteCount, TdsReadBuffer.resetToLength]
    eom_eq := rfl }

theorem Holds.shiftPending (h : b.Holds size data raw eom) (hpos : b.bufferPosition = 0) :
    ∃ b', b.shiftPending = .ok b' ∧ b'.Holds size data raw eom ∧ b'.bufferPosition = 0 := by
  have hlen := h.length
  have hpend := h.pending
  unfold TdsReadBuffer.shiftPending
  split
  · rename_i hraw
    have hbehind := h.behind hraw
    rw [copyWithin_eq_ok (by omega) (by omega) (by omega)]
    refine ⟨_, rfl, { h with
      capacity := ?_, length := ?_, pending := ?_, behind := ?_,
      data_eq := ?_, raw_eq := ?_ }, hpos⟩
    · simp only [Nat.add_sub_cancel_left]
      rw [length_copySegment hpend (by omega), h.capacity]
    · simp only [Nat.add_sub_cancel_left]
      rw [length_copySegment hpend (by omega)]
      exact hlen
    · simp only [Nat.add_sub_cancel_left]
      rw [length_copySegment hpend (by omega)]
      omega
    · intro _
      exact Nat.le_refl _
    · -- the bytes to read end where the copy begins
      simp only [buffered, getRemainingByteCount, Nat.add_sub_cancel_left, hpos]
      rw [segment_copySegment_before (by omega) hlen, ← h.data_eq, buffered,
        getRemainingByteCount, hpos]
    · simp only [parked, Nat.add_sub_cancel_left]
      rw [segment_copySegment_self hpend (by omega), ← h.raw_eq, parked]
  · exact ⟨b, rfl, h, hpos⟩

theorem Holds.shiftDataToFront (h : b.Holds size data raw eom) :
    ∃ b', b.shiftDataToFront = .ok b' ∧ b'.Holds size data raw eom ∧ b'.bufferPosition = 0 := by
  have hpos := h.position
  have hlen := h.length
  have hpend := h.pending
  have hbehind := h.behind
  unfold TdsReadBuffer.shiftDataToFront
  rw [copyWithin_eq_ok hpos hlen (by omega)]
  refine Holds.shiftPending { h with
    capacity := ?_, position := Nat.zero_le _, length := ?_, pending := ?_, behind := ?_,
    data_eq := ?_, raw_eq := ?_ } rfl
  all_goals dsimp only
  · rw [length_copySegment (by omega) (by omega), h.capacity]
  · rw [length_copySegment (by omega) (by omega), getRemainingByteCount]
    omega
  · rw [length_copySegment (by omega) (by omega)]
    exact hpend
  · intro hraw
    have := hbehind hraw
    unfold getRemainingByteCount
    omega
  · show List.segment 0 (b.getRemainingByteCount - 0) _ = data
    rw [Nat.sub_zero, getRemainingByteCount, segment_copySegment_self (by omega) (by omega)]
    exact h.data_eq
  · -- the raw bytes are behind both the old place and the new one
    show List.segment b.pendingBytesOffset b.pendingBytes _ = raw
    by_cases hraw : 0 < b.pendingBytes
    · have := hbehind hraw
      rw [segment_copySegment_after (by omega) (by omega) (by omega)]
      exact h.raw_eq
    · have hnone : b.pendingBytes = 0 := by omega
      rw [← h.raw_eq, parked, hnone, segment_zero, segment_zero]

end TdsReadBuffer

end MssqlTds
