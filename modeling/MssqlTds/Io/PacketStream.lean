import Mathlib.Data.List.Basic
import MssqlTds.Io.SendOutcome

/-!
# The byte stream behind the packets

Undisturbed by the network, a writer is a byte stream cut into packets.  `Steps w w' payloads bs`
says how a call moves a writer from `w` to `w'`: it sent full packets with the given payloads and
consecutive headers, and the payloads followed by the bytes still buffered are the bytes that were
buffered before, followed by `bs`.  Such moves compose (`Steps.trans`).

`Emits m bs` is the resulting specification of a writer method: started with at most one packet's
payload in the buffer, it succeeds, writes exactly `bs`, and leaves at most one packet's payload.
-/

namespace MssqlTds.PacketWriter

open Bytes Cursor EState List

variable {w w₁ w₂ w₃ : PacketWriter}

/-- The payload in the buffer, including what lies past the end of the packet. -/
def buffered (w : PacketWriter) : List UInt8 := w.payloadCursor.region packetHeaderSize

/-- A writer whose sizes are consistent and whose sends all succeed. -/
structure Sound (w : PacketWriter) : Prop where
  size_eq : w.maxPayloadSize + packetHeaderSize = w.packetSize
  size_ge : 16 ≤ w.packetSize
  size_lt : w.packetSize < 2 ^ 31
  succeeds : ∀ k, (w.network.env k).Succeeds
  filled : w.payloadCursor.Filled packetHeaderSize

/-- A sound writer that buffers at most one packet. -/
structure Ready (w : PacketWriter) : Prop extends Sound w where
  fits : w.payloadCursor.pos ≤ w.packetSize

def fullHeader (w : PacketWriter) (id : UInt8) (first : Bool) : List UInt8 :=
  buildHeader w.packetSize w.packetType id false false (if first then w.resetMode else .none)

/-- Non-final packets with the given payloads, headers counting from `id`. -/
def packetsFrom (w : PacketWriter) : UInt8 → Bool → List (List UInt8) → List (List UInt8)
  | _, _, [] => []
  | id, first, p :: ps => (w.fullHeader id first ++ p) :: packetsFrom w (id + 1) false ps

/-- The writer moved from `w` to `w'` by sending `payloads` and writing `bs`. -/
structure Steps (w w' : PacketWriter) (payloads : List (List UInt8)) (bs : List UInt8) :
    Prop where
  packetType : w'.packetType = w.packetType
  maxPayloadSize : w'.maxPayloadSize = w.maxPayloadSize
  packetSize : w'.packetSize = w.packetSize
  resetMode : w'.resetMode = w.resetMode
  env : w'.network.env = w.network.env
  full : ∀ p ∈ payloads, p.length = w.maxPayloadSize
  log : w'.network.log = w.network.log ++
    (w.packetsFrom w.packetId w.isFirstPacket payloads).map SendRecord.complete
  packetId : w'.packetId = w.packetId + UInt8.ofNat payloads.length
  isFirstPacket : w'.isFirstPacket = (w.isFirstPacket && payloads.isEmpty)
  eomPending : w'.eomPending = (w.eomPending || !payloads.isEmpty)
  stream : payloads.flatten ++ w'.buffered = w.buffered ++ bs

/-- `m` succeeds and writes `bs`, from any writer that buffers at most one packet. -/
def Emits (m : WriterM Unit) (bs : List UInt8) : Prop :=
  ∀ w, Ready w → ∃ w' payloads, m w = .ok () w' ∧ Ready w' ∧ Steps w w' payloads bs

/-! ### Moves compose -/

theorem packetsFrom_congr (ht : w₂.packetType = w₁.packetType) (hs : w₂.packetSize = w₁.packetSize)
    (hr : w₂.resetMode = w₁.resetMode) : w₂.packetsFrom = w₁.packetsFrom := by
  funext id first ps
  induction ps generalizing id first with
  | nil => rfl
  | cons p ps ih => simp only [packetsFrom, fullHeader, ht, hs, hr, ih]

theorem packetsFrom_append (id : UInt8) (first : Bool) (ps qs : List (List UInt8)) :
    w.packetsFrom id first (ps ++ qs) = w.packetsFrom id first ps ++
      w.packetsFrom (id + UInt8.ofNat ps.length) (first && ps.isEmpty) qs := by
  induction ps generalizing id first with
  | nil => simp [packetsFrom]
  | cons p ps ih =>
    have hid : id + 1 + UInt8.ofNat ps.length = id + UInt8.ofNat (ps.length + 1) := by
      rw [UInt8.ofNat_add, UInt8.add_assoc, UInt8.add_comm (UInt8.ofNat ps.length)]
      rfl
    simp [packetsFrom, ih, hid]

theorem Steps.refl (w : PacketWriter) : Steps w w [] [] := by
  constructor <;> simp [packetsFrom]

theorem Steps.trans {ps qs : List (List UInt8)} {bs cs : List UInt8} (h₁ : Steps w₁ w₂ ps bs)
    (h₂ : Steps w₂ w₃ qs cs) : Steps w₁ w₃ (ps ++ qs) (bs ++ cs) where
  packetType := h₂.packetType.trans h₁.packetType
  maxPayloadSize := h₂.maxPayloadSize.trans h₁.maxPayloadSize
  packetSize := h₂.packetSize.trans h₁.packetSize
  resetMode := h₂.resetMode.trans h₁.resetMode
  env := h₂.env.trans h₁.env
  full p hp := by
    rcases mem_append.mp hp with hp | hp
    · exact h₁.full p hp
    · exact (h₂.full p hp).trans h₁.maxPayloadSize
  log := by
    rw [h₂.log, h₁.log, packetsFrom_congr h₁.packetType h₁.packetSize h₁.resetMode,
      packetsFrom_append, h₁.packetId, h₁.isFirstPacket, append_assoc, map_append]
  packetId := by
    rw [h₂.packetId, h₁.packetId, length_append, UInt8.ofNat_add, UInt8.add_assoc]
  isFirstPacket := by
    rw [h₂.isFirstPacket, h₁.isFirstPacket, Bool.and_assoc]
    cases ps <;> rfl
  eomPending := by
    rw [h₂.eomPending, h₁.eomPending, Bool.or_assoc]
    cases ps <;> rfl
  stream := by
    rw [flatten_append, append_assoc, h₂.stream, ← append_assoc, h₁.stream,
      append_assoc]

theorem Emits.bind {m₁ m₂ : WriterM Unit} {bs cs : List UInt8} (h₁ : Emits m₁ bs)
    (h₂ : Emits m₂ cs) : Emits (m₁ >>= fun _ => m₂) (bs ++ cs) := by
  intro w hw
  obtain ⟨w₁, ps, hrun₁, hw₁, hs₁⟩ := h₁ w hw
  obtain ⟨w₂, qs, hrun₂, hw₂, hs₂⟩ := h₂ w₁ hw₁
  exact ⟨w₂, ps ++ qs, by rw [bind_ok hrun₁, hrun₂], hw₂, hs₁.trans hs₂⟩

theorem Emits.pure : Emits (pure ()) [] := fun w hw => ⟨w, [], rfl, hw, Steps.refl w⟩

/-! ### Buffering and flushing -/

/-- The position of a writer that has not run far past its packet. -/
theorem position_eq (h : w.payloadCursor.pos - packetHeaderSize < 2 ^ 31) :
    w.position = (w.payloadCursor.pos - packetHeaderSize : ℕ) :=
  asI32_of_lt h

theorem asUsize_position (h : w.payloadCursor.pos - packetHeaderSize < 2 ^ 31) :
    asUsize w.position = w.payloadCursor.pos - packetHeaderSize := by
  rw [position_eq h]
  exact asUsize_natCast (by omega)

theorem length_buffered (h : Sound w) :
    w.buffered.length = w.payloadCursor.pos - packetHeaderSize :=
  length_region h.filled

/-- Moving only the cursor, by writes of `bs`. -/
theorem steps_of_extends {c : Cursor} {bs : List UInt8} (h : Sound w)
    (hc : w.payloadCursor.Extends c bs) :
    Sound { w with payloadCursor := c } ∧ Steps w { w with payloadCursor := c } [] bs := by
  obtain ⟨hfilled, hregion⟩ := hc.2 _ h.filled
  refine ⟨⟨h.size_eq, h.size_ge, h.size_lt, h.succeeds, hfilled⟩, ?_⟩
  constructor <;> simp [packetsFrom, buffered, hregion]

theorem length_buildHeader (n : ℕ) (t : PacketType) (id : UInt8) (l i : Bool)
    (r : ResetConnectionMode) : (buildHeader n t id l i r).length = packetHeaderSize := rfl

/-- Framing a packet leaves the payload behind the header alone. -/
theorem drop_framedCursor (l i : Bool) :
    (w.framedCursor l i).buf.drop packetHeaderSize = w.payloadCursor.buf.drop packetHeaderSize := by
  rw [framedCursor, write_zero rfl, length_buildHeader, setPosition_buf,
    drop_left' (length_buildHeader _ _ _ _ _ _)]

theorem region_framedCursor (l i : Bool) :
    ((w.framedCursor l i).setPosition w.payloadCursor.pos).region packetHeaderSize =
      w.buffered := by
  simp only [buffered, region, setPosition_pos, setPosition_buf, drop_take,
    drop_framedCursor]

/-- A packet is its header and what stands behind it in the buffer. -/
theorem packet_eq_header (l i : Bool) (h : packetHeaderSize ≤ w.packetLength i) :
    w.packet l i =
      buildHeader (w.packetLength i) w.packetType w.packetId l i w.headerResetMode ++
        (w.payloadCursor.buf.drop packetHeaderSize).take (w.packetLength i - packetHeaderSize) := by
  have hbuf : (w.framedCursor l i).buf =
      buildHeader (w.packetLength i) w.packetType w.packetId l i w.headerResetMode ++
        w.payloadCursor.buf.drop packetHeaderSize := by
    rw [framedCursor, write_zero rfl, length_buildHeader, setPosition_buf]
  rw [packet, hbuf, take_append, length_buildHeader, take_of_length_le]
  exact h

/-- A packet with payload is its header and the payload that fits behind it. -/
theorem packet_eq (l : Bool) (h : packetHeaderSize ≤ w.packetLength false) :
    w.packet l false =
      buildHeader (w.packetLength false) w.packetType w.packetId l false w.headerResetMode ++
        w.buffered.take (w.packetLength false - packetHeaderSize) := by
  have hle : w.packetLength false ≤ w.payloadCursor.pos := by
    simp only [packetLength, savedPosition, Bool.false_eq_true, if_false]
    split <;> omega
  rw [packet_eq_header l false h, buffered, region, drop_take, take_take,
    Nat.min_eq_left (Nat.sub_le_sub_right hle _)]

@[simp] theorem mapCursor_apply (f : Cursor → Cursor) :
    mapCursor f w = .ok () { w with payloadCursor := f w.payloadCursor } := rfl

theorem accounted_payloadCursor (l : Bool) : (w.accounted l false).payloadCursor =
    (w.framedCursor l false).setPosition w.payloadCursor.pos := by
  simp [accounted, savedPosition]

/-- Sending a full packet and keeping in the buffer what lies past its end. -/
theorem flush_steps {c : Cursor} (h : Sound w) (hfull : w.packetSize ≤ w.payloadCursor.pos)
    (hc : c.Filled packetHeaderSize)
    (hregion : c.region packetHeaderSize = w.buffered.drop w.maxPayloadSize) :
    Sound { w.accounted false false with payloadCursor := c } ∧
      Steps w { w.accounted false false with payloadCursor := c }
        [w.buffered.take w.maxPayloadSize] [] := by
  have hlen : w.packetLength false = w.packetSize := by
    simp only [packetLength, savedPosition, Bool.false_eq_true, if_false]
    split <;> omega
  have hmax : w.packetSize - packetHeaderSize = w.maxPayloadSize := by
    rw [← h.size_eq, Nat.add_sub_cancel]
  have hpayload : (w.buffered.take w.maxPayloadSize).length = w.maxPayloadSize := by
    rw [length_take, length_buffered h]
    omega
  have hpacket := packet_eq (w := w) false (by have := h.size_ge; simp [packetHeaderSize]; omega)
  rw [hlen, hmax] at hpacket
  refine ⟨⟨h.size_eq, h.size_ge, h.size_lt, h.succeeds, hc⟩, ?_⟩
  constructor
  case stream => simp [buffered, hregion]
  case log =>
    simp [accounted, completed, hpacket, packetsFrom, fullHeader, headerResetMode,
      SendRecord.complete]
  case full => simpa using hpayload
  all_goals simp [accounted, completed, framed]

theorem Sound.pos_ge (h : Sound w) : packetHeaderSize ≤ w.payloadCursor.pos := h.filled.1

/-- The overflow test asks whether the packet is full. -/
theorem position_ge_iff (h : Sound w) (hpos : w.payloadCursor.pos ≤ w.packetSize + 8) :
    w.position ≥ asI32 w.maxPayloadSize ↔ w.packetSize ≤ w.payloadCursor.pos := by
  have hge := h.size_ge
  have heq := h.size_eq
  have hlt := h.size_lt
  simp only [packetHeaderSize] at heq
  rw [position_eq (by simp only [packetHeaderSize]; omega), asI32_of_lt (by omega)]
  simp only [packetHeaderSize]
  omega

/-- A full packet is sent, and the bytes past its end are moved to the front. -/
theorem handleOverflow_steps (h : Sound w) (hpos : w.payloadCursor.pos ≤ w.packetSize + 8) :
    ∃ w' ps, handleOverflowIfNeeded w = .ok () w' ∧ Ready w' ∧ Steps w w' ps [] ∧
      w'.payloadCursor.pos =
        if w.packetSize ≤ w.payloadCursor.pos then w.payloadCursor.pos - w.maxPayloadSize
        else w.payloadCursor.pos := by
  have hge := h.size_ge
  have heq := h.size_eq
  rw [handleOverflowIfNeeded, bind_ok get_apply, EState.ite_apply]
  by_cases hfull : w.packetSize ≤ w.payloadCursor.pos
  · rw [if_pos ((position_ge_iff h hpos).mpr hfull),
      bind_ok (populateHeaderAndSend_ok rfl (h.succeeds _)), moveOverflow,
      bind_ok get_apply, EState.ite_apply, accounted_payloadCursor]
    have hsize : (w.accounted false false).packetSize = w.packetSize := rfl
    rw [hsize, if_neg (by exact not_lt.mpr hfull), mapCursor_apply, accounted_payloadCursor]
    -- the cursor is back at its position, with the header now in front of the payload
    have hframed : ((w.framedCursor false false).setPosition w.payloadCursor.pos).Filled
        packetHeaderSize := by
      have := h.filled
      simp only [Cursor.Filled, setPosition_pos, setPosition_buf, framedCursor,
        length_write] at this ⊢
      omega
    obtain ⟨hc, hregion⟩ := region_copyWithin
      (n := w.payloadCursor.pos - w.packetSize) w.packetSize hframed
      (by simp only [packetHeaderSize]; omega)
      (by simp only [setPosition_pos]; omega)
      (by simp only [packetHeaderSize, setPosition_pos]; omega)
    rw [region_framedCursor, ← heq, Nat.add_sub_cancel, heq] at hregion
    obtain ⟨hsound, hsteps⟩ := flush_steps h hfull hc hregion
    refine ⟨_, _, rfl, ⟨hsound, ?_⟩, hsteps, ?_⟩
    · rw [hsteps.packetSize]
      simp only [packetHeaderSize, setPosition_pos] at heq ⊢
      omega
    · rw [if_pos hfull]
      simp only [packetHeaderSize, setPosition_pos] at heq ⊢
      omega
  · rw [if_neg (mt (position_ge_iff h hpos).mp hfull), if_neg hfull]
    exact ⟨w, [], rfl, ⟨h, by omega⟩, Steps.refl w, rfl⟩

theorem Ready.pos_sub_lt (h : Ready w) : w.payloadCursor.pos - packetHeaderSize < 2 ^ 31 :=
  lt_of_le_of_lt (le_trans (Nat.sub_le _ _) h.fits) h.size_lt

theorem hasSpace_iff (h : Ready w) (n : ℕ) :
    w.hasSpace n = true ↔ w.payloadCursor.pos + n ≤ w.packetSize := by
  have heq := h.size_eq
  have hpos := h.pos_ge
  rw [hasSpace, asUsize_position h.pos_sub_lt, decide_eq_true_eq]
  omega

theorem packetSpaceLeft_eq (h : Ready w) :
    w.packetSpaceLeft = w.packetSize - w.payloadCursor.pos := by
  have heq := h.size_eq
  have hpos := h.pos_ge
  have hfits := h.fits
  rw [packetSpaceLeft, asUsize_position h.pos_sub_lt, usizeSub, if_pos (by omega)]
  omega

/-! ### Specifications of the writes -/

theorem writeUnchecked_steps (h : Sound w) (bs : List UInt8) :
    ∃ w', writeUnchecked bs w = .ok () w' ∧ Sound w' ∧ Steps w w' [] bs ∧
      w'.payloadCursor.pos = w.payloadCursor.pos + bs.length :=
  have hs := steps_of_extends h (extends_write bs)
  ⟨_, mapCursor_apply _, hs.1, hs.2, rfl⟩

/-- An unchecked write that ends inside the packet. -/
theorem writeUnchecked_ready (h : Ready w) (bs : List UInt8)
    (hfits : w.payloadCursor.pos + bs.length ≤ w.packetSize) :
    ∃ w', writeUnchecked bs w = .ok () w' ∧ Ready w' ∧ Steps w w' [] bs ∧
      w'.payloadCursor.pos = w.payloadCursor.pos + bs.length := by
  obtain ⟨w', hrun, hsound, hsteps, hpos⟩ := writeUnchecked_steps h.toSound bs
  exact ⟨w', hrun, ⟨hsound, by rw [hsteps.packetSize, hpos]; exact hfits⟩, hsteps, hpos⟩

theorem writeChecked_steps (hw : Ready w) (bs : List UInt8) (hbs : bs.length ≤ 8) :
    ∃ w' ps, writeChecked bs w = .ok () w' ∧ Ready w' ∧ Steps w w' ps bs ∧
      w'.payloadCursor.pos =
        if w.packetSize ≤ w.payloadCursor.pos + bs.length then
          w.payloadCursor.pos + bs.length - w.maxPayloadSize
        else w.payloadCursor.pos + bs.length := by
  have hfits := hw.fits
  obtain ⟨w₁, hrun, hsound, hsteps, hpos⟩ := writeUnchecked_steps hw.toSound bs
  obtain ⟨w₂, ps, hrun₂, hready, hsteps₂, hpos₂⟩ := handleOverflow_steps hsound
    (by rw [hsteps.packetSize, hpos]; omega)
  have hs := hsteps.trans hsteps₂
  rw [append_nil] at hs
  rw [hsteps.packetSize, hsteps.maxPayloadSize, hpos] at hpos₂
  exact ⟨w₂, [] ++ ps, by rw [writeChecked, bind_ok hrun, hrun₂], hready, hs, hpos₂⟩

theorem Emits.checked {bs : List UInt8} (hbs : bs.length ≤ 8) :
    Emits (writeChecked bs) bs := by
  intro w hw
  obtain ⟨w', ps, hrun, hready, hsteps, -⟩ := writeChecked_steps hw bs hbs
  exact ⟨w', ps, hrun, hready, hsteps⟩

theorem Emits.byte (v : UInt8) : Emits (writeByteAsync v) [v] :=
  Emits.checked (by simp)

theorem Emits.forM_byte (bs : List UInt8) : Emits (bs.forM writeByteAsync) bs := by
  induction bs with
  | nil => exact .pure
  | cons b bs ih => exact (Emits.byte b).bind ih

theorem Emits.fixedBytes (bs : List UInt8) : Emits (writeFixedBytes bs) bs := by
  intro w hw
  rw [writeFixedBytes, bind_ok get_apply, EState.ite_apply]
  by_cases h : w.hasSpace (bs.length + 1) = true
  · rw [if_pos h]
    rw [hasSpace_iff hw] at h
    obtain ⟨w', hrun, hready, hsteps, -⟩ := writeUnchecked_ready hw bs (by omega)
    exact ⟨w', [], hrun, hready, hsteps⟩
  · rw [if_neg h]
    exact Emits.forM_byte bs w hw

/-- Send a packet that is exactly full and start the next one. -/
def flushFull : WriterM Unit := do
  populateHeaderAndSend false false
  mapCursor (·.setPosition packetHeaderSize)

theorem flushFull_steps (h : Ready w) (hfull : w.payloadCursor.pos = w.packetSize) :
    ∃ w' ps, flushFull w = .ok () w' ∧ Ready w' ∧ Steps w w' ps [] ∧
      w'.payloadCursor.pos = packetHeaderSize := by
  have hge := h.size_ge
  have hbuf : w.buffered.drop w.maxPayloadSize = [] := by
    apply drop_of_length_le
    rw [length_buffered h.toSound, hfull, ← h.size_eq, Nat.add_sub_cancel]
  obtain ⟨hsound, hsteps⟩ := flush_steps (c := (w.framedCursor false false).setPosition _) h.toSound
    hfull.ge filled_setPosition_self (by rw [hbuf, region_setPosition_self])
  refine ⟨_, _, ?_, ⟨hsound, ?_⟩, hsteps, rfl⟩
  · rw [flushFull, bind_ok (populateHeaderAndSend_ok rfl (h.succeeds _)), mapCursor_apply]
    rfl
  · rw [hsteps.packetSize]
    simp only [packetHeaderSize, setPosition_pos]
    omega

theorem flushFull_bind {f : WriterM Unit} :
    (populateHeaderAndSend false false >>= fun _ =>
      mapCursor (·.setPosition packetHeaderSize) >>= fun _ => f) = flushFull >>= fun _ => f := by
  rw [flushFull, bind_assoc]

theorem writeLoop_emits (fuel : ℕ) (remaining : List UInt8) (h : Ready w)
    (hfuel : remaining.length + (if w.payloadCursor.pos = w.packetSize then 1 else 0) < fuel) :
    ∃ w' ps, writeLoop fuel remaining w = .ok () w' ∧ Ready w' ∧ Steps w w' ps remaining := by
  -- a round that flushes an exactly full packet consumes nothing, but leaves the buffer empty
  induction fuel generalizing w remaining with
  | zero => omega
  | succ fuel ih =>
    rw [writeLoop, EState.ite_apply]
    by_cases hnil : remaining = []
    · rw [if_neg (not_not.mpr hnil), hnil]
      exact ⟨w, [], rfl, h, Steps.refl w⟩
    have hge := h.size_ge
    have hfits := h.fits
    rw [if_pos hnil, bind_ok get_apply, packetSpaceLeft_eq h, EState.ite_apply]
    generalize hspace : w.packetSize - w.payloadCursor.pos = space
    by_cases hlt : space < remaining.length
    · rw [if_pos hlt, flushFull_bind]
      have htake : (remaining.take space).length = space := length_take_of_le hlt.le
      obtain ⟨w₁, hrun₁, hready₁, hsteps₁, hpos₁⟩ :=
        writeUnchecked_ready h (remaining.take space) (by rw [htake]; omega)
      obtain ⟨w₂, ps, hrun₂, hready₂, hsteps₂, hpos₂⟩ :=
        flushFull_steps hready₁ (by rw [hpos₁, hsteps₁.packetSize]; omega)
      have hsize : w₂.packetSize = w.packetSize := hsteps₂.packetSize.trans hsteps₁.packetSize
      have hempty : w₂.payloadCursor.pos ≠ w₂.packetSize := by
        rw [hpos₂, hsize]
        simp only [packetHeaderSize]
        omega
      obtain ⟨w₃, qs, hrun₃, hready₃, hsteps₃⟩ := ih (w := w₂) (remaining.drop space) hready₂ (by
        rw [if_neg hempty, length_drop]
        split at hfuel <;> omega)
      refine ⟨w₃, [] ++ ps ++ qs, ?_, hready₃, ?_⟩
      · rw [bind_ok hrun₁, bind_ok hrun₂, hrun₃]
      · have hs := (hsteps₁.trans hsteps₂).trans hsteps₃
        rwa [append_nil, take_append_drop] at hs
    · rw [if_neg hlt]
      obtain ⟨w₁, hrun₁, hready₁, hsteps₁, -⟩ :=
        writeUnchecked_ready h remaining (by omega)
      exact ⟨w₁, [], hrun₁, hready₁, hsteps₁⟩

theorem Emits.slice (content : List UInt8) : Emits (writeAsync content) content := by
  intro w hw
  exact writeLoop_emits _ content hw (by split <;> omega)

/-- Two single-byte writes put one unit on the stream. -/
theorem writeUnit_emits (unit : UInt16) :
    Emits (do
      writeByteAsync (UInt8.ofNat unit.toNat)
      writeByteAsync (UInt8.ofNat (unit.toNat / 256))) (Unicode.unitLe unit) :=
  (Emits.byte _).bind (Emits.byte _)

/-- A run of units written into the packet, which is sent if they fill it. -/
theorem writeUnits_emits (h : Ready w) (units : Utf16Units) {n : ℕ}
    (hn : w.payloadCursor.pos + 2 * n ≤ w.packetSize) :
    let r := units.writeLe w.payloadCursor n
    ∃ w' ps, (mapCursor (fun _ => r.2.1) >>= fun _ =>
        if r.1 > 0 then checkOverflow else pure ()) w = .ok () w' ∧ Ready w' ∧
      Steps w w' ps (Unicode.unitsLe (units.units.take n)) := by
  obtain ⟨hcount, hext, -⟩ := units.writeLe_spec w.payloadCursor n
  intro r
  obtain ⟨hsound, hsteps⟩ := steps_of_extends h.toSound hext
  have hlen : (Unicode.unitsLe (units.units.take n)).length ≤ 2 * n := by
    rw [Unicode.length_unitsLe, length_take]
    omega
  have hpos : r.2.1.pos ≤ w.packetSize := by
    rw [hext.1]
    omega
  by_cases hr : r.1 > 0
  · rw [if_pos hr]
    obtain ⟨w₂, ps, hrun, hready, hsteps₂, -⟩ := handleOverflow_steps hsound (by
      exact le_trans hpos (Nat.le_add_right _ _))
    have hs := hsteps.trans hsteps₂
    rw [append_nil] at hs
    exact ⟨w₂, [] ++ ps, hrun, hready, hs⟩
  · rw [if_neg hr]
    exact ⟨_, [], rfl, ⟨hsound, by rw [hsteps.packetSize]; exact hpos⟩, hsteps⟩

theorem writeStringLoop_emits (fuel : ℕ) (units : Utf16Units) (h : Ready w)
    (hfuel : 2 * units.units.length +
      (if w.payloadCursor.pos = w.packetSize then 1 else 0) < fuel) :
    ∃ w' ps, writeStringLoop fuel units w = .ok () w' ∧ Ready w' ∧
      Steps w w' ps (Unicode.unitsLe units.units) := by
  -- every round but the flush of an exactly full packet consumes a unit or ends the loop
  induction fuel generalizing w units with
  | zero => omega
  | succ fuel ih =>
    have hge := h.size_ge
    have hfits := h.fits
    rw [writeStringLoop, bind_ok get_apply]
    rw [packetSpaceLeft_eq h, EState.ite_apply]
    generalize hspace : w.packetSize - w.payloadCursor.pos = space
    by_cases hhalf : space / 2 = 0
    · rw [if_pos hhalf, EState.ite_apply]
      by_cases hone : space = 1
      · -- one byte is left: the unit is split over two packets
        obtain ⟨hhead, htail⟩ := units.nextUnit_spec
        rw [if_pos hone]
        rcases hnext : units.nextUnit with ⟨_ | unit, units'⟩
        · rw [hnext] at hhead
          have hnil : units.units = [] := List.head?_eq_none_iff.mp hhead.symm
          rw [hnil]
          exact ⟨w, [], rfl, h, Steps.refl w⟩
        · rw [hnext] at hhead htail
          have hcons : units.units = unit :: units'.units := by
            rw [htail]
            exact eq_cons_of_mem_head? hhead.symm
          obtain ⟨w₁, ps, hrun₁, hready₁, hsteps₁⟩ := writeUnit_emits unit w h
          obtain ⟨w₂, qs, hrun₂, hready₂, hsteps₂⟩ := ih (w := w₁) units' hready₁ (by
            rw [hcons, length_cons] at hfuel
            split <;> omega)
          refine ⟨w₂, ps ++ qs, ?_, hready₂, by rw [hcons]; exact hsteps₁.trans hsteps₂⟩
          dsimp only
          rw [← bind_assoc, bind_ok hrun₁, hrun₂]
      · rw [if_neg hone, flushFull_bind]
        have hfull : w.payloadCursor.pos = w.packetSize := by omega
        obtain ⟨w₁, ps, hrun₁, hready₁, hsteps₁, hpos₁⟩ := flushFull_steps h hfull
        have hempty : w₁.payloadCursor.pos ≠ w₁.packetSize := by
          rw [hpos₁, hsteps₁.packetSize]
          simp only [packetHeaderSize]
          omega
        rw [if_pos hfull] at hfuel
        obtain ⟨w₂, qs, hrun₂, hready₂, hsteps₂⟩ := ih (w := w₁) units hready₁ (by
          rw [if_neg hempty]
          omega)
        exact ⟨w₂, ps ++ qs, by rw [bind_ok hrun₁, hrun₂], hready₂, hsteps₁.trans hsteps₂⟩
    · rw [if_neg hhalf]
      obtain ⟨hcount, -, hunits⟩ := units.writeLe_spec w.payloadCursor (space / 2)
      obtain ⟨w₁, ps, hrun₁, hready₁, hsteps₁⟩ :=
        writeUnits_emits h units (n := space / 2) (by omega)
      generalize units.writeLe w.payloadCursor (space / 2) = r at hcount hunits hrun₁ ⊢
      obtain ⟨written, cursor, units'⟩ := r
      dsimp only at hcount hunits hrun₁ ⊢
      rw [when_bind, ← bind_assoc, bind_ok hrun₁, EState.ite_apply]
      by_cases hend : written < space / 2
      · rw [if_pos hend]
        rw [take_of_length_le (by omega)] at hsteps₁
        exact ⟨w₁, ps, rfl, hready₁, hsteps₁⟩
      · rw [if_neg hend]
        obtain ⟨w₂, qs, hrun₂, hready₂, hsteps₂⟩ := ih (w := w₁) units' hready₁ (by
          rw [hunits, length_drop]
          split <;> omega)
        refine ⟨w₂, ps ++ qs, hrun₂, hready₂, ?_⟩
        have hs := hsteps₁.trans hsteps₂
        rwa [hunits, ← Unicode.unitsLe_append, take_append_drop] at hs

theorem Emits.string (value : List Char) :
    Emits (writeStringUnicodeAsync value) (Unicode.utf16le value) := by
  intro w hw
  exact writeStringLoop_emits _ (Utf16Units.new value) hw (by
    rw [Utf16Units.units_new]
    split <;> omega)

end MssqlTds.PacketWriter
