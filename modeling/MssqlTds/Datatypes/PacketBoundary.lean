import MssqlTds.Datatypes.SerializerFormat
import MssqlTds.Io.MessageFraming

/-!
# Values at packet boundaries

What a value contributes to the payloads of a message should not depend on where in a packet it
starts, nor on the packet size.  `Transparent` states this for one value: the writer still buffers
at most one packet's payload, and once the message is finished, the payloads on the wire have grown
by what was buffered and the bytes `wireValue` gives.

It holds for every value the serializer accepts, except for a nullable float that starts in the
last eight bytes of a packet (`serializeValue_transparent_iff`): its eight bytes are written past
the end of the packet, and the final packet is sent without them.
-/

namespace MssqlTds

open Bytes PacketWriter TdsValueSerializer List

namespace PacketWriter

variable {w w' : PacketWriter}

/-- Payload bytes buffered. -/
def payloadPos (w : PacketWriter) : ℕ := w.payloadCursor.pos - packetHeaderSize

/-- The payloads of the packets handed to the network. -/
def sentPayload (w : PacketWriter) : List UInt8 := w.network.log.flatMap fun r => payload r.packet

theorem Sound.pos_eq (h : Sound w) : w.payloadCursor.pos = w.payloadPos + packetHeaderSize :=
  (Nat.sub_add_cancel h.pos_ge).symm

theorem Sound.payloadPos_le_iff (h : Sound w) :
    w.payloadPos ≤ w.maxPayloadSize ↔ w.payloadCursor.pos ≤ w.packetSize := by
  rw [h.pos_eq, ← h.size_eq, Nat.add_le_add_iff_right]

theorem flatMap_payload_complete (ps : List (List UInt8)) :
    ((ps.map SendRecord.complete).flatMap fun r => payload r.packet) = ps.flatMap payload := by
  rw [flatMap_map]
  rfl

theorem sentPayload_of_steps {ps : List (List UInt8)} {bs : List UInt8} (h : Steps w w' ps bs) :
    w'.sentPayload = w.sentPayload ++ ps.flatten := by
  rw [sentPayload, h.log, flatMap_append, flatMap_payload_complete,
    flatMap_payload_packetsFrom]
  rfl

/-- Finishing the message sends what is still buffered. -/
theorem finalize_sentPayload (h : Ready w) :
    ∃ w', finalize w = .ok () w' ∧ w'.sentPayload = w.sentPayload ++ w.buffered := by
  obtain ⟨w', hrun, hlog⟩ := finalize_log h
  refine ⟨w', hrun, ?_⟩
  rw [sentPayload, hlog, flatMap_append, flatMap_payload_complete]
  split
  · rename_i hempty
    simp [sentPayload, hempty.1]
  · simp [sentPayload, finalPacket]

/-- What a computation emits is behind what was there before, once the message is finished. -/
theorem Emits.sent {m : WriterM Unit} {bs : List UInt8} (hm : Emits m bs) (hw : Ready w)
    (hrun : m w = .ok () w') :
    ∃ w'', finalize w' = .ok () w'' ∧ w''.sentPayload = w.sentPayload ++ w.buffered ++ bs := by
  obtain ⟨w₁, ps, hrun₁, hready, hsteps⟩ := hm w hw
  obtain rfl : w₁ = w' := by
    have := hrun₁.symm.trans hrun
    injection this
  obtain ⟨w'', hfin, hsent⟩ := finalize_sentPayload hready
  refine ⟨w'', hfin, ?_⟩
  rw [hsent, sentPayload_of_steps hsteps, append_assoc, append_assoc, hsteps.stream]

end PacketWriter

section

variable (cs : Codecs) (value : ColumnValues) (ctx : TdsTypeContext) {w w' : PacketWriter}

/-- A value written at `w`, up to `w'`, was cut into packets without loss. -/
structure Transparent (w w' : PacketWriter) : Prop where
  /-- At most one packet is buffered. -/
  position : w'.payloadPos ≤ w'.maxPayloadSize
  /-- The payloads of the finished message are those before, what was buffered, and the value. -/
  stream : ∃ bs w'', wireValue cs value ctx = .ok bs ∧ finalize w' = .ok () w'' ∧
    w''.sentPayload = w.sentPayload ++ w.buffered ++ bs

/-- The value is a nullable float that starts, but for its length byte, in a packet whose end it
crosses; or it starts at the end of a packet of only eight payload bytes. -/
def Straddles (w : PacketWriter) : Prop :=
  ctx.tdsType ≠ TdsDataType.ssVariant.code ∧ isNullableFloat value ctx = true ∧
    w.maxPayloadSize < w.payloadPos + 9 ∧
    (w.payloadPos + 1 < w.maxPayloadSize ∨
      w.payloadPos = w.maxPayloadSize ∧ w.maxPayloadSize = 8)

variable {cs value ctx}

theorem transparent_of_steps {ps : List (List UInt8)} {bs : List UInt8}
    (hwire : wireValue cs value ctx = .ok bs) (hw' : Ready w') (hsteps : Steps w w' ps bs) :
    Transparent cs value ctx w w' := by
  obtain ⟨w'', hfin, hsent⟩ := finalize_sentPayload hw'
  refine ⟨hw'.payloadPos_le_iff.mpr hw'.fits, bs, w'', hwire, hfin, ?_⟩
  rw [hsent, sentPayload_of_steps hsteps, append_assoc, append_assoc, hsteps.stream]

/-- The slow path of a nullable float moves past the packet's end by whatever does not fit. -/
theorem serializeFloat_steps (bits : UInt64) (hctx : ctx.isFixedType = false) (hw : Ready w) :
    ∃ w' ps, serializeFloat bits ctx w = .ok () w' ∧ Sound w' ∧
      Steps w w' ps (8 :: leBytes 8 bits.toNat) ∧
      w'.payloadPos =
        if w.payloadPos + 1 < w.maxPayloadSize then w.payloadPos + 9
        else w.payloadPos + 9 - w.maxPayloadSize := by
  have hsize := hw.size_eq
  have hpos := hw.pos_eq
  rw [serializeFloat, hctx, Bool.not_false, if_pos rfl, writeIfSpace,
    EState.bind_ok EState.get_apply, EState.ite_apply]
  by_cases hspace : w.hasSpace (8 :: leBytes 8 bits.toNat).length = true
  · rw [if_pos hspace]
    rw [hasSpace_iff hw, length_cons, length_leBytes] at hspace
    obtain ⟨w', hrun, hsound, hsteps, hpos'⟩ :=
      writeUnchecked_steps hw.toSound (8 :: leBytes 8 bits.toNat)
    refine ⟨w', [], hrun, hsound, hsteps, ?_⟩
    rw [hsound.pos_eq, length_cons, length_leBytes] at hpos'
    rw [if_pos (by omega)]
    omega
  · rw [if_neg hspace]
    obtain ⟨w₁, ps, hrun₁, hready₁, hsteps₁, hpos₁⟩ := writeChecked_steps hw [8] (by simp)
    obtain ⟨w₂, hrun₂, hsound₂, hsteps₂, hpos₂⟩ :=
      writeUnchecked_steps hready₁.toSound (leBytes 8 bits.toNat)
    refine ⟨w₂, ps ++ [], ?_, hsound₂, hsteps₁.trans hsteps₂, ?_⟩
    · rw [EState.bind_ok (by exact hrun₁)]
      exact hrun₂
    · rw [hsound₂.pos_eq, length_leBytes, hpos₁, length_singleton] at hpos₂
      split at hpos₂
      · rw [if_neg (by omega)]
        omega
      · rw [if_pos (by omega)]
        omega

/-- For a nullable float, all depends on where the writer ends up, that is, on where it started. -/
theorem transparent_float_iff {bits : UInt64} (hvariant : ctx.tdsType ≠ TdsDataType.ssVariant.code)
    (hctx : ctx.isFixedType = false) (hw : Ready w)
    (hrun : serializeValue cs (.float bits) ctx w = .ok () w') :
    Transparent cs (.float bits) ctx w w' ↔ ¬ Straddles (.float bits) ctx w := by
  rw [serializeValue, if_neg hvariant] at hrun
  obtain ⟨w₁, ps, hrun₁, hsound, hsteps, hpos⟩ := serializeFloat_steps bits hctx hw
  obtain rfl : w₁ = w' := by
    have := hrun₁.symm.trans hrun
    injection this
  have hiff : w₁.payloadPos ≤ w₁.maxPayloadSize ↔ ¬ Straddles (.float bits) ctx w := by
    have hle := hw.payloadPos_le_iff.mpr hw.fits
    have hge : 8 ≤ w.maxPayloadSize := by
      have := hw.size_eq
      have := hw.size_ge
      simp only [packetHeaderSize] at *
      omega
    have hfloat : isNullableFloat (.float bits) ctx = true := by simp [isNullableFloat, hctx]
    rw [hsteps.maxPayloadSize, hpos, Straddles]
    simp only [hvariant, hfloat, ne_eq, not_false_eq_true, true_and]
    split <;> omega
  refine ⟨fun h => hiff.mp h.position, fun h => transparent_of_steps ?_ ⟨hsound, ?_⟩ hsteps⟩
  · rw [wireValue, if_neg hvariant, wireValueInner, hctx]
    rfl
  · exact hsound.payloadPos_le_iff.mp (hiff.mpr h)

theorem transparent_of_serializes {m : WriterM Unit} (hw : Ready w)
    (hm : Serializes m (wireValue cs value ctx)) (hrun : m w = .ok () w') :
    Transparent cs value ctx w w' := by
  cases hwire : wireValue cs value ctx with
  | error e =>
    rw [hwire] at hm
    obtain ⟨w'', herr⟩ := hm w hw
    rw [herr] at hrun
    cases hrun
  | ok bs =>
    rw [hwire] at hm
    obtain ⟨w₁, ps, hrun₁, hready, hsteps⟩ := hm w hw
    obtain rfl : w₁ = w' := by
      have := hrun₁.symm.trans hrun
      injection this
    exact transparent_of_steps hwire hready hsteps

theorem serializeValue_serializes
    (h : ctx.tdsType = TdsDataType.ssVariant.code ∨ isNullableFloat value ctx = false) :
    Serializes (serializeValue cs value ctx) (wireValue cs value ctx) := by
  refine .ite (fun _ => serializeAsVariant_serializes cs value ctx none false) ?_
  intro hvariant
  exact serializeValueInner_serializes cs value ctx none false (h.resolve_left hvariant)

theorem transparent_of_not_straddles (hw : Ready w)
    (hrun : serializeValue cs value ctx w = .ok () w') (h : ¬ Straddles value ctx w) :
    Transparent cs value ctx w w' := by
  by_cases hfloat : ctx.tdsType = TdsDataType.ssVariant.code ∨ isNullableFloat value ctx = false
  · exact transparent_of_serializes hw (serializeValue_serializes hfloat) hrun
  · obtain ⟨hvariant, hfloat⟩ := not_or.mp hfloat
    cases value with
    | float bits =>
      exact (transparent_float_iff hvariant (by simpa [isNullableFloat] using hfloat) hw hrun).mpr h
    | _ => exact absurd rfl hfloat

end

/-- **Values and packet boundaries.**  On a packet of at least 16 bytes, from any position inside
it, an accepted value leaves the writer inside a packet and contributes the bytes of its wire
format, exactly if it is not a nullable float that straddles the packet's end. -/
theorem serializeValue_transparent_iff (cs : Codecs) (value : ColumnValues) (ctx : TdsTypeContext)
    (w w' : PacketWriter) (hw : Ready w) (hrun : serializeValue cs value ctx w = .ok () w') :
    Transparent cs value ctx w w' ↔ ¬ Straddles value ctx w := by
  refine ⟨fun htransparent hstraddles => ?_, transparent_of_not_straddles hw hrun⟩
  obtain ⟨hvariant, hfloat, -⟩ := id hstraddles
  cases value with
  | float bits =>
    have hctx : ctx.isFixedType = false := by simpa [isNullableFloat] using hfloat
    exact (transparent_float_iff hvariant hctx hw hrun).mp htransparent hstraddles
  | _ => cases hfloat

/-- The context of a nullable float column. -/
def floatN : TdsTypeContext where
  tdsType := TdsDataType.fltN.code
  maxSize := 8
  isPlp := false
  isFixedLength := false
  precision := none
  scale := none
  collation := none
  isNullable := true

theorem serializeValue_transparent_thirtyTwo :
    ∃ w', serializeValue .latin1 (.float 0x0807060504030201) floatN
        (PacketWriter.new .sqlBatch (readyNetwork 32) none none) = .ok () w' ∧
      Transparent .latin1 (.float 0x0807060504030201) floatN
        (PacketWriter.new .sqlBatch (readyNetwork 32) none none) w' := by
  refine ⟨_, rfl, (serializeValue_transparent_iff _ _ _ _ _ (new_ready _ _ _ (by decide)
    (by decide) fun _ => SendEnv.ready_succeeds) rfl).mpr ?_⟩
  rintro ⟨-, -, hspace, -⟩
  exact absurd hspace (by decide)

/-- At a packet size of 16 a nullable float loses its last byte. -/
theorem float_truncated :
    ∃ w' w'', serializeValue .latin1 (.float 0x0807060504030201) floatN
        (PacketWriter.new .sqlBatch (readyNetwork 16) none none) = .ok () w' ∧
      w'.maxPayloadSize < w'.payloadPos ∧ finalize w' = .ok () w'' ∧
      w''.sentPayload = [8, 1, 2, 3, 4, 5, 6, 7] ∧
      wireValue .latin1 (.float 0x0807060504030201) floatN = .ok [8, 1, 2, 3, 4, 5, 6, 7, 8] :=
  ⟨_, _, rfl, by decide, rfl, by decide, rfl⟩

end MssqlTds
