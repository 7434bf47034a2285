import MssqlTds.Datatypes.Decoder
import MssqlTds.Datatypes.PacketBoundary

/-!
# Decimals on the wire

A decimal is written as its sign and its magnitude, the latter in the 4, 8, 12 or 16 bytes of the
precision its context declares.  The decoder reads it back with that precision and the scale of the
value.  `decimal_faithful_iff` says when sign and magnitude survive: the magnitude has to fit the
width, and the scale must not be larger than the precision.  The serializer checks neither.  A
magnitude that is too large is cut to its low bytes, and another number is stored.
-/

namespace MssqlTds

open Bytes Reader GenericDecoder PacketWriter TdsValueSerializer

def TdsTypeContext.decimalPrecision (ctx : TdsTypeContext) : UInt8 := ctx.precision.getD 38

/-- The magnitude fits the width of the context's precision, and the scale the precision. -/
def DecimalParts.FitsContext (value : DecimalParts) (ctx : TdsTypeContext) : Prop :=
  ∀ n, decimalValueBytes ctx.decimalPrecision = some n →
    value.magnitude.toNat < 256 ^ n ∧ value.scale ≤ ctx.decimalPrecision

/-- The length of a decimal of `written` bytes: it is in front of it, or known from the
`sql_variant` around it. -/
def readDecimalLength (ctx : TdsTypeContext) (written : ℕ) : TdsReader UInt8 :=
  if ctx.isFixedLength then pure (UInt8.ofNat written) else readByte

def readWrittenDecimal (ctx : TdsTypeContext) (scale : UInt8) (written : ℕ) :
    TdsReader (Option DecimalParts) := do
  let length ← readDecimalLength ctx written
  readDecimalData length ctx.decimalPrecision scale

/-- If the value is written, its sign and its magnitude are read back and no byte is left; and if
its magnitude does not fit the width, it is rejected. -/
def FaithfulDecimal (value : DecimalParts) (ctx : TdsTypeContext) (w : PacketWriter) : Prop :=
  (∀ w', serializeDecimal value ctx w = .ok () w' →
    ∃ bs w'' read, finalize w' = .ok () w'' ∧
      w''.sentPayload = w.sentPayload ++ w.buffered ++ bs ∧
      readWrittenDecimal ctx value.scale bs.length bs = .ok (some read, []) ∧
      read.isPositive = value.isPositive ∧ read.magnitude = value.magnitude) ∧
  ∀ n, decimalValueBytes ctx.decimalPrecision = some n → 256 ^ n ≤ value.magnitude.toNat →
    ∃ e w', serializeDecimal value ctx w = .error e w'

variable {value : DecimalParts} {ctx : TdsTypeContext} {w : PacketWriter} {n : ℕ}

/-- The bytes of a decimal behind its length. -/
def decimalBody (value : DecimalParts) (n : ℕ) : List UInt8 :=
  (if value.isPositive then 1 else 0) :: leBytes n value.magnitude.toNat

theorem length_decimalBody : (decimalBody value n).length = n + 1 := by
  rw [decimalBody, List.length_cons, length_leBytes]

theorem serializeDecimal_emits (hn : decimalValueBytes ctx.decimalPrecision = some n) :
    Emits (serializeDecimal value ctx) (wireScalar ctx.isFixedLength (decimalBody value n)) := by
  have hserializes := @serializeDecimal_serializes ctx value
  have hwire : wireDecimal value ctx =
      .ok (wireScalar ctx.isFixedLength (decimalBody value n)) := by
    unfold wireDecimal
    dsimp only
    rw [show ctx.precision.getD 38 = ctx.decimalPrecision from rfl, hn]
    rfl
  rwa [hwire] at hserializes

theorem serializeDecimal_rejects (hn : decimalValueBytes ctx.decimalPrecision = none)
    (hw : Ready w) : ∃ e w', serializeDecimal value ctx w = .error e w' := by
  have hserializes := @serializeDecimal_serializes ctx value
  have hwire : wireDecimal value ctx = .error (invalidPrecision ctx.decimalPrecision) := by
    unfold wireDecimal
    dsimp only
    rw [show ctx.precision.getD 38 = ctx.decimalPrecision from rfl, hn]
  rw [hwire] at hserializes
  exact ⟨_, hserializes w hw⟩

theorem decimalMetadata_valid_iff (hn : decimalValueBytes ctx.decimalPrecision = some n)
    (scale : UInt8) :
    decimalMetadataIsValid ctx.decimalPrecision scale = true ↔ scale ≤ ctx.decimalPrecision := by
  have hrange : 0 < ctx.decimalPrecision ∧ ctx.decimalPrecision ≤ 38 := by
    unfold decimalValueBytes at hn
    simp only [Bool.and_eq_true, decide_eq_true_iff, UInt8.le_iff_toNat_le, UInt8.lt_iff_toNat_lt,
      UInt8.toNat_ofNat] at hn ⊢
    split_ifs at hn <;> omega
  simp [decimalMetadataIsValid, hrange.1, hrange.2]

/-- What the decoder makes of the sign and the magnitude's low bytes. -/
theorem reads_decimalBody (hn : decimalValueBytes ctx.decimalPrecision = some n)
    (hscale : value.scale ≤ ctx.decimalPrecision) :
    Reads (readDecimalData (UInt8.ofNat (n + 1)) ctx.decimalPrecision value.scale)
      (decimalBody value n)
      (some ⟨value.isPositive, value.scale, ctx.decimalPrecision,
        BitVec.ofNat 128 (value.magnitude.toNat % 256 ^ n)⟩) := by
  have hwidth := decimalValueBytes_cases hn
  have hvalid := (decimalMetadata_valid_iff hn value.scale).mpr hscale
  have hsign : ((if value.isPositive then 1 else 0 : UInt8) == 1) = value.isPositive := by
    cases value.isPositive <;> rfl
  have hlen : (UInt8.ofNat (n + 1) - 1).toNat = n ∧ UInt8.ofNat (n + 1) ≠ 0 := by
    rcases hwidth with rfl | rfl | rfl | rfl <;> decide
  unfold readDecimalData
  rw [hvalid]
  simp only [Bool.not_true, Bool.false_eq_true, if_false, hlen.1, if_neg hlen.2]
  refine (reads_readByte _).bind ?_
  rw [if_neg (by omega)]
  refine (reads_readBytes (length_leBytes _ _)).bind_pure ?_
  rw [hsign, ofLe_leBytes]

theorem reads_written (hn : decimalValueBytes ctx.decimalPrecision = some n)
    (hscale : value.scale ≤ ctx.decimalPrecision) :
    Reads (readWrittenDecimal ctx value.scale
        (wireScalar ctx.isFixedLength (decimalBody value n)).length)
      (wireScalar ctx.isFixedLength (decimalBody value n))
      (some ⟨value.isPositive, value.scale, ctx.decimalPrecision,
        BitVec.ofNat 128 (value.magnitude.toNat % 256 ^ n)⟩) := by
  unfold readWrittenDecimal readDecimalLength wireScalar
  cases ctx.isFixedLength with
  | true =>
    simp only [if_true, length_decimalBody]
    exact (Reads.pure _).bind (reads_decimalBody hn hscale)
  | false =>
    simp only [Bool.false_eq_true, if_false, length_decimalBody]
    exact (reads_readByte _).bind (reads_decimalBody hn hscale)

/-- Metadata with a scale above the precision is refused. -/
theorem readWritten_invalid (hn : decimalValueBytes ctx.decimalPrecision = some n) {scale : UInt8}
    (hscale : ¬ scale ≤ ctx.decimalPrecision) (written : ℕ) (bs : List UInt8)
    (r : Option DecimalParts × List UInt8) : readWrittenDecimal ctx scale written bs ≠ .ok r := by
  have hinvalid : decimalMetadataIsValid ctx.decimalPrecision scale = false := by
    rw [← Bool.not_eq_true, decimalMetadata_valid_iff hn]
    exact hscale
  intro h
  obtain ⟨length, rest, -, h⟩ := bind_eq_ok.mp h
  rw [readDecimalData, hinvalid] at h
  cases h

theorem ofNat_mod_eq_iff (m : BitVec 128) (hn : n ≤ 16) :
    BitVec.ofNat 128 (m.toNat % 256 ^ n) = m ↔ m.toNat < 256 ^ n := by
  have hpow : 256 ^ n ≤ 2 ^ 128 := by
    calc 256 ^ n ≤ 256 ^ 16 := Nat.pow_le_pow_right (by decide) hn
      _ = 2 ^ 128 := by decide
  have hmod : m.toNat % 256 ^ n < 256 ^ n := Nat.mod_lt _ (Nat.pow_pos (by decide))
  constructor
  · intro h
    have hnat := congrArg BitVec.toNat h
    rw [BitVec.toNat_ofNat, Nat.mod_eq_of_lt (by omega)] at hnat
    omega
  · intro h
    rw [Nat.mod_eq_of_lt h, BitVec.ofNat_toNat, BitVec.setWidth_eq]

/-- **A decimal survives the wire exactly if its magnitude fits the width of the context's precision
and its scale the precision**, or the context's precision is none that a decimal can have. -/
theorem decimal_faithful_iff (value : DecimalParts) (ctx : TdsTypeContext) (w : PacketWriter)
    (hw : Ready w) : FaithfulDecimal value ctx w ↔ value.FitsContext ctx := by
  cases hn : decimalValueBytes ctx.decimalPrecision with
  | none =>
    -- nothing is written
    obtain ⟨e, w', hrun⟩ := @serializeDecimal_rejects value ctx w hn hw
    refine ⟨fun _ n h => absurd (hn.symm.trans h) (by simp),
      fun _ => ⟨?_, fun _ _ _ => ⟨e, w', hrun⟩⟩⟩
    intro w₁ hok
    rw [hrun] at hok
    cases hok
  | some n =>
    have hwidth := decimalValueBytes_cases hn
    have hemits := @serializeDecimal_emits value ctx n hn
    obtain ⟨w', -, hrun, -, -⟩ := hemits w hw
    obtain ⟨w'', hfin, hsent⟩ := hemits.sent hw hrun
    constructor
    · rintro ⟨hread, -⟩ m hm
      obtain rfl : n = m := Option.some.inj (hn.symm.trans hm)
      obtain ⟨bs, w₁, read, hfin₁, hsent₁, hrun₁, -, hmagnitude⟩ := hread w' hrun
      obtain rfl : w'' = w₁ := by
        have := hfin.symm.trans hfin₁
        injection this
      obtain rfl := List.append_cancel_left (hsent.symm.trans hsent₁)
      have hscale : value.scale ≤ ctx.decimalPrecision := by
        by_contra hscale
        exact readWritten_invalid hn hscale _ _ _ hrun₁
      rw [(reads_written hn hscale).run] at hrun₁
      cases hrun₁
      exact ⟨(ofNat_mod_eq_iff _ (by omega)).mp hmagnitude, hscale⟩
    · intro hfits
      obtain ⟨hmagnitude, hscale⟩ := hfits n hn
      refine ⟨fun w₁ hrun₁ => ?_, fun m hm hlarge => ?_⟩
      · obtain rfl : w' = w₁ := by
          have := hrun.symm.trans hrun₁
          injection this
        exact ⟨_, w'', _, hfin, hsent, (reads_written hn hscale).run, rfl,
          (ofNat_mod_eq_iff _ (by omega)).mpr hmagnitude⟩
      · obtain rfl : n = m := Option.some.inj (hn.symm.trans hm)
        exact absurd hmagnitude (Nat.not_lt.mpr hlarge)

def decimalContext (precision : UInt8) : TdsTypeContext where
  tdsType := TdsDataType.decimalN.code
  maxSize := 17
  isPlp := false
  isFixedLength := false
  precision := some precision
  scale := some 0
  collation := none
  isNullable := true

theorem decimal_faithful_iff_nineDigits :
    FaithfulDecimal ⟨false, 2, 9, 123456789⟩ (decimalContext 9)
      (PacketWriter.new .rpcRequest (readyNetwork 32) none none) := by
  refine (decimal_faithful_iff _ _ _
    (new_ready _ _ _ (by decide) (by decide) fun _ => SendEnv.ready_succeeds)).mpr ?_
  intro n hn
  obtain rfl : 4 = n := Option.some.inj hn
  exact ⟨by decide, by decide⟩

/-- 4294967301, which is 2^32 + 5, is stored in a `decimal(9)` column as 5. -/
theorem decimal_truncated :
    ∃ w' w'', serializeDecimal ⟨true, 0, 10, 4294967301⟩ (decimalContext 9)
        (PacketWriter.new .rpcRequest (readyNetwork 32) none none) = .ok () w' ∧
      finalize w' = .ok () w'' ∧
      readWrittenDecimal (decimalContext 9) 0 w''.sentPayload.length w''.sentPayload
        = .ok (some ⟨true, 0, 9, 5⟩, []) :=
  ⟨_, _, rfl, rfl, rfl⟩

end MssqlTds
