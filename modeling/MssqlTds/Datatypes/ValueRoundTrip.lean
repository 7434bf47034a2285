import MssqlTds.Datatypes.PacketBoundary
import MssqlTds.Datatypes.WireDecoding

/-!
# Typed values survive the wire

A value that is not a string, a variant or a decimal is written in a context of its nullable wire
type and read back with the metadata of the column the context describes
(`TdsTypeContext.columnMetadata`).  `typed_value_roundTrip` says that the decoder returns the value,
with a temporal value cut off at its scale, and takes exactly the bytes that were written.

The wire has to have room for the value (`HasRoom`): nothing stops a caller from a `datetime2` past
the 24 bits of its date, which comes back as another day, or from a `varbinary` of 65535 bytes,
which is taken for `NULL`.
-/

namespace MssqlTds

open Bytes Reader GenericDecoder PacketWriter TdsValueSerializer TypeInfo List

/-! ### The column of a context -/

def ColumnValues.scale : ColumnValues → Option UInt8
  | .time v => some v.scale
  | .dateTime2 v => some v.time.scale
  | .dateTimeOffset v => some v.datetime2.time.scale
  | .decimal v | .numeric v => some v.scale
  | _ => none

namespace TdsTypeContext

variable (ctx : TdsTypeContext) (value : ColumnValues)

/-- The scale of the column: that of the value, or of the context, or the default of 7. -/
def columnScale : UInt8 := (value.scale.or ctx.scale).getD 7

def typeInfo : TdsResult TypeInfo := do
  let t ← TdsDataType.tryFrom ctx.tdsType
  if ctx.isPlp then partialLen t 0xFFFF ctx.collation
  else match t with
    | .timeN | .dateTime2N | .dateTimeOffsetN =>
      varLenScale t ctx.maxSize (ctx.columnScale value)
    | .decimalN | .numericN =>
      varLenPrecisionScale t ctx.maxSize (ctx.precision.getD 38) (ctx.columnScale value)
    | .nVarChar | .nChar => varLenString t (2 * ctx.maxSize) ctx.collation
    | .bigVarChar | .bigChar | .text | .nText => varLenString t ctx.maxSize ctx.collation
    | _ => varLen t ctx.maxSize

def columnMetadata : TdsResult ColumnMetadata := do
  let info ← ctx.typeInfo value
  pure ⟨info, info.tdsType, "", none⟩

end TdsTypeContext

variable {t : TdsDataType}

theorem TypesIn.tryFrom_ok {ts : List TdsDataType} {x : TypesIn ts}
    (h : TypesIn.tryFrom t = .ok x) : x.val = t := by
  unfold TypesIn.tryFrom at h
  split at h
  · exact congrArg Subtype.val (Except.ok.inj h).symm
  · cases h

theorem TypeInfo.build_ok {tdsType : TdsDataType} {length : ℕ} {ts allowed : List TdsDataType}
    {name : String} {variant : TypesIn ts → TypeInfoVariant} {info : TypeInfo}
    (h : build tdsType length allowed name variant = .ok info) :
    ∃ t, info = ⟨tdsType, length, variant t⟩ := by
  obtain ⟨t, -, h⟩ := EState.result_bind_eq_ok.mp h
  split at h
  · exact ⟨t, (Except.ok.inj h).symm⟩
  · cases h

variable {ctx : TdsTypeContext} {value : ColumnValues} {metadata : ColumnMetadata}

/-- What a decoder asks of the metadata of a context. -/
structure Describes (metadata : ColumnMetadata) (ctx : TdsTypeContext) (value : ColumnValues)
    (t : TdsDataType) : Prop where
  dataType : metadata.dataType = t
  isPlp : metadata.isPlp = ctx.isPlp
  plpType : ctx.isPlp = true → t ∈ [.xml, .bigVarChar, .bigVarBinary, .nVarChar, .udt, .json]
  getScale : t ∈ [.timeN, .dateTime2N, .dateTimeOffsetN] →
    metadata.getScale = some (ctx.columnScale value)

theorem describes_of_columnMetadata (ht : t ≠ .none)
    (hcode : t.code = ctx.tdsType) (h : ctx.columnMetadata value = .ok metadata) :
    Describes metadata ctx value t := by
  obtain ⟨info, hinfo, h⟩ := EState.result_bind_eq_ok.mp h
  obtain rfl : ColumnMetadata.mk info info.tdsType "" none = metadata := Except.ok.inj h
  unfold TdsTypeContext.typeInfo at hinfo
  rw [← hcode, TdsDataType.tryFrom_code ht] at hinfo
  change (if ctx.isPlp = true then _ else _) = _ at hinfo
  by_cases hplp : ctx.isPlp = true
  · rw [if_pos hplp] at hinfo
    obtain ⟨p, hp, hinfo⟩ := EState.result_bind_eq_ok.mp hinfo
    obtain rfl := Except.ok.inj hinfo
    have hmem := TypesIn.tryFrom_ok hp ▸ p.property
    refine ⟨rfl, hplp.symm, fun _ => hmem, fun hscale => ?_⟩
    simp only [mem_cons, not_mem_nil, or_false] at hscale
    rcases hscale with rfl | rfl | rfl <;> simp at hmem
  · rw [if_neg hplp] at hinfo
    rw [Bool.not_eq_true] at hplp
    refine ⟨?_, ?_, fun h => by simp [hplp] at h, fun hscale => ?_⟩
    · split at hinfo <;> obtain ⟨p, rfl⟩ := build_ok hinfo <;> rfl
    · rw [hplp]
      split at hinfo <;> obtain ⟨p, rfl⟩ := build_ok hinfo <;> rfl
    · simp only [mem_cons, not_mem_nil, or_false] at hscale
      rcases hscale with rfl | rfl | rfl <;> obtain ⟨p, rfl⟩ := build_ok hinfo <;> rfl

/-! ### Values -/

namespace ColumnValues

/-- The nullable wire types of the value, those of a plain `NULL` being all of them. -/
def nullableTypes : ColumnValues → List TdsDataType
  | .tinyInt _ | .smallInt _ | .int _ | .bigInt _ => [.intN]
  | .bit _ => [.bitN]
  | .real _ | .float _ => [.fltN]
  | .smallMoney _ | .money _ => [.moneyN]
  | .date _ => [.dateN]
  | .time _ => [.timeN]
  | .dateTime _ | .smallDateTime _ => [.dateTimeN]
  | .dateTime2 _ => [.dateTime2N]
  | .dateTimeOffset _ => [.dateTimeOffsetN]
  | .uuid _ => [.guid]
  | .bytes _ => [.bigVarBinary, .bigBinary, .image]
  | .null => [.intN, .bitN, .fltN, .moneyN, .dateN, .timeN, .dateTimeN, .dateTime2N,
      .dateTimeOffsetN, .guid, .bigVarBinary, .bigBinary, .image]
  | _ => []

/-- A temporal value with what its scale cannot express cut off. -/
def truncated : ColumnValues → ColumnValues
  | .time v => .time v.truncated
  | .dateTime2 v => .dateTime2 { v with time := v.time.truncated }
  | .dateTimeOffset v =>
    .dateTimeOffset { v with datetime2 := { v.datetime2 with time := v.datetime2.time.truncated } }
  | v => v

theorem truncated_eq_null_iff (value : ColumnValues) : value.truncated = .null ↔ value = .null := by
  cases value <;> simp [truncated]

end ColumnValues

/-- The value comes behind its length.  The serializers of some types leave the length out in a
fixed-length context, the others do not look at the flag. -/
def Prefixed (value : ColumnValues) (ctx : TdsTypeContext) : Prop :=
  match value with
  | .smallMoney _ | .date _ | .time _ | .dateTime2 _ | .dateTimeOffset _ | .uuid _ =>
    ctx.isFixedLength = false
  | .bytes _ =>
    ctx.isFixedLength = false ∨ ctx.isPlp = true ∨ ctx.tdsType = TdsDataType.image.code
  | _ => True

/-- The context is of a nullable wire type of the value, in which values come behind their length.
-/
structure NullableContext (value : ColumnValues) (ctx : TdsTypeContext) : Prop where
  nullable : ∃ t ∈ value.nullableTypes, t.code = ctx.tdsType
  prefixed : Prefixed value ctx

/-- The wire has room for the value, and the decoder accepts it in one piece. -/
def HasRoom (value : ColumnValues) (ctx : TdsTypeContext) : Prop :=
  match value with
  | .time v => v.Fits
  | .dateTime2 v => v.time.Fits ∧ v.days.toNat < 2 ^ 24
  | .dateTimeOffset v => v.datetime2.time.Fits ∧ v.datetime2.days.toNat < 2 ^ 24
  | .bytes v =>
    if ctx.tdsType = TdsDataType.image.code then v.length ≤ maxAllocSize
    else if ctx.isPlp then v.length ≤ maxPlpChunkSize
    else v.length < 65535
  | _ => True

variable {bs : List UInt8}

theorem reads_prefixed {k : UInt8 → TdsReader ColumnValues} {n : ℕ}
    (hlen : bs.length = n) (h : Reads (k (UInt8.ofNat n)) bs value) :
    Reads (readByte >>= k) (wireScalar false bs) value := by
  subst hlen
  exact (reads_readByte _).bind h

theorem reads_temporal (hd : Describes metadata ctx value t)
    (ht : t ∈ [.timeN, .dateTime2N, .dateTimeOffsetN]) {scale : UInt8}
    (hscale : value.scale = some scale) {read : UInt8 → UInt8 → TdsReader ColumnValues} {n : ℕ}
    (hlen : bs.length = n) (hn : UInt8.ofNat n ≠ 0) {v : ColumnValues}
    (h : Reads (read (UInt8.ofNat n) scale) bs v) :
    Reads (decodeTemporal metadata read) (wireScalar false bs) v := by
  refine reads_prefixed hlen ?_
  have hcolumn : ctx.columnScale value = scale := by
    rw [TdsTypeContext.columnScale, hscale]
    rfl
  rw [if_neg hn, requireScale, hd.getScale ht, hcolumn]
  exact h

theorem ColumnValues.nullableTypes_subset (h : t ∈ value.nullableTypes) :
    t ∈ ColumnValues.null.nullableTypes := by
  have hsub : ∀ t ∈ value.nullableTypes, t ∈ ColumnValues.null.nullableTypes := by
    unfold nullableTypes
    cases value <;> dsimp only <;> decide
  exact hsub t h

/-- No nullable type is a fixed one, a variant, or missing. -/
theorem nullable_type (h : t ∈ value.nullableTypes)
    (hcode : t.code = ctx.tdsType) : ctx.isFixedType = false ∧ t ≠ .none ∧ t ≠ .ssVariant := by
  have hall : ∀ t ∈ ColumnValues.null.nullableTypes,
      ((0x30 ≤ t.code && t.code ≤ 0x3F) || t.code == 0x7A || t.code == 0x7F) = false ∧
        t ≠ .none ∧ t ≠ .ssVariant := by decide
  rw [TdsTypeContext.isFixedType, ← hcode]
  exact hall t (ColumnValues.nullableTypes_subset h)

theorem reads_wireNull (cs : Codecs) (ht : t ∈ ColumnValues.null.nullableTypes)
    (hcode : t.code = ctx.tdsType) (hd : Describes metadata ctx value t)
    (hwire : wireNull ctx = .ok bs) : Reads (decode cs metadata) bs .null := by
  have hzero {k : UInt8 → TdsReader ColumnValues} (h : k 0 = pure .null) :
      Reads (readByte >>= k) [0] .null := (reads_readByte 0).bind_pure h
  rw [decode, decodeWith, hd.dataType]
  rw [wireNull, (nullable_type ht hcode).1, ← hcode] at hwire
  unfold ColumnValues.nullableTypes at ht
  simp only [mem_cons, not_mem_nil, or_false] at ht
  rcases ht with rfl | rfl | rfl | rfl | rfl | rfl | rfl | rfl | rfl | rfl | rfl | rfl | rfl
  -- the types with a length byte
  iterate 10
    · obtain rfl := Except.ok.inj hwire
      exact hzero rfl
  · have hwire : (if ctx.isPlp = true then .ok (leBytes 8 plpNull.toNat) else
        .ok (leBytes 2 varNull.toNat)) = Except.ok bs := hwire
    rw [hd.isPlp]
    split at hwire
    · rw [if_pos ‹_›, ← Except.ok.inj hwire]
      exact reads_plpValue_null _
    · rw [if_neg ‹_›, ← Except.ok.inj hwire]
      exact reads_ushortNull _ _
  · have hplp : ctx.isPlp = false :=
      Bool.eq_false_iff.mpr fun h => absurd (hd.plpType h) (by decide)
    rw [hplp] at hwire
    obtain rfl := Except.ok.inj hwire
    exact reads_ushortNull _ _
  · obtain rfl := Except.ok.inj hwire
    exact reads_lobNull _ _

theorem reads_wireBytes (cs : Codecs) {v : List UInt8}
    (ht : t ∈ (ColumnValues.bytes v).nullableTypes) (hcode : t.code = ctx.tdsType)
    (hprefixed : Prefixed (.bytes v) ctx) (hd : Describes metadata ctx value t)
    (hroom : HasRoom (.bytes v) ctx) (hwire : wireBytes v ctx = .ok bs) :
    Reads (decode cs metadata) bs (.bytes v) := by
  rw [decode, decodeWith, hd.dataType]
  unfold wireBytes at hwire
  split at hwire
  · cases hwire
  unfold HasRoom at hroom
  rw [← hcode] at hwire hroom
  have hfixed (himage : t.code ≠ TdsDataType.image.code) (hplp : ctx.isPlp = false) :
      ctx.isFixedLength = false := by
    rw [hcode] at himage
    simpa [Prefixed, himage, hplp] using hprefixed
  unfold ColumnValues.nullableTypes at ht
  simp only [mem_cons, not_mem_nil, or_false] at ht
  rcases ht with rfl | rfl | rfl
  · have hwire : (if ctx.isPlp = true then .ok (wirePlp v)
        else if ctx.isFixedLength = true then .ok (v ++ List.replicate (ctx.maxSize - v.length) 0)
        else .ok (wireCounted v)) = (Except.ok bs : TdsResult _) := hwire
    have hroom : if ctx.isPlp = true then v.length ≤ maxPlpChunkSize else v.length < 65535 := hroom
    rw [hd.isPlp]
    split at hwire
    · rw [if_pos ‹_›] at hroom ⊢
      rw [← Except.ok.inj hwire]
      exact reads_plpValue _ hroom
    · rename_i hplp
      rw [if_neg (by simp [hfixed (by decide) (by simpa using hplp)])] at hwire
      rw [if_neg hplp] at hroom ⊢
      rw [← Except.ok.inj hwire]
      exact reads_wireCounted _ _ hroom
  · have hplp : ctx.isPlp = false :=
      Bool.eq_false_iff.mpr fun h => absurd (hd.plpType h) (by decide)
    rw [hplp] at hwire hroom
    rw [hfixed (by decide) hplp] at hwire
    obtain rfl := Except.ok.inj hwire
    exact reads_wireCounted _ _ hroom
  · obtain rfl := Except.ok.inj hwire
    exact reads_wireLob _ _ hroom

theorem timeLength_ne_zero {scale : UInt8} {n k : ℕ} (h : getTimeLengthFromScale scale = .ok n)
    (hk : k ≤ 5) : UInt8.ofNat (n + k) ≠ 0 := by
  intro hzero
  have hmod := congrArg UInt8.toNat hzero
  have hcases := timeLength_cases h
  rw [UInt8.toNat_ofNat', UInt8.toNat_zero] at hmod
  omega

theorem wireTime_ok {t : SqlTime} (h : wireTime t = .ok bs) :
    ∃ n, getTimeLengthFromScale t.scale = .ok n ∧ bs = leBytes n t.timeValue := by
  obtain ⟨n, hn, h⟩ := EState.result_bind_eq_ok.mp h
  exact ⟨n, hn, (Except.ok.inj h).symm⟩

/-- The decoder reads what the serializer writes. -/
theorem reads_wireValueInner (cs : Codecs) (ht : t ∈ value.nullableTypes)
    (hcode : t.code = ctx.tdsType) (hprefixed : Prefixed value ctx)
    (hd : Describes metadata ctx value t) (hroom : HasRoom value ctx)
    (hwire : wireValueInner cs value ctx none false = .ok bs) :
    Reads (decode cs metadata) bs value.truncated := by
  have htype := (nullable_type ht hcode).1
  unfold wireValueInner at hwire
  simp only [htype, Bool.false_or] at hwire
  cases value with
  | null => exact reads_wireNull cs ht hcode hd hwire
  | bytes v => exact reads_wireBytes cs ht hcode hprefixed hd hroom hwire
  | string | decimal | numeric | xml | json | vector => cases ht
  | bit v | tinyInt v | smallInt v | int v | bigInt v | real v | float v | money v | dateTime v
  | smallDateTime v =>
    obtain rfl := mem_singleton.mp ht
    obtain rfl := Except.ok.inj hwire
    rw [decode, decodeWith, hd.dataType]
    refine reads_prefixed rfl ?_
    first
    | exact (reads_readByte v).map _
    | exact (reads_readInt16 v).map _
    | exact (reads_readInt32 v).map _
    | exact (reads_readInt64 v).map _
    | exact (reads_readFloat32 v).map _
    | exact (reads_readFloat64 v).map _
    | exact (reads_readMoney8 v).map _
    | exact (reads_readDatetime v).map _
    | exact (reads_readSmallDatetime v).map _
    | cases v <;> exact (reads_readByte _).map _
  | smallMoney v | date v | uuid v =>
    obtain rfl := mem_singleton.mp ht
    rw [show ctx.isFixedLength = false from hprefixed] at hwire
    obtain rfl := Except.ok.inj hwire
    rw [decode, decodeWith, hd.dataType]
    first
    | exact reads_prefixed rfl (((reads_readInt32 v.intVal).map SqlSmallMoney.mk).map _)
    | exact reads_prefixed rfl ((reads_readDate v.days_lt).map _)
    | exact reads_prefixed v.length_toBytesLe (reads_readGuid v)
  | time v | dateTime2 v | dateTimeOffset v =>
    obtain rfl := mem_singleton.mp ht
    rw [show ctx.isFixedLength = false from hprefixed] at hwire
    obtain ⟨tbs, htime, hwire⟩ := EState.result_bind_eq_ok.mp hwire
    obtain ⟨n, hn, rfl⟩ := wireTime_ok htime
    obtain rfl := Except.ok.inj hwire
    have hlength {k : ℕ} (hk : k ≤ 5) := timeLength_ne_zero hn hk
    rw [decode, decodeWith, hd.dataType]
    refine reads_temporal hd (by simp) rfl (by simp; rfl) (hlength (by decide)) ?_
    first
    | exact (reads_readTime hn hroom).map _
    | exact (reads_readDatetime2 hn hroom.1 hroom.2).map _
    | exact (reads_readDatetimeOffset hn hroom.1 hroom.2).map _

/-- **Typed values survive the wire.**  A value written in a context of its nullable wire type,
where the wire has room for it, is read back by the decoder of the context's column, up to what its
scale cuts off; the decoder takes exactly the bytes written, and only `NULL` comes back as `NULL`.
-/
theorem typed_value_roundTrip (cs : Codecs) (value : ColumnValues) (ctx : TdsTypeContext)
    (metadata : ColumnMetadata) (w w' : PacketWriter) (hw : Ready w)
    (hrun : serializeValue cs value ctx w = .ok () w') (hstraddles : ¬ Straddles value ctx w)
    (hctx : NullableContext value ctx) (hmetadata : ctx.columnMetadata value = .ok metadata)
    (hroom : HasRoom value ctx) :
    ∃ bs w'', finalize w' = .ok () w'' ∧ w''.sentPayload = w.sentPayload ++ w.buffered ++ bs ∧
      Reads (decode cs metadata) bs value.truncated ∧
        (value.truncated = .null ↔ value = .null) := by
  obtain ⟨⟨t, ht, hcode⟩, hprefixed⟩ := hctx
  obtain ⟨-, hne, hvariant⟩ := nullable_type ht hcode
  obtain ⟨-, bs, w'', hwire, hfin, hsent⟩ := transparent_of_not_straddles hw hrun hstraddles
  have hvariant' : ctx.tdsType ≠ TdsDataType.ssVariant.code := by
    rw [← hcode]
    exact fun h => hvariant (TdsDataType.code_injective h hne (by decide))
  rw [wireValue, if_neg hvariant'] at hwire
  have hd := describes_of_columnMetadata hne hcode hmetadata
  exact ⟨bs, w'', hfin, hsent, reads_wireValueInner cs ht hcode hprefixed hd hroom hwire,
    value.truncated_eq_null_iff⟩

def nullableContext (t : TdsDataType) (maxSize : ℕ) : TdsTypeContext where
  tdsType := t.code
  maxSize := maxSize
  isPlp := false
  isFixedLength := false
  precision := none
  scale := none
  collation := none
  isNullable := true

/-- 2000-01-01 00:00:01.5 with a scale of 0 loses its half second. -/
theorem typed_value_roundTrip_dateTime2 :
    ∃ w' metadata bs w'', serializeValue .latin1 (.dateTime2 ⟨730119, ⟨15000000, 0⟩⟩)
        (nullableContext .dateTime2N 6) (PacketWriter.new .rpcRequest (readyNetwork 32) none none) =
          .ok () w' ∧
      (nullableContext .dateTime2N 6).columnMetadata (.dateTime2 ⟨730119, ⟨15000000, 0⟩⟩) =
        .ok metadata ∧
      finalize w' = .ok () w'' ∧ w''.sentPayload = bs ∧
      Reads (decode .latin1 metadata) bs (.dateTime2 ⟨730119, ⟨10000000, 0⟩⟩) := by
  obtain ⟨bs, w'', hfin, hsent, hreads, -⟩ := typed_value_roundTrip .latin1
    (.dateTime2 ⟨730119, ⟨15000000, 0⟩⟩) (nullableContext .dateTime2N 6) _
    (PacketWriter.new .rpcRequest (readyNetwork 32) none none) _
    (new_ready _ _ _ (by decide) (by decide) fun _ => SendEnv.ready_succeeds) rfl
    (fun h => absurd h.2.1 (by decide)) ⟨⟨_, mem_singleton.mpr rfl, rfl⟩, rfl⟩ rfl
    ⟨SqlTime.fits_of_lt (by decide), by decide⟩
  exact ⟨_, _, bs, w'', rfl, rfl, hfin, hsent, hreads⟩

/-- A `datetime2` past the 24 bits of its date comes back as another day. -/
theorem dateTime2_wraps :
    ∃ w' metadata w'', serializeValue .latin1 (.dateTime2 ⟨16777216, ⟨0, 7⟩⟩)
        (nullableContext .dateTime2N 8) (PacketWriter.new .rpcRequest (readyNetwork 32) none none) =
          .ok () w' ∧
      (nullableContext .dateTime2N 8).columnMetadata (.dateTime2 ⟨16777216, ⟨0, 7⟩⟩) =
        .ok metadata ∧
      finalize w' = .ok () w'' ∧
      decode .latin1 metadata w''.sentPayload = .ok (.dateTime2 ⟨0, ⟨0, 7⟩⟩, []) :=
  ⟨_, _, _, rfl, rfl, rfl, rfl⟩

end MssqlTds
