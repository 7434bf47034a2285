import MssqlTds.Datatypes.PreflightStrings

/-!
# Which values are written

For each kind of value, the condition under which the wire format has bytes for it rather than an
error.  For a `sql_variant` these are the size of its frame, the precision or scale of the value
inside, and for a string conditions that depend on its encoding (`SqlString.FitsVariant`).
-/

namespace MssqlTds

open Bytes Unicode PacketWriter TdsValueSerializer

/-! ### Other values -/

section Values

variable {cs : Codecs} {s : SqlString} {ctx : TdsTypeContext} {limit : Option ℕ}

theorem succeeds_getTimeLength (scale : UInt8) :
    Succeeds (getTimeLengthFromScale scale) ↔ scale ≤ 7 := by
  unfold getTimeLengthFromScale
  simp only [UInt8.le_iff_toNat_le]
  split_ifs with h₂ h₄ h₇
  · exact iff_of_true (succeeds_ok _) (h₂.trans (by decide))
  · exact iff_of_true (succeeds_ok _) (h₄.trans (by decide))
  · exact iff_of_true (succeeds_ok _) h₇
  · exact iff_of_false (not_succeeds_error _) h₇

theorem succeeds_bind_pure {α β : Type} {r : TdsResult α} {f : α → β} :
    Succeeds (r >>= fun a => pure (f a)) ↔ Succeeds r := by
  rw [succeeds_bind]
  exact ⟨fun ⟨a, h, _⟩ => ⟨a, h⟩, fun ⟨a, h⟩ => ⟨a, h, succeeds_pure _⟩⟩

/-- Bytes computed from the time of a temporal value. -/
theorem succeeds_temporal {t : SqlTime} {f : List UInt8 → List UInt8} :
    Succeeds (wireTime t >>= fun bs => pure (f bs)) ↔ t.scale ≤ 7 := by
  rw [succeeds_bind_pure, wireTime, succeeds_bind_pure, succeeds_getTimeLength]

theorem succeeds_wireBytes {v : List UInt8} (himage : ctx.tdsType ≠ TdsDataType.image.code) :
    Succeeds (wireBytes v ctx) ↔ ctx.isPlp = true ∨ v.length ≤ ctx.maxSize := by
  unfold wireBytes
  rw [succeeds_ite_error, if_neg himage]
  have hok : Succeeds (if ctx.isPlp = true then .ok (wirePlp v)
      else if ctx.isFixedLength = true then
        .ok (v ++ List.replicate (ctx.maxSize - v.length) 0) else .ok (wireCounted v)) := by
    split_ifs <;> exact succeeds_ok _
  rw [and_iff_left hok]
  cases ctx.isPlp <;> simp [himage]

/-- The most units a wide string may have. -/
def wideMaximum (ctx : TdsTypeContext) : Option ℕ := if ctx.isPlp then none else some ctx.maxSize

theorem not_exceeds_iff {n : ℕ} :
    ¬ (!ctx.isPlp && n > ctx.maxSize) = true ↔ ∀ m ∈ wideMaximum ctx, n ≤ m := by
  unfold wideMaximum
  cases ctx.isPlp <;> simp

theorem succeeds_wireStringBytes {bytes : List UInt8}
    (hwide : ctx.tdsType ∈ [TdsDataType.nVarChar.code, TdsDataType.nChar.code]) :
    Succeeds (wireStringBytes cs s bytes true ctx) ↔
      bytes.length % 2 = 0 ∧ ∀ m ∈ wideMaximum ctx, bytes.length / 2 ≤ m := by
  have hntext : ctx.tdsType ≠ TdsDataType.nText.code := by
    intro h
    rw [h] at hwide
    exact absurd hwide (by decide)
  unfold wireStringBytes
  rw [succeeds_ite_error, succeeds_ite_error, if_neg hntext, if_pos rfl, not_exceeds_iff]
  have hok : Succeeds (if ctx.isPlp = true then .ok (wirePlp bytes)
      else if ctx.isFixedLength = true then
        .ok (bytes ++ if true = true then
            unitsLe (List.replicate (ctx.maxSize - bytes.length / 2) 0x0020)
          else List.replicate (ctx.maxSize - bytes.length / 2) 0x20)
      else .ok (wireCounted bytes)) := by
    split_ifs <;> exact succeeds_ok _
  rw [and_iff_left hok]
  simp

theorem succeeds_wireStringUtf16 (text : List Char) :
    Succeeds (wireStringUtf16 text ctx) ↔
      ∀ m ∈ wideMaximum ctx, (utf16Units text).length ≤ m := by
  unfold wireStringUtf16
  rw [succeeds_ite_error, not_exceeds_iff, and_iff_left]
  split_ifs <;> exact succeeds_ok _

/-- A wide string is written if it consists of whole units and they fit. -/
theorem succeeds_wireString_wide {fit : Bool}
    (hwide : ctx.tdsType ∈ [TdsDataType.nVarChar.code, TdsDataType.nChar.code]) :
    Succeeds (wireString cs s ctx limit fit) ↔ s.FitsWide (wideMaximum ctx) := by
  obtain ⟨bytes, encoding, own⟩ := s
  simp only [wireString, if_pos hwide]
  cases encoding with
  | utf16 | lcidBased _ | delayedSet => exact succeeds_wireStringBytes hwide
  | utf8 =>
    simp only [SqlString.asUtf16Bytes, SqlString.asRawWireBytes, SqlString.FitsWide,
      SqlString.toUtf8String, Codecs.decodeString]
    cases fromUtf8 bytes with
    | none => simp
    | some text => simp [succeeds_wireStringUtf16]

theorem succeeds_wireVector {v : SqlVector} {dimensions : UInt16} {baseType : VectorBaseType}
    (hvalid : SqlType.validateVector (some v) dimensions baseType = .ok ()) :
    Succeeds (wireVector cs v) ↔ vectorConsistent v = true := by
  unfold wireVector
  rw [succeeds_ite_error, succeeds_ite_error, and_iff_left (succeeds_ok _)]
  -- the number of elements is within the maximum of the base type, which fills 8000 bytes
  have hsize : ¬ v.totalSize > vectorMaxSize := by
    unfold SqlType.validateVector at hvalid
    split_ifs at hvalid with hmax
    dsimp only at hvalid
    split_ifs at hvalid with hbase hcount
    simp only [ne_eq, not_not] at hbase hcount
    rw [SqlVector.totalSize, hbase, hcount]
    cases baseType <;>
      simp only [VectorBaseType.maxDimensions, VectorBaseType.elementSizeBytes, vectorHeaderSize,
        vectorMaxSize] at hmax ⊢ <;> omega
  simp [hsize]

end Values

/-! ### Variants -/

/-- The string fits a variant whose type holds `maxSize` characters.  A variant looks at the
encoding of the string, not at the type: UTF-16 is sent as it is, in at most 8000 bytes counted
modulo `2³²`, and any other string in the encoding of the collation. -/
def SqlString.FitsVariant (cs : Codecs) (collation : SqlCollation) (limit : Option ℕ)
    (s : SqlString) (maxSize : ℕ) : Prop :=
  match s.encodingType with
  | .utf16 | .delayedSet => s.bytes.length % 2 = 0 ∧ s.bytes.length % 2 ^ 32 ≤ maxVariantDataSize
  | .utf8 | .lcidBased _ =>
    ∃ bytes hadLoss, resolveNarrowWireBytes cs s (some collation) = .ok (bytes, hadLoss) ∧
      let maximum := ((effectiveNarrowStringByteLimit s limit).map (min · maxSize)).getD maxSize
      FitsNarrow bytes maximum ∧ min bytes.length maximum ≤ maxVariantDataSize

section Variants

variable {cs : Codecs} {value : ColumnValues} {ctx : TdsTypeContext} {limit : Option ℕ} {fit : Bool}
  {s : SqlString} {baseType : TdsDataType}

theorem calculateTypeInfoLength_le {propLen : ℕ}
    (h : calculateTypeInfoLength baseType = .ok propLen) : propLen ≤ 7 := by
  cases baseType <;> cases h <;> decide

/-- Size of a variant's data, in 32 bits. -/
def framedSize (value : ColumnValues) (resolved : Option (List UInt8)) : TdsResult ℕ :=
  match resolved with
  | some bytes => .ok (bytes.length % 2 ^ 32)
  | none => calculateValueSize value

/-- Data within its limit leaves room for the properties. -/
theorem frameCheck_eq (frame : VariantFrame) (hle : frame.propLen ≤ 7) (tooLong tooLarge : Error) :
    (if frame.dataSize > maxVariantDataSize then throw tooLong
      else if frame.totalLength > maxVariantSize then throw tooLarge else pure frame :
        TdsResult VariantFrame) =
      if frame.dataSize > maxVariantDataSize then .error tooLong else .ok frame := by
  split
  · rfl
  · next hdata =>
    rw [if_neg]
    · rfl
    · simp only [VariantFrame.totalLength, maxVariantSize, maxVariantDataSize] at hdata ⊢
      omega

variable {resolved : Option (List UInt8)} {propLen dataSize : ℕ}

/-- A frame needs nothing but a known type and a size within the limit. -/
theorem variantFrame_eq {hadLoss : Bool}
    (hresolved : resolveNarrow cs value ctx limit fit = .ok (resolved, hadLoss))
    (hbase : getVariantBaseType value = .ok baseType)
    (hprop : calculateTypeInfoLength baseType = .ok propLen)
    (hsize : framedSize value resolved = .ok dataSize) :
    (∀ frame, variantFrame cs value ctx limit fit = .ok frame →
      dataSize ≤ maxVariantDataSize ∧ frame = ⟨resolved, hadLoss, baseType, propLen, dataSize⟩) ∧
    (dataSize ≤ maxVariantDataSize → variantFrame cs value ctx limit fit =
      .ok ⟨resolved, hadLoss, baseType, propLen, dataSize⟩) := by
  have hle := calculateTypeInfoLength_le hprop
  have hframe : variantFrame cs value ctx limit fit =
      if dataSize > maxVariantDataSize then .error (.usageError
        (s!"SQL_VARIANT data size ({dataSize} bytes) exceeds maximum ({maxVariantDataSize} " ++
          s!"bytes). The base data type cannot store more than {maxVariantDataSize} bytes in " ++
          "SQL_VARIANT."))
      else .ok ⟨resolved, hadLoss, baseType, propLen, dataSize⟩ := by
    unfold variantFrame
    simp only [hresolved, hbase, hprop, EState.result_ok_bind]
    cases resolved with
    | some bytes =>
      cases hsize
      exact frameCheck_eq ⟨_, _, _, _, _⟩ hle _ _
    | none =>
      have hvalue : calculateValueSize value = .ok dataSize := hsize
      rw [hvalue, EState.result_ok_bind]
      exact frameCheck_eq ⟨_, _, _, _, _⟩ hle _ _
  rw [hframe]
  split
  · next hgt => exact ⟨fun _ h => (nomatch h), fun h => absurd hgt (Nat.not_lt.mpr h)⟩
  · next hdata =>
    refine ⟨fun frame h => ?_, fun _ => rfl⟩
    cases h
    exact ⟨Nat.not_lt.mp hdata, rfl⟩

variable {inner : TdsTypeContext}

/-- A variant is written if its size is within the limit and its data can be. -/
theorem succeeds_wireVariant {hadLoss : Bool}
    (hnull : value ≠ .null)
    (hresolved : resolveNarrow cs value ctx limit fit = .ok (resolved, hadLoss))
    (hbase : getVariantBaseType value = .ok baseType)
    (hprop : calculateTypeInfoLength baseType = .ok propLen)
    (hsize : framedSize value resolved = .ok dataSize)
    (hprops : Succeeds (wireVariantProps value ctx
      ⟨resolved, hadLoss, baseType, propLen, dataSize⟩))
    (hinner : createVariantInnerContext value baseType ctx resolved = .ok inner) :
    Succeeds (wireVariant cs value ctx limit fit) ↔ dataSize ≤ maxVariantDataSize ∧
      Succeeds (wireVariantData cs value
        ⟨resolved, hadLoss, baseType, propLen, dataSize⟩ inner) := by
  obtain ⟨hof, hto⟩ := variantFrame_eq hresolved hbase hprop hsize
  simp only [wireVariant, if_neg hnull, succeeds_bind, succeeds_pure, and_true]
  constructor
  · rintro ⟨frame, hframe, props, -, inner', hinner', data, hdata⟩
    obtain ⟨hle, rfl⟩ := hof frame hframe
    rw [hinner] at hinner'
    cases hinner'
    exact ⟨hle, data, hdata⟩
  · rintro ⟨hle, data, hdata⟩
    obtain ⟨props, hprops⟩ := hprops
    exact ⟨_, hto hle, props, hprops, inner, hinner, data, hdata⟩

theorem succeeds_wireDecimal (v : DecimalParts) :
    Succeeds (wireDecimal v ctx) ↔
      1 ≤ ctx.precision.getD 38 ∧ ctx.precision.getD 38 ≤ 38 := by
  have hbytes : (∃ n, decimalValueBytes (ctx.precision.getD 38) = some n) ↔
      1 ≤ ctx.precision.getD 38 ∧ ctx.precision.getD 38 ≤ 38 := by
    unfold decimalValueBytes
    simp only [Bool.and_eq_true, decide_eq_true_eq, UInt8.le_iff_toNat_le]
    have h1 : UInt8.toNat 1 = 1 := rfl
    have h9 : UInt8.toNat 9 = 9 := rfl
    have h10 : UInt8.toNat 10 = 10 := rfl
    have h19 : UInt8.toNat 19 = 19 := rfl
    have h20 : UInt8.toNat 20 = 20 := rfl
    have h28 : UInt8.toNat 28 = 28 := rfl
    have h29 : UInt8.toNat 29 = 29 := rfl
    have h38 : UInt8.toNat 38 = 38 := rfl
    split_ifs <;> simp <;> omega
  rw [← hbytes, wireDecimal]
  cases decimalValueBytes (ctx.precision.getD 38) <;> simp

theorem succeeds_variant_decimal (v : DecimalParts) (ctx : TdsTypeContext) :
    (Succeeds (wireVariant cs (.decimal v) ctx limit fit) ↔ 1 ≤ v.precision ∧ v.precision ≤ 38) ∧
      (Succeeds (wireVariant cs (.numeric v) ctx limit fit) ↔
        1 ≤ v.precision ∧ v.precision ≤ 38) := by
  have hsize : 1 + (decimalValueBytes v.precision).getD 16 ≤ maxVariantDataSize := by
    cases h : decimalValueBytes v.precision with
    | none => decide
    | some n => rcases decimalValueBytes_cases h with rfl | rfl | rfl | rfl <;> decide
  constructor <;>
  · rw [succeeds_wireVariant (by simp) rfl rfl rfl rfl ⟨_, rfl⟩ rfl, and_iff_right hsize]
    exact succeeds_wireDecimal v

theorem getTimeLength_le {scale : UInt8} {n : ℕ} (h : getTimeLengthFromScale scale = .ok n) :
    n ≤ 5 := by
  unfold getTimeLengthFromScale at h
  split_ifs at h <;> cases h <;> decide

/-- A value with a scale: the size of the frame is computed from it. -/
theorem succeeds_variant_temporal {scale : UInt8} {k : ℕ} (hnull : value ≠ .null)
    (hresolved : resolveNarrow cs value ctx limit fit = .ok (none, false))
    (hbase : getVariantBaseType value = .ok baseType)
    (hprop : calculateTypeInfoLength baseType = .ok 1)
    (hsize : calculateValueSize value = getTimeLengthFromScale scale >>= fun n => pure (n + k))
    (hk : k ≤ 5) (hprops : Succeeds (wireTypeInfo baseType value ctx none))
    (hinner : createVariantInnerContext value baseType ctx none = .ok inner)
    (hdata : Succeeds (wireValueInner cs value inner none false) ↔ scale ≤ 7) :
    Succeeds (wireVariant cs value ctx limit fit) ↔ scale ≤ 7 := by
  cases hlength : getTimeLengthFromScale scale with
  | ok n =>
    have hn := getTimeLength_le hlength
    have hframed : framedSize value none = .ok (n + k) := by
      rw [framedSize, hsize, hlength]
      rfl
    have hsmall : n + k ≤ maxVariantDataSize := by
      rw [maxVariantDataSize]
      omega
    rw [succeeds_wireVariant hnull hresolved hbase hprop hframed hprops hinner,
      and_iff_right hsmall]
    exact hdata
  | error e =>
    refine iff_of_false (fun h => ?_) fun h => ?_
    · have hframe : variantFrame cs value ctx limit fit = .error e := by
        unfold variantFrame
        simp only [hresolved, hbase, hprop, hsize, hlength, EState.result_ok_bind]
        rfl
      simp only [wireVariant, if_neg hnull, succeeds_bind, hframe] at h
      obtain ⟨frame, hframe, -⟩ := h
      cases hframe
    · obtain ⟨n, hn⟩ := (succeeds_getTimeLength scale).mpr h
      rw [hlength] at hn
      cases hn

theorem succeeds_variant_bytes (v : List UInt8) (ctx : TdsTypeContext) :
    Succeeds (wireVariant cs (.bytes v) ctx limit fit) ↔
      v.length % 2 ^ 32 ≤ maxVariantDataSize := by
  have hframed : framedSize (.bytes v) none = .ok (v.length % 2 ^ 32) := rfl
  rw [succeeds_wireVariant (by simp) rfl rfl rfl hframed ⟨_, rfl⟩ rfl]
  refine and_iff_left ((succeeds_wireBytes ?_).mpr (.inr ?_))
  · change TdsDataType.bigVarBinary.code ≠ TdsDataType.image.code
    decide
  · exact le_refl v.length

theorem succeeds_variant_utf16 (hbase : getVariantBaseType (.string s) = .ok .nVarChar)
    (hresolved : resolveNarrow cs (.string s) ctx limit fit = .ok (none, false))
    (hfits : s.FitsWide (some (s.bytes.length / 2)) ↔ s.bytes.length % 2 = 0) :
    Succeeds (wireVariant cs (.string s) ctx limit fit) ↔
      s.bytes.length % 2 = 0 ∧ s.bytes.length % 2 ^ 32 ≤ maxVariantDataSize := by
  have hframed : framedSize (.string s) none = .ok (s.bytes.length % 2 ^ 32) := rfl
  rw [succeeds_wireVariant (by simp) hresolved hbase rfl hframed ⟨_, rfl⟩ rfl, and_comm, ← hfits]
  refine and_congr_left fun _ => ?_
  exact @succeeds_wireString_wide cs s
    { innerContext .nVarChar (s.bytes.length / 2) true with collation := ctx.collation } none false
    List.mem_cons_self

theorem not_succeeds_wireVariant {e : Error} (hnull : value ≠ .null)
    (hresolved : resolveNarrow cs value ctx limit fit = .error e) :
    ¬ Succeeds (wireVariant cs value ctx limit fit) := by
  intro h
  simp only [wireVariant, if_neg hnull, succeeds_bind, variantFrame, hresolved] at h
  obtain ⟨frame, hframe, -⟩ := h
  cases hframe

/-- Any other string is encoded for the collation, and then has to fit. -/
theorem succeeds_variant_narrow {encoded : TdsResult (List UInt8 × Bool)} {maximum : ℕ}
    (hbase : getVariantBaseType (.string s) = .ok .bigVarChar)
    (hresolved : resolveNarrow cs (.string s) ctx limit true =
      encoded >>= fun r => fitNarrowByteLimit r.1 maximum >>= fun bytes => pure (some bytes, r.2))
    (hmax : maximum < 2 ^ 32) :
    Succeeds (wireVariant cs (.string s) ctx limit true) ↔
      ∃ bytes hadLoss, encoded = .ok (bytes, hadLoss) ∧
        FitsNarrow bytes maximum ∧ min bytes.length maximum ≤ maxVariantDataSize := by
  cases encoded with
  | error e => exact iff_of_false (not_succeeds_wireVariant (by simp) hresolved) (by simp)
  | ok r =>
    obtain ⟨bytes, hadLoss⟩ := r
    have hencoded (p : List UInt8 → Prop) : (∃ bytes' hadLoss',
        (.ok (bytes, hadLoss) : TdsResult (List UInt8 × Bool)) = .ok (bytes', hadLoss') ∧
          p bytes') ↔ p bytes := by
      refine ⟨?_, fun h => ⟨bytes, hadLoss, rfl, h⟩⟩
      rintro ⟨bytes', hadLoss', h, hp⟩
      cases h
      exact hp
    rw [hencoded]
    rw [EState.result_ok_bind] at hresolved
    cases hfit : fitNarrowByteLimit bytes maximum with
    | error e =>
      rw [hfit] at hresolved
      refine iff_of_false (not_succeeds_wireVariant (by simp) hresolved) fun h => ?_
      obtain ⟨data, hdata⟩ := (succeeds_fitNarrow bytes maximum).mpr h.1
      rw [hfit] at hdata
      cases hdata
    | ok data =>
      rw [hfit] at hresolved
      have hlength := SqlType.length_fitNarrow hfit
      have hframed : framedSize (.string s) (some data) = .ok (data.length % 2 ^ 32) := rfl
      rw [succeeds_wireVariant (by simp) hresolved hbase rfl hframed ⟨_, rfl⟩ rfl,
        Nat.mod_eq_of_lt (by omega), hlength,
        and_iff_right ((succeeds_fitNarrow bytes maximum).mp ⟨data, hfit⟩)]
      refine and_iff_left ?_
      have hlimit : limitNarrow data (some data.length) false = .ok data := by
        simp [limitNarrow]
      exact succeeds_bind.mpr ⟨data, hlimit, succeeds_pure _⟩

/-- A string inside a variant, in a context that is not sent in chunks. -/
theorem succeeds_variant_string {collation : SqlCollation} (hplp : ctx.isPlp = false)
    (hmax : ctx.maxSize < 2 ^ 32) (hcollation : ctx.collation = some collation) :
    Succeeds (wireVariant cs (.string s) ctx limit true) ↔
      s.FitsVariant cs collation limit ctx.maxSize := by
  have hmaximum : (narrowStringMaximum ctx (effectiveNarrowStringByteLimit s limit)).getD
      ctx.maxSize = ((effectiveNarrowStringByteLimit s limit).map
        (min · ctx.maxSize)).getD ctx.maxSize := by
    simp only [narrowStringMaximum, hplp]
    cases effectiveNarrowStringByteLimit s limit <;> rfl
  have hlt : ((effectiveNarrowStringByteLimit s limit).map (min · ctx.maxSize)).getD ctx.maxSize <
      2 ^ 32 := by
    cases effectiveNarrowStringByteLimit s limit with
    | none => exact hmax
    | some m => exact lt_of_le_of_lt (min_le_right m ctx.maxSize) hmax
  have hresolve : resolveNarrowWireBytes cs s ctx.collation =
      resolveNarrowWireBytes cs s (some collation) := by rw [hcollation]
  obtain ⟨bytes, encoding, own⟩ := s
  cases encoding with
  | utf16 | delayedSet => exact succeeds_variant_utf16 rfl rfl (and_iff_left (by simp))
  | utf8 | lcidBased _ =>
    refine succeeds_variant_narrow rfl ?_ hlt
    simp only [resolveNarrow, hresolve, hmaximum]
    rfl

end Variants

end MssqlTds
