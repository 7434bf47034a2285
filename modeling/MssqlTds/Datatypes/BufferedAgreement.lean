import MssqlTds.Datatypes.BufferedDecoder

/-!
# The buffered decoder agrees with the awaiting one

What the buffered decoder makes of the bytes received so far is what the awaiting decoder makes of
the message.  `anticipates_bufferedValue`, `anticipates_bufferedVariant` and
`anticipates_bufferedInto` say so for the three entry points, along the arms of the two decoders.

There are two exceptions.  A `NULL` in a narrow character column whose metadata has no collation is
decoded from the buffer, while the awaiting decoder wants the encoding first (`Encoded` excludes
it). And only the awaiting decoder bounds the data of a `sql_variant`.
-/

namespace MssqlTds

open Bytes Reader RowCall BufferedSlice GenericDecoder SqlCollation List

variable {q : List UInt8}

/-! ### Scalars -/

theorem anticipates_takeSlice (n : ℕ) : Anticipates (takeSlice n) (readBytes n) q := .take _ n

theorem anticipates_le (n : ℕ) :
    Anticipates (le incomplete n) (le pastEndOfMessageError n) q := (Anticipates.take _ n).map _

theorem anticipates_byte : Anticipates byte readByte q := (anticipates_le 1).map _

theorem anticipates_u16 : Anticipates u16 readUint16 q := (anticipates_le 2).map _

theorem anticipates_u24 : Anticipates u24 readUint24 q := (anticipates_le 3).map _

theorem anticipates_u32 : Anticipates u32 readUint32 q := (anticipates_le 4).map _

theorem anticipates_u40 : Anticipates u40 readUint40 q := (anticipates_le 5).map _

theorem anticipates_f64 : Anticipates f64 readFloat64 q := (anticipates_le 8).map _

theorem anticipates_i16 : Anticipates i16 readInt16 q := anticipates_u16.map _

theorem anticipates_i32 : Anticipates i32 readInt32 q := anticipates_u32.map _

theorem anticipates_i64 : Anticipates i64 readInt64 q := anticipates_f64.map _

theorem anticipates_lift {α : Type} (r : TdsResult α) :
    Anticipates (liftBuffered r) (liftReader r) q := by
  cases r with
  | ok a => exact .pure a
  | error e => exact .fail e e

/-! ### Parts of values -/

theorem anticipates_bufferedMoney : Anticipates bufferedMoney readMoney8 q :=
  anticipates_i32.bind fun _ _ _ => anticipates_i32.bind fun _ _ _ => .pure _

theorem anticipates_bufferedSmallDateTime : Anticipates bufferedSmallDateTime readSmallDatetime q :=
  anticipates_u16.bind fun _ _ _ => anticipates_u16.bind fun _ _ _ => .pure _

theorem anticipates_bufferedDateTime : Anticipates bufferedDateTime readDatetime q :=
  anticipates_i32.bind fun _ _ _ => anticipates_u32.bind fun _ _ _ => .pure _

theorem anticipates_bufferedDate : Anticipates bufferedDate readDate q := anticipates_u24.map _

theorem anticipates_bufferedScaledTime (n : UInt8) :
    Anticipates (bufferedScaledTime n) (readScaledTime n) q := by
  unfold bufferedScaledTime readScaledTime
  by_cases h3 : n = 3
  · subst h3
    exact anticipates_u24.map _
  by_cases h4 : n = 4
  · subst h4
    exact anticipates_u32.map _
  simp only
  exact anticipates_u40

variable {metadata : ColumnMetadata} {cs : Codecs} {col : ℕ}

theorem anticipates_bufferedScale :
    Anticipates (bufferedScale metadata) (requireScale metadata) q := by
  unfold bufferedScale requireScale
  cases metadata.getScale with
  | some scale => exact .pure scale
  | none => exact .fail _ _

/-- The time of a value, after the scale has been found. -/
theorem anticipates_scaled (n scale : UInt8) :
    Anticipates (do let scaled ← bufferedScaledTime n; pure ⟨scaleTimeValue scaled scale, scale⟩)
      (readTime n scale) q := by
  rw [bind_pure_comp]
  exact (anticipates_bufferedScaledTime n).map _

theorem anticipates_bufferedTime (length : UInt8) :
    Anticipates (bufferedTime metadata 0 length)
      (do let scale ← requireScale metadata; readTime length scale) q := by
  refine anticipates_bufferedScale.bind fun scale _ _ => ?_
  rw [if_neg (by simp), UInt8.sub_zero]
  exact anticipates_scaled length scale

theorem anticipates_bufferedDateTime2 (length : UInt8) :
    Anticipates (bufferedDateTime2 metadata length)
      (do let scale ← requireScale metadata; readDatetime2 length scale) q := by
  simp only [bufferedDateTime2, bufferedTime, bind_assoc]
  refine anticipates_bufferedScale.bind fun scale _ _ => ?_
  unfold readDatetime2
  split
  · exact .fail _ _
  simp only [readDate, bind_map_left]
  refine (anticipates_scaled (length - 3) scale).bind fun time _ _ => ?_
  exact anticipates_u24.bind fun _ _ _ => .pure _

theorem sub_two_lt_iff {length : UInt8} (h : ¬ length < 2) : length - 2 < 3 ↔ length < 5 := by
  rw [UInt8.not_lt] at h
  rw [UInt8.lt_iff_toNat_lt, UInt8.lt_iff_toNat_lt, UInt8.toNat_sub_of_le _ _ h]
  simp only [UInt8.reduceToNat] at h ⊢
  omega

theorem anticipates_bufferedDateTimeOffset (length : UInt8) :
    Anticipates (bufferedDateTimeOffset metadata length)
      (do let scale ← requireScale metadata; readDatetimeOffset length scale) q := by
  simp only [bufferedDateTimeOffset, bufferedTime, bind_assoc]
  refine anticipates_bufferedScale.bind fun scale _ _ => ?_
  unfold readDatetimeOffset readDatetime2
  by_cases h2 : length < 2
  · rw [if_pos h2, if_pos (UInt8.lt_trans h2 (by decide))]
    exact .fail _ _
  rw [if_neg h2]
  -- the awaiting decoder tests the bytes of the offset and of the date one after the other
  by_cases h5 : length < 5
  · rw [if_pos h5, if_pos ((sub_two_lt_iff h2).mpr h5)]
    exact .fail _ _
  rw [if_neg h5, if_neg (mt (sub_two_lt_iff h2).mp h5),
    show length - 2 - 3 = length - 5 by grind]
  simp only [readTime, readDate, bind_map_left, bind_assoc, pure_bind]
  refine (anticipates_bufferedScaledTime (length - 5)).bind fun time _ _ => ?_
  refine anticipates_u24.bind fun _ _ _ => ?_
  exact anticipates_i16.bind fun _ _ _ => .pure _

theorem anticipates_bufferedUuid (length : UInt8) (h : length ≠ 0) :
    Anticipates (ColumnValues.uuid <$> bufferedUuid length) (readGuid length) q := by
  unfold bufferedUuid readGuid
  rw [if_pos (UInt8.pos_iff_ne_zero.mpr h)]
  by_cases h16 : length = 16
  · subst h16
    simp only [ne_eq, not_true_eq_false, if_false, map_bind]
    refine (anticipates_takeSlice 16).bind fun bytes _ _ => ?_
    exact (anticipates_lift _).map _
  · rw [if_pos h16, if_pos h16]
    exact (Anticipates.fail _ _ : Anticipates (throw (some _)) _ q)

theorem anticipates_bufferedDecimal :
    Anticipates (bufferedDecimal metadata) (readDecimal metadata) q := by
  refine anticipates_byte.bind fun length _ _ => ?_
  cases metadata.typeInfo.typeInfoVariant
  case varLenPrecisionScale t len precision scale =>
    refine .ite (fun _ => .fail _ _) fun _ => .ite (fun _ => .pure _) fun _ => ?_
    unfold bufferedMagnitude
    rw [map_bind]
    refine anticipates_byte.bind fun sign _ _ => ?_
    dsimp only
    split
    · exact (Anticipates.fail _ _ : Anticipates (throw (some _)) _ _)
    · rw [map_bind]
      exact (anticipates_takeSlice _).bind fun _ _ _ => .pure _
  all_goals exact .fail _ _

/-! ### Values -/

theorem anticipates_bufferedByteLen {α : Type} {null : α} {value : UInt8 → Buffered α}
    {rest : UInt8 → TdsReader α} (hnull : rest 0 = pure null)
    (hvalue : ∀ length q, length ≠ 0 → Anticipates (value length) (rest length) q) :
    Anticipates (bufferedByteLen null value) (readByte >>= rest) q := by
  refine anticipates_byte.bind fun length _ _ => ?_
  split
  · subst length
    rw [hnull]
    exact .pure null
  · exact hvalue length _ ‹_›

/-- A nullable temporal value. -/
theorem anticipates_temporal {α : Type} {wrap : α → ColumnValues} {value : UInt8 → Buffered α}
    {read : UInt8 → UInt8 → TdsReader α}
    (h : ∀ length q, Anticipates (value length)
      (do let scale ← requireScale metadata; read length scale) q) :
    Anticipates (bufferedByteLen .null fun length => wrap <$> value length)
      (decodeTemporal metadata fun length scale => wrap <$> read length scale) q := by
  refine anticipates_bufferedByteLen rfl fun length q h0 => ?_
  rw [if_neg h0, ← map_bind]
  exact (h length q).map wrap

theorem anticipates_bytes (what : String) :
    Anticipates (bufferedUshortLen .null fun bytes => pure (.bytes bytes))
      (readUshortLen what .bytes) q := by
  refine anticipates_u16.bind fun length _ _ => .ite (fun _ => .pure _) fun _ => ?_
  -- two bytes cannot ask for too much
  have hsize := length.toNat_lt
  rw [if_neg (by unfold maxAllocSize; omega)]
  exact (anticipates_takeSlice _).bind fun _ _ _ => .pure _

/-- A narrow character column has a collation to decode its values by. -/
def Encoded (metadata : ColumnMetadata) : Prop :=
  metadata.dataType ∈ [TdsDataType.bigChar, .bigVarChar, .char, .varChar] →
    metadata.getCollation ≠ none

instance : DecidablePred Encoded := fun _ => inferInstanceAs (Decidable (_ → _))

theorem Encoded.getEncodingType (h : Encoded metadata)
    (ht : metadata.dataType ∈
      [TdsDataType.nChar, .nVarChar, .bigChar, .bigVarChar, .char, .varChar]) :
    ∃ encoding, metadata.getEncodingType = .ok encoding := by
  unfold ColumnMetadata.getEncodingType
  split
  · exact ⟨_, rfl⟩
  · rename_i hnarrow
    have hc : metadata.getCollation ≠ none := by
      apply h
      simp only [mem_cons, not_mem_nil, or_false] at ht ⊢
      rcases ht with ht | ht | ht
      · exact absurd (by rw [ht]; rfl) hnarrow
      · exact absurd (by rw [ht]; rfl) hnarrow
      · exact ht
    obtain ⟨collation, hcollation⟩ := Option.ne_none_iff_exists'.mp hc
    rw [hcollation]
    exact ⟨_, rfl⟩

theorem anticipates_string (hplp : metadata.isPlp = false) (h : Encoded metadata)
    (ht : metadata.dataType ∈
      [TdsDataType.nChar, .nVarChar, .bigChar, .bigVarChar, .char, .varChar]) :
    Anticipates
      (bufferedUshortLen .null fun bytes =>
        (fun encoding => .string (.new bytes encoding)) <$> liftBuffered metadata.getEncodingType)
      (StringDecoder.decode metadata) q := by
  obtain ⟨encoding, hencoding⟩ := h.getEncodingType ht
  have hlong : StringDecoder.isLongLenType metadata.dataType = false := by
    simp only [mem_cons, not_mem_nil, or_false] at ht
    rcases ht with ht | ht | ht | ht | ht | ht <;> rw [ht] <;> rfl
  unfold StringDecoder.decode
  rw [hencoding, hplp, hlong]
  show Anticipates _ (do
    let length ← readUint16
    if length = 0xFFFF then pure ColumnValues.null
    else do
      let bytes ← readBytes length.toNat
      pure (ColumnValues.string (.new bytes encoding))) q
  refine anticipates_u16.bind fun length _ _ => .ite (fun _ => .pure _) fun _ => ?_
  exact (anticipates_takeSlice _).bind fun _ _ _ => .pure _

/-- **The buffered decoder of a value agrees with the awaiting one.**  It leaves variants aside, so
it does not matter how those are decoded. -/
theorem anticipates_bufferedValue {variant : TdsReader ColumnValues} (h : Encoded metadata) :
    Anticipates (bufferedValue metadata) (decodeWith cs variant metadata) q := by
  unfold bufferedValue decodeWith
  refine .guard fun hasync => ?_
  have hplp : metadata.isPlp = false := by
    simp only [requiresAsync, Bool.or_eq_true, not_or, Bool.not_eq_true] at hasync
    exact hasync.1
  cases ht : metadata.dataType
  case int1 | bit => exact anticipates_byte.map _
  case int2 => exact anticipates_i16.map _
  case int4 => exact anticipates_i32.map _
  case int8 => exact anticipates_i64.map _
  case flt4 => exact anticipates_u32.map _
  case flt8 => exact anticipates_f64.map _
  case intN =>
    refine anticipates_byte.bind fun length _ _ => ?_
    unfold readIntn
    split
    case h_6 =>
      split <;> first
        | contradiction
        | exact .fail _ _
    · exact .pure _
    · exact anticipates_byte.map _
    · exact anticipates_i16.map _
    · exact anticipates_i32.map _
    · exact anticipates_i64.map _
  case fltN =>
    refine anticipates_bufferedByteLen rfl fun length q h0 => ?_
    rw [if_neg h0]
    exact .ite (fun _ => anticipates_u32.map _) fun _ => anticipates_f64.map _
  case bitN =>
    refine anticipates_bufferedByteLen rfl fun length q h0 => ?_
    rw [if_pos (UInt8.pos_iff_ne_zero.mpr h0)]
    exact anticipates_byte.map _
  case money4 =>
    simp only [readMoney4, Functor.map_map]
    exact anticipates_i32.map _
  case money => exact anticipates_bufferedMoney.map _
  case moneyN =>
    refine anticipates_byte.bind fun length _ _ => ?_
    split
    case h_4 =>
      split <;> first
        | contradiction
        | exact .fail _ _
    · exact .pure _
    · simp only [readMoney4, Functor.map_map]
      exact anticipates_i32.map _
    · exact anticipates_bufferedMoney.map _
  case dateTim4 => exact anticipates_bufferedSmallDateTime.map _
  case dateTime => exact anticipates_bufferedDateTime.map _
  case dateTimeN =>
    refine anticipates_bufferedByteLen rfl fun length q h0 => ?_
    rw [if_neg h0]
    exact .ite (fun _ => anticipates_bufferedSmallDateTime.map _)
      fun _ => anticipates_bufferedDateTime.map _
  case dateN =>
    refine anticipates_bufferedByteLen rfl fun length q h0 => ?_
    unfold readDaten
    rw [if_neg h0]
    exact anticipates_bufferedDate.map _
  case timeN => exact anticipates_temporal fun length _ => anticipates_bufferedTime length
  case dateTime2N => exact anticipates_temporal fun length _ => anticipates_bufferedDateTime2 length
  case dateTimeOffsetN =>
    exact anticipates_temporal fun length _ => anticipates_bufferedDateTimeOffset length
  case guid =>
    exact anticipates_bufferedByteLen rfl fun length _ h0 => anticipates_bufferedUuid length h0
  case decimalN | numericN => exact anticipates_bufferedDecimal.map _
  case nChar | nVarChar | bigChar | bigVarChar | char | varChar =>
    exact anticipates_string hplp h (by rw [ht]; decide)
  case bigBinary => exact anticipates_bytes _
  case bigVarBinary =>
    simp only [hplp]
    exact anticipates_bytes _
  all_goals exact .giveUp

/-! ### Values for a writer -/

theorem bufferedByteLen_calls {value : UInt8 → Buffered ColumnValues}
    {write : UInt8 → Buffered (List RowCall)}
    (h : ∀ length, write length = valueCalls col <$> value length) :
    bufferedByteLen [writeNull col] write = valueCalls col <$> bufferedByteLen .null value := by
  unfold bufferedByteLen
  rw [map_bind]
  refine congrArg _ (funext fun length => ?_)
  split
  · rfl
  · exact h length

theorem bufferedUshortLen_calls {value : List UInt8 → Buffered ColumnValues}
    {write : List UInt8 → Buffered (List RowCall)}
    (h : ∀ bytes, write bytes = valueCalls col <$> value bytes) :
    bufferedUshortLen [writeNull col] write = valueCalls col <$> bufferedUshortLen .null value := by
  unfold bufferedUshortLen
  rw [map_bind]
  refine congrArg _ (funext fun length => ?_)
  split
  · rfl
  · rw [map_bind]
    exact congrArg _ (funext h)

/-- The two buffered decoders are separate matches over the wire type as well. -/
theorem bufferedInto_eq (h : metadata.dataType ≠ .ssVariant) :
    bufferedInto metadata col = valueCalls col <$> bufferedValue metadata := by
  unfold bufferedInto bufferedValue
  by_cases hasync : requiresAsync metadata = true
  · rw [if_pos hasync, if_pos hasync]
    rfl
  rw [if_neg hasync, if_neg hasync]
  cases ht : metadata.dataType
  case ssVariant => exact absurd ht h
  case intN | moneyN =>
    simp only [map_bind]
    refine congrArg _ (funext fun length => ?_)
    split <;> first | rfl | exact wrote_eq _ fun _ => rfl
  case fltN | dateTimeN =>
    refine bufferedByteLen_calls fun length => ?_
    split <;> exact wrote_eq _ fun _ => rfl
  case bitN | dateN | timeN | dateTime2N | dateTimeOffsetN | guid =>
    exact bufferedByteLen_calls fun _ => wrote_eq _ fun _ => rfl
  case decimalN | numericN => exact wrote_eq _ (decimalCall_eq fun _ => rfl)
  case nChar | nVarChar | bigChar | bigVarChar | char | varChar =>
    exact bufferedUshortLen_calls fun _ => wrote_eq _ fun _ => rfl
  case bigBinary | bigVarBinary => exact bufferedUshortLen_calls fun _ => rfl
  case int1 | int2 | int4 | int8 | flt4 | flt8 | bit | money4 | money | dateTime | dateTim4 =>
    exact wrote_eq _ fun _ => rfl
  -- the value decoder gives up on the others, and so does the writer's
  all_goals rfl

/-! ### Variants -/

theorem encoded_fixedMetadata (t : FixedLengthTypes) (n : ℕ) : Encoded (fixedMetadata t n) := by
  intro ht
  have hfixed := t.property
  simp only [fixedMetadata, mem_cons, not_mem_nil, or_false] at ht
  rcases ht with ht | ht | ht | ht <;> rw [ht] at hfixed <;> exact absurd hfixed (by decide)

theorem SqlCollation.tryFrom_five {bs : List UInt8} (h : bs.length = 5) :
    ∃ collation, tryFrom bs = .ok collation := by
  unfold tryFrom
  rw [if_neg (not_not_intro h)]
  exact ⟨_, rfl⟩

theorem bufferedVariantEncoding_eq {base : TdsDataType} {bs : List UInt8} {collation : SqlCollation}
    (h : tryFrom bs = .ok collation) :
    bufferedVariantEncoding base bs = .ok (variantEncoding base collation) := by
  unfold bufferedVariantEncoding variantEncoding
  split
  · rfl
  · rw [h]
    show Except.ok _ = _
    split <;> rfl

/-- The buffered decoder does not bound the data, the awaiting one does. -/
theorem anticipates_bufferedVariantValue {baseByte propertyBytes : UInt8} {base : TdsDataType}
    {dataLength : ℕ} (hdata : propertyBytes.toNat + dataLength ≤ maxAllocSize + 7) :
    Anticipates (bufferedVariantValue base propertyBytes dataLength)
      (decodeVariantBody cs baseByte base propertyBytes dataLength) q := by
  unfold bufferedVariantValue decodeVariantBody
  split
  · show Anticipates _ (decodeZeroPropbyteVariant cs base dataLength) q
    unfold decodeZeroPropbyteVariant
    cases (TypesIn.tryFrom base : TdsResult FixedLengthTypes) with
    | ok t => exact .taking _ (anticipates_bufferedValue (encoded_fixedMetadata t _))
    | error _ => exact .giveUp
  · split
    · rename_i hstring
      have hdata' : ¬ dataLength > maxAllocSize := by
        have : 7 + dataLength ≤ maxAllocSize + 7 := hdata
        omega
      simp only [decodeSevenPropbyteVariant, hstring]
      refine (anticipates_takeSlice 5).bind fun collationBytes _ hbytes => ?_
      refine anticipates_u16.bind fun _ _ _ => ?_
      obtain ⟨collation, hcollation⟩ := tryFrom_five (take_eq_ok.mp hbytes).2
      rw [hcollation, bufferedVariantEncoding_eq hcollation, variantBytes,
        if_neg hdata']
      exact (anticipates_takeSlice _).bind fun _ _ _ => .pure _
    · exact .giveUp
  · exact .giveUp

/-- **The buffered decoder of a variant agrees with the awaiting one** on bytes that do not hold
more than the awaiting one accepts. -/
theorem anticipates_bufferedVariant (hq : q.length ≤ maxAllocSize + 13) :
    Anticipates bufferedVariant (readSqlVariantWithBase cs) q := by
  refine anticipates_u32.bind fun length q' hread => .ite (fun _ => .pure _) fun _ => ?_
  have hq' : q.length = 4 + q'.length := by
    have := (anticipates_u32.ok hread []).2
    rw [append_nil, append_nil, readUint32_eq_ok] at this
    rw [this, length_append, length_leBytes]
  refine .exactly fun hlength => ?_
  refine anticipates_byte.bind fun baseByte _ _ => ?_
  refine (anticipates_lift _).bind fun base _ _ => ?_
  refine anticipates_byte.bind fun propertyBytes _ _ => ?_
  refine .ite (fun _ => .fail _ _) fun hprop => ?_
  rw [← Nat.sub_sub]
  exact (anticipates_bufferedVariantValue (by omega)).bind fun _ _ _ => .pure _

/-! ### Character variants -/

/-- A variant with a character base type. -/
def stringVariant (base : TdsDataType) (collationBytes : List UInt8) (maxLength : ℕ)
    (data : List UInt8) : List UInt8 :=
  leBytes 4 (9 + data.length) ++
    ([base.code] ++ ([7] ++ (collationBytes ++ (leBytes 2 maxLength ++ data))))

section

variable {base : TdsDataType} {collationBytes data : List UInt8} {collation : SqlCollation}
  {maxLength : ℕ}

theorem ne_none_of_isVariantString (hbase : isVariantString base = true) : base ≠ .none := by
  rintro rfl
  cases hbase

theorem length_of_tryFrom (h : tryFrom collationBytes = .ok collation) :
    collationBytes.length = 5 := by
  unfold tryFrom at h
  split at h
  · cases h
  · rename_i hlen
    exact not_not.mp hlen

theorem reads_bufferedVariantValue_string (hbase : isVariantString base = true)
    (hcollation : tryFrom collationBytes = .ok collation) :
    Reads (bufferedVariantValue base 7 data.length)
      (collationBytes ++ (leBytes 2 maxLength ++ data))
      (.string (.new data (variantEncoding base collation))) := by
  show Reads (if isVariantString base = true then _ else _) _ _
  rw [if_pos hbase]
  refine (reads_take _ (length_of_tryFrom hcollation)).bind ((reads_u16 _ maxLength).bind ?_)
  refine (reads_take _ rfl).bind_pure ?_
  rw [bufferedVariantEncoding_eq hcollation]
  rfl

/-- The length in front of a character variant. -/
theorem toNat_variantLength (hlen : 9 + data.length < 2 ^ 32) :
    (UInt32.ofNat (9 + data.length)).toNat = 9 + data.length := by
  rw [UInt32.toNat_ofNat', Nat.mod_eq_of_lt hlen]

theorem variantLength_ne_zero (hlen : 9 + data.length < 2 ^ 32) :
    UInt32.ofNat (9 + data.length) ≠ 0 := by
  intro h
  have := congrArg UInt32.toNat h
  rw [toNat_variantLength hlen] at this
  exact absurd this (by simp)

theorem reads_bufferedVariant_string (hbase : isVariantString base = true)
    (hcollation : tryFrom collationBytes = .ok collation)
    (hlen : 9 + data.length < 2 ^ 32) :
    Reads bufferedVariant (stringVariant base collationBytes maxLength data)
      (some base, .string (.new data (variantEncoding base collation))) := by
  have htype := TdsDataType.tryFrom_code (ne_none_of_isVariantString hbase)
  have hnot : ¬ 9 + data.length < 2 + (7 : UInt8).toNat := by
    simp only [UInt8.reduceToNat]
    omega
  have hdata : 9 + data.length - (2 + (7 : UInt8).toNat) = data.length := by
    simp only [UInt8.reduceToNat]
    omega
  refine (reads_u32 _ (9 + data.length)).bind ?_
  rw [if_neg (variantLength_ne_zero hlen), toNat_variantLength hlen]
  refine reads_exactly ?_ (by simp [length_of_tryFrom hcollation]; omega)
  refine (reads_u8 _ base.code).bind ?_
  rw [htype, liftBuffered_ok, pure_bind]
  refine (reads_u8 _ 7).bind ?_
  rw [toNat_variantLength hlen, if_neg hnot, hdata]
  exact (reads_bufferedVariantValue_string hbase hcollation).bind_pure rfl

/-- The awaiting decoder looks at the size only when it comes to the data. -/
theorem readSqlVariantWithBase_string (hbase : isVariantString base = true)
    (hcollation : tryFrom collationBytes = .ok collation)
    (hlen : 9 + data.length < 2 ^ 32) (rest : List UInt8) :
    readSqlVariantWithBase cs (stringVariant base collationBytes maxLength data ++ rest) =
      ((fun buffer => (some base, .string (.new buffer (variantEncoding base collation)))) <$>
        variantBytes "string" data.length) (data ++ rest) := by
  have htype := TdsDataType.tryFrom_code (ne_none_of_isVariantString hbase)
  have hnot : ¬ 9 + data.length < 2 + (7 : UInt8).toNat := by
    simp only [UInt8.reduceToNat]
    omega
  have hdata : 9 + data.length - 2 - (7 : UInt8).toNat = data.length := by
    simp only [UInt8.reduceToNat]
    omega
  simp only [stringVariant, append_assoc]
  rw [readSqlVariantWithBase, bind_ok (reads_readUint32 _ _), if_neg (variantLength_ne_zero hlen),
    bind_ok (reads_readByte _ _), htype, liftReader_ok, pure_bind, bind_ok (reads_readByte _ _),
    toNat_variantLength hlen, if_neg hnot, hdata, bind_pure_comp]
  show (Prod.mk (some base) <$> decodeSevenPropbyteVariant base data.length) _ = _
  rw [decodeSevenPropbyteVariant, hbase, if_neg (by decide), map_bind,
    bind_ok (reads_readBytes (length_of_tryFrom hcollation) _), map_bind,
    bind_ok (reads_readUint16 _ _), hcollation, liftReader_ok, pure_bind, bind_pure_comp,
    Functor.map_map]

theorem readSqlVariantWithBase_too_long (hbase : isVariantString base = true)
    (hcollation : tryFrom collationBytes = .ok collation)
    (hlen : 9 + data.length < 2 ^ 32) (hdata : data.length > maxAllocSize) :
    ∃ e,
      readSqlVariantWithBase cs (stringVariant base collationBytes maxLength data) = .error e := by
  have h := @readSqlVariantWithBase_string cs _ _ _ _ maxLength hbase hcollation hlen []
  rw [append_nil, variantBytes, if_pos hdata] at h
  exact ⟨_, h⟩

end

/-! ### Columns -/

/-- **What the buffered decoder writes is what the awaiting one writes.** -/
theorem anticipates_bufferedInto (h : Encoded metadata) (hq : q.length ≤ maxAllocSize + 13) :
    Anticipates (bufferedInto metadata col) (decodeInto metadata col cs) q := by
  by_cases ht : metadata.dataType = .ssVariant
  · rw [decodeInto_ssVariant ht]
    unfold bufferedInto
    rw [ht]
    exact .guard fun _ => (anticipates_bufferedVariant hq).map _
  · rw [bufferedInto_eq ht, decodeInto_eq ht]
    exact (anticipates_bufferedValue h).map _

end MssqlTds
