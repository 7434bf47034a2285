import MssqlTds.Security.CellCodec

/-!
# Encrypted cells open to their values

Each reader of `denormalize` inverts the normalizer of its type, over every value the normalizer
accepts.  A time comes back in whole units of its scale, and a string comes back without the byte
limit its sender may have set on it, which is no part of the cell.

* `denormalize_normalizeColumnValue` : the two are inverse for the value's own base type.
* `normalize_eq_normalizeColumnValue` : a parameter and the corresponding bulk-copy cell have the
  same plaintext.
* `cell_codec` : the codec as a whole, cipher included.
-/

namespace MssqlTds.Security

open Bytes AeadAes256CbcHmacSha256

/-! ### Readers against normalizers -/

theorem readUintLe_leBytes (k n : ℕ) (what : String) :
    readUintLe (leBytes k n) k what = .ok (n % 256 ^ k) := by
  rw [readUintLe, if_pos (length_leBytes k n), ofLe_leBytes]

@[simp] theorem readI64_normalizeInt (n : Int64) : readI64 (normalizeInt n) = .ok n := by
  have hlt : n.toUInt64.toNat % 256 ^ 8 = n.toUInt64.toNat := Nat.mod_eq_of_lt n.toUInt64.toNat_lt
  rw [readI64, normalizeInt, readUintLe_leBytes, hlt]
  simp [Functor.map, Except.map]

@[simp] theorem readF32_leBytes (bits : UInt32) : readF32 (leBytes 4 bits.toNat) = .ok bits := by
  have hlt : bits.toNat % 256 ^ 4 = bits.toNat := Nat.mod_eq_of_lt bits.toNat_lt
  rw [readF32, readUintLe_leBytes, hlt]
  simp [Functor.map, Except.map]

@[simp] theorem readF64_leBytes (bits : UInt64) : readF64 (leBytes 8 bits.toNat) = .ok bits := by
  have hlt : bits.toNat % 256 ^ 8 = bits.toNat := Nat.mod_eq_of_lt bits.toNat_lt
  rw [readF64, readUintLe_leBytes, hlt]
  simp [Functor.map, Except.map]

/-- Four bytes written for a signed integer read back as it. -/
theorem ofLe_leBytes_int32 (n : Int32) :
    (UInt32.ofNat (ofLe (leBytes 4 n.toUInt32.toNat))).toInt32 = n := by
  rw [ofLe_leBytes_of_lt n.toUInt32.toNat_lt, UInt32.ofNat_toNat, Int32.toInt32_toUInt32]

theorem readI32At_zero (high low : Int32) :
    readI32At (leBytes 4 high.toUInt32.toNat ++ leBytes 4 low.toUInt32.toNat) 0 = .ok high := by
  rw [readI32At, if_pos (by simp), List.drop_zero, List.take_left' (length_leBytes 4 _),
    ofLe_leBytes_int32]

theorem readI32At_four (high low : Int32) :
    readI32At (leBytes 4 high.toUInt32.toNat ++ leBytes 4 low.toUInt32.toNat) 4 = .ok low := by
  rw [readI32At, if_pos (by simp), List.drop_left' (length_leBytes 4 _),
    List.take_of_length_le (by simp), ofLe_leBytes_int32]

@[simp] theorem readMoney_normalizeMoney (m : SqlMoney) : readMoney (normalizeMoney m) = .ok m := by
  rw [readMoney, normalizeMoney, if_neg (by simp), readI32At_zero, readI32At_four]
  rfl

@[simp] theorem readSmallMoney_normalizeSmallMoney (m : SqlSmallMoney) :
    readSmallMoney (normalizeSmallMoney m) = .ok m := by
  rw [readSmallMoney, normalizeSmallMoney, if_neg (by simp), readI32At_four,
    Int32.toInt32_toInt64]
  rfl

variable {info : TypeInfo}

theorem readDecimal_normalizeDecimal {d : DecimalParts}
    {t : VariableLengthTypes} {length : ℕ}
    (hinfo : info.typeInfoVariant = .varLenPrecisionScale t length d.precision d.scale)
    (hvalid : decimalMetadataIsValid d.precision d.scale = true) :
    readDecimal (normalizeDecimal d) info = .ok d := by
  have hlt : d.magnitude.toNat < 256 ^ decimalMagnitudeBytes := by
    have := d.magnitude.isLt
    simpa [decimalMagnitudeBytes] using this
  rw [readDecimal, hinfo, normalizeDecimal]
  simp only [hvalid, Bool.not_true, Bool.false_eq_true, if_false, length_leBytes, gt_iff_lt,
    lt_irrefl, ofLe_leBytes_of_lt hlt, BitVec.ofNat_toNat, BitVec.setWidth_eq]
  cases d with
  | mk isPositive scale precision magnitude => cases isPositive <;> rfl

theorem readDate_leBytes {n : ℕ} (h : n < 256 ^ 3) :
    ∃ date, readDate (leBytes 3 n) = .ok date ∧ date.days = UInt32.ofNat n := by
  exact ⟨_, rfl, congrArg UInt32.ofNat (ofLe_leBytes_of_lt h)⟩

theorem readDate_normalizeDate (d : SqlDate) : readDate (normalizeDate d) = .ok d := by
  obtain ⟨date, hread, hdays⟩ := readDate_leBytes d.days_lt
  rw [UInt32.ofNat_toNat] at hdays
  rw [normalizeDate, hread]
  cases d
  cases date
  cases hdays
  rfl

theorem timeByteWidth_eq {scale : UInt8} (h : ¬ scale > 7) :
    getTimeLengthFromScale scale = .ok (timeByteWidth scale) := by
  rw [getTimeLengthFromScale, timeByteWidth]
  split_ifs
  · rfl
  · rfl
  · rfl
  · exact absurd (UInt8.not_lt.mp h) ‹_›

variable {bytes : List UInt8}

/-- A time of the day reads back in whole units of its scale. -/
theorem readTime_normalizeTime {t : SqlTime} (hfits : t.Fits)
    (h : normalizeTime t = .ok bytes) : readTime bytes t.scale = .ok t.truncated := by
  rw [normalizeTime] at h
  split_ifs at h with hscale
  obtain rfl := Except.ok.inj h
  have hwidth := timeByteWidth_eq hscale
  have hlt := hfits _ hwidth
  have hle : t.scale ≤ 7 := UInt8.not_lt.mp hscale
  rw [timeValue_eq, scaleUnit] at hlt
  have hread : ∀ k, timeByteWidth t.scale = k → (k = 3 ∨ k = 4 ∨ k = 5) →
      readTime (leBytes k (t.timeNanoseconds.toNat / 10 ^ (7 - t.scale.toNat))) t.scale =
        .ok t.truncated := by
    intro k hk hcases
    rw [hk] at hlt
    have hmod := Nat.mod_eq_of_lt hlt
    rw [SqlTime.truncated, timeValue_eq, scaleUnit]
    rcases hcases with rfl | rfl | rfl <;>
    · simp only [readTime, length_leBytes, readUintLe_leBytes, hmod, if_pos hle, bind, Except.bind]
      rfl
  refine hread _ rfl ?_
  obtain ⟨h3, -⟩ | ⟨h4, -⟩ | ⟨h5, -⟩ := timeLength_cases hwidth
  exacts [.inl h3, .inr (.inl h4), .inr (.inr h5)]

theorem readDatetime2_normalizeDatetime2 {dt : SqlDateTime2} (hfits : dt.time.Fits)
    (hdays : dt.days.toNat < 2 ^ 24) (h : normalizeDatetime2 dt = .ok bytes) :
    readDatetime2 bytes dt.time.scale = .ok { dt with time := dt.time.truncated } := by
  rw [normalizeDatetime2] at h
  cases htime : normalizeTime dt.time with
  | error error => rw [htime] at h; cases h
  | ok out =>
    rw [htime] at h
    obtain rfl := Except.ok.inj h
    obtain ⟨date, hdate, heq⟩ := readDate_leBytes (show dt.days.toNat < 256 ^ 3 by omega)
    have hlength : (out ++ leBytes 3 dt.days.toNat).length - 3 = out.length := by simp
    rw [readDatetime2, if_neg (by simp), hlength]
    simp only [List.take_left, List.drop_left, readTime_normalizeTime hfits htime, hdate, bind,
      Except.bind, heq, UInt32.ofNat_toNat]
    rfl

theorem readDatetimeOffset_normalizeDatetimeOffset {dto : SqlDateTimeOffset}
    (hfits : dto.datetime2.time.Fits) (hdays : dto.datetime2.days.toNat < 2 ^ 24)
    (h : normalizeDatetimeOffset dto = .ok bytes) :
    readDatetimeOffset bytes dto.datetime2.time.scale = .ok
      { dto with datetime2 := { dto.datetime2 with time := dto.datetime2.time.truncated } } := by
  rw [normalizeDatetimeOffset] at h
  cases hdatetime : normalizeDatetime2 dto.datetime2 with
  | error error => rw [hdatetime] at h; cases h
  | ok out =>
    rw [hdatetime] at h
    obtain rfl := Except.ok.inj h
    have hlength : (out ++ leBytes 2 dto.offset.toUInt16.toNat).length - 2 = out.length := by simp
    have hoffset : (UInt16.ofNat (ofLe (leBytes 2 dto.offset.toUInt16.toNat))).toInt16 =
        dto.offset := by
      rw [ofLe_leBytes_of_lt dto.offset.toUInt16.toNat_lt, UInt16.ofNat_toNat,
        Int16.toInt16_toUInt16]
    rw [readDatetimeOffset, if_neg (by simp), hlength]
    simp only [List.take_left, List.drop_left,
      readDatetime2_normalizeDatetime2 hfits hdays hdatetime, hoffset, bind, Except.bind]
    rfl

@[simp] theorem readSmallDatetime_normalizeSmallDatetime (sdt : SqlSmallDateTime) :
    readSmallDatetime (normalizeSmallDatetime sdt) = .ok sdt := by
  have hdays : sdt.days.toNat % 256 ^ 2 = sdt.days.toNat := Nat.mod_eq_of_lt sdt.days.toNat_lt
  have htime : sdt.time.toNat % 256 ^ 2 = sdt.time.toNat := Nat.mod_eq_of_lt sdt.time.toNat_lt
  rw [readSmallDatetime, normalizeSmallDatetime, if_neg (by simp),
    List.take_left' (length_leBytes 2 _), List.drop_left' (length_leBytes 2 _),
    readUintLe_leBytes, readUintLe_leBytes, hdays, htime]
  simp

@[simp] theorem readDatetime_normalizeDatetime (dt : SqlDateTime) :
    readDatetime (normalizeDatetime dt) = .ok dt := by
  rw [readDatetime, normalizeDatetime, if_neg (by simp), List.take_left' (length_leBytes 4 _),
    List.drop_left' (length_leBytes 4 _), ofLe_leBytes_int32,
    ofLe_leBytes_of_lt dt.time.toNat_lt, UInt32.ofNat_toNat]

/-! ### A value and its base type -/

section Base

variable (baseDataType : TdsDataType) (baseTypeInfo : TypeInfo)

/-- A type of fixed length, or the nullable type of its family at that length. -/
def OfLength (fixed nullable : TdsDataType) (length : ℕ) : Prop :=
  baseDataType = fixed ∨ baseDataType = nullable ∧ baseTypeInfo.length = length

def HasPrecisionScale (precision scale : UInt8) : Prop :=
  ∃ t length, baseTypeInfo.typeInfoVariant = .varLenPrecisionScale t length precision scale

def HasScale (scale : UInt8) : Prop :=
  ∃ t, baseTypeInfo.typeInfoVariant = .varLenScale t scale

def HasCollation (collation : SqlCollation) : Prop :=
  (∃ t length, baseTypeInfo.typeInfoVariant = .varLenString t length (some collation)) ∨
    ∃ t length, baseTypeInfo.typeInfoVariant = .partialLen t length (some collation)

/-- The base type is a value's own: its type, length, precision, scale and string encoding. -/
def OwnBase : ColumnValues → Prop
  | .bit _ => baseDataType ∈ [.bit, .bitN]
  | .tinyInt _ => OfLength baseDataType baseTypeInfo .int1 .intN 1
  | .smallInt _ => OfLength baseDataType baseTypeInfo .int2 .intN 2
  | .int _ => OfLength baseDataType baseTypeInfo .int4 .intN 4
  | .bigInt _ => OfLength baseDataType baseTypeInfo .int8 .intN 8
  | .real _ => OfLength baseDataType baseTypeInfo .flt4 .fltN 4
  | .float _ => OfLength baseDataType baseTypeInfo .flt8 .fltN 8
  | .money _ => OfLength baseDataType baseTypeInfo .money .moneyN 8
  | .smallMoney _ => OfLength baseDataType baseTypeInfo .money4 .moneyN 4
  | .decimal v =>
    baseDataType ∈ [.decimal, .decimalN] ∧ HasPrecisionScale baseTypeInfo v.precision v.scale
  | .numeric v =>
    baseDataType ∈ [.numeric, .numericN] ∧ HasPrecisionScale baseTypeInfo v.precision v.scale
  | .uuid _ => baseDataType = .guid
  | .bytes _ => baseDataType ∈ [.binary, .varBinary, .bigBinary, .bigVarBinary, .image]
  | .string s =>
    baseDataType ∈ [.nChar, .nVarChar, .nText] ∧ s.encodingType = .utf16 ∨
    baseDataType ∈ [.char, .varChar, .bigChar, .bigVarChar, .text] ∧
      ∃ collation, HasCollation baseTypeInfo collation ∧
        s.encodingType = if collation.utf8 then .utf8 else .lcidBased collation
  | .date _ => baseDataType = .dateN
  | .time v => baseDataType = .timeN ∧ HasScale baseTypeInfo v.scale
  | .dateTime2 v => baseDataType = .dateTime2N ∧ HasScale baseTypeInfo v.time.scale
  | .dateTimeOffset v =>
    baseDataType = .dateTimeOffsetN ∧ HasScale baseTypeInfo v.datetime2.time.scale
  | .smallDateTime _ => OfLength baseDataType baseTypeInfo .dateTim4 .dateTimeN 4
  | .dateTime _ => OfLength baseDataType baseTypeInfo .dateTime .dateTimeN 8
  | .null | .xml _ | .json _ | .vector _ => False

end Base

/-- Times are times of a day, dates are in the calendar, and a decimal's precision is one the
server has. -/
def InRange : ColumnValues → Prop
  | .time v => v.timeNanoseconds.toNat < 24 * 60 * 60 * 10 ^ 7
  | .dateTime2 v =>
    v.time.timeNanoseconds.toNat < 24 * 60 * 60 * 10 ^ 7 ∧ v.days.toNat ≤ SqlDate.maxDays.toNat
  | .dateTimeOffset v =>
    v.datetime2.time.timeNanoseconds.toNat < 24 * 60 * 60 * 10 ^ 7 ∧
      v.datetime2.days.toNat ≤ SqlDate.maxDays.toNat
  | .decimal v | .numeric v => 1 ≤ v.precision ∧ v.precision ≤ 38 ∧ v.scale ≤ v.precision
  | _ => True

/-- What a cell opens to: times in whole units of their scale, strings without the byte limit of
their sender. -/
def opened : ColumnValues → ColumnValues
  | .string s => .string { s with narrowStringByteLimit := none }
  | value => value.truncated

theorem decimalMetadataIsValid_of_inRange {precision scale : UInt8}
    (h : 1 ≤ precision ∧ precision ≤ 38 ∧ scale ≤ precision) :
    decimalMetadataIsValid precision scale = true := by
  obtain ⟨hpos, hle, hscale⟩ := h
  have hgt : precision > 0 := UInt8.lt_iff_toNat_lt.mpr (UInt8.le_iff_toNat_le.mp hpos)
  simp [decimalMetadataIsValid, hgt, hle, hscale]

theorem stringEncoding_narrow {t : TdsDataType} {collation : SqlCollation}
    (ht : t.isUnicodeType = false) (h : HasCollation info collation) :
    stringEncoding t info = .ok (if collation.utf8 then .utf8 else .lcidBased collation) := by
  rw [stringEncoding, if_neg (by rw [ht]; decide)]
  obtain ⟨u, length, hinfo⟩ | ⟨u, length, hinfo⟩ := h <;> rw [hinfo]

theorem temporalScale_of_hasScale {scale : UInt8} (h : HasScale info scale) :
    temporalScale info = .ok scale := by
  obtain ⟨t, hinfo⟩ := h
  rw [temporalScale, hinfo]

section Denormalize

variable {value : ColumnValues} {bytes : List UInt8} {t : TdsDataType} {info : TypeInfo}

@[simp] theorem narrowTinyint_toInt64 (v : UInt8) : narrowTinyint v.toUInt64.toInt64 = v := by
  rw [narrowTinyint, UInt64.toUInt64_toInt64, UInt8.toUInt8_toUInt64]

@[simp] theorem narrowSmallint_toInt64 (v : Int16) : narrowSmallint v.toInt64 = v :=
  Int16.toInt16_toInt64 v

@[simp] theorem narrowInt_toInt64 (v : Int32) : narrowInt v.toInt64 = v := Int32.toInt32_toInt64 v

theorem days_lt_of_le {days : UInt32} (h : days.toNat ≤ SqlDate.maxDays.toNat) :
    days.toNat < 2 ^ 24 :=
  lt_of_le_of_lt h (by decide)

/-- A normalizer that may fail has succeeded. -/
theorem map_some_eq_ok {x : TdsResult (List UInt8)} {normalized : Option (List UInt8)}
    (h : some <$> x = .ok normalized) : ∃ out, x = .ok out ∧ some out = normalized := by
  cases x with
  | error error => cases h
  | ok out => exact ⟨out, rfl, Except.ok.inj h⟩

def charTypes : List TdsDataType :=
  [.char, .varChar, .bigChar, .bigVarChar, .text, .nChar, .nVarChar, .nText]

theorem denormalize_charTypes (ht : t ∈ charTypes) :
    denormalize bytes t info supportedNormalizationVersion =
      (fun encoding => .string ⟨bytes, encoding, none⟩) <$> stringEncoding t info := by
  simp only [charTypes, List.mem_cons, List.not_mem_nil, or_false] at ht
  rcases ht with rfl | rfl | rfl | rfl | rfl | rfl | rfl | rfl <;> rfl

/-- **Denormalizing inverts normalizing** at the value's own base type. -/
theorem denormalize_normalizeColumnValue
    (hnormal : normalizeColumnValue value = .ok (some bytes)) (hbase : OwnBase t info value)
    (hrange : InRange value) :
    denormalize bytes t info supportedNormalizationVersion = .ok (opened value) := by
  have hversion : ¬ supportedNormalizationVersion ≠ supportedNormalizationVersion := not_not.mpr rfl
  cases value with
  | null | xml v | json v | vector v => cases hbase
  | bit v =>
    obtain rfl := Option.some.inj (Except.ok.inj hnormal)
    simp only [OwnBase, List.mem_cons, List.not_mem_nil, or_false] at hbase
    rcases hbase with rfl | rfl <;>
    · rw [denormalize, if_neg hversion, readI64_normalizeInt]
      cases v <;> rfl
  | tinyInt v | smallInt v | int v | bigInt v | real v | float v | money v | smallMoney v
  | smallDateTime v | dateTime v =>
    -- a type of fixed length, or the nullable one with that length in its type information
    obtain rfl := Option.some.inj (Except.ok.inj hnormal)
    obtain rfl | ⟨rfl, hlength⟩ := hbase <;>
    · rw [denormalize, if_neg hversion]
      simp [*, opened, ColumnValues.truncated]
  | decimal v | numeric v =>
    obtain rfl := Option.some.inj (Except.ok.inj hnormal)
    obtain ⟨ht, u, length, hinfo⟩ := hbase
    have hread := readDecimal_normalizeDecimal hinfo (decimalMetadataIsValid_of_inRange hrange)
    simp only [List.mem_cons, List.not_mem_nil, or_false] at ht
    rcases ht with rfl | rfl <;>
    · rw [denormalize, if_neg hversion, hread]
      rfl
  | uuid v =>
    obtain rfl := Option.some.inj (Except.ok.inj hnormal)
    obtain rfl : t = .guid := hbase
    rw [denormalize, if_neg hversion, Uuid.fromSliceLe_toBytesLe]
    rfl
  | bytes v =>
    obtain rfl := Option.some.inj (Except.ok.inj hnormal)
    simp only [OwnBase, List.mem_cons, List.not_mem_nil, or_false] at hbase
    rcases hbase with rfl | rfl | rfl | rfl | rfl <;>
    · rw [denormalize, if_neg hversion]
      rfl
  | string s =>
    obtain rfl := Option.some.inj (Except.ok.inj hnormal)
    have hencoding : stringEncoding t info = .ok s.encodingType := by
      obtain ⟨ht, hs⟩ | ⟨ht, collation, hcollation, hs⟩ := hbase
      · simp only [List.mem_cons, List.not_mem_nil, or_false] at ht
        rw [hs]
        rcases ht with rfl | rfl | rfl <;> rfl
      · simp only [List.mem_cons, List.not_mem_nil, or_false] at ht
        rw [hs]
        rcases ht with rfl | rfl | rfl | rfl | rfl <;> exact stringEncoding_narrow rfl hcollation
    have ht : t ∈ charTypes := by
      obtain ⟨ht, -⟩ | ⟨ht, -⟩ := hbase <;>
      · simp only [List.mem_cons, List.not_mem_nil, or_false] at ht
        simp only [charTypes, List.mem_cons, List.not_mem_nil, or_false]
        tauto
    rw [denormalize_charTypes ht, hencoding]
    rfl
  | date v =>
    obtain rfl := Option.some.inj (Except.ok.inj hnormal)
    obtain rfl : t = .dateN := hbase
    rw [denormalize, if_neg hversion, readDate_normalizeDate]
    rfl
  | time v =>
    obtain ⟨rfl, hscale⟩ := hbase
    obtain ⟨out, hout, ⟨⟩⟩ := map_some_eq_ok hnormal
    rw [denormalize, if_neg hversion, temporalScale_of_hasScale hscale]
    simp only [bind, Except.bind, readTime_normalizeTime (SqlTime.fits_of_lt hrange) hout]
    rfl
  | dateTime2 v =>
    obtain ⟨rfl, hscale⟩ := hbase
    obtain ⟨out, hout, ⟨⟩⟩ := map_some_eq_ok hnormal
    rw [denormalize, if_neg hversion, temporalScale_of_hasScale hscale]
    simp only [bind, Except.bind, readDatetime2_normalizeDatetime2 (SqlTime.fits_of_lt hrange.1)
      (days_lt_of_le hrange.2) hout]
    rfl
  | dateTimeOffset v =>
    obtain ⟨rfl, hscale⟩ := hbase
    obtain ⟨out, hout, ⟨⟩⟩ := map_some_eq_ok hnormal
    rw [denormalize, if_neg hversion, temporalScale_of_hasScale hscale]
    simp only [bind, Except.bind, readDatetimeOffset_normalizeDatetimeOffset
      (SqlTime.fits_of_lt hrange.1) (days_lt_of_le hrange.2) hout]
    rfl

end Denormalize

/-! ### Parameters and bulk-copy cells -/

/-- The value a parameter has as a column value; `NULL` is `null`. -/
def columnValue (value : SqlType) : ColumnValues :=
  (value.toColumnValueAndContext SqlCollation.default).1

/-- A value normalizes to nothing exactly if it is `NULL`. -/
theorem normalizeColumnValue_eq_none {value : ColumnValues} {normalized : Option (List UInt8)}
    (h : normalizeColumnValue value = .ok normalized) : normalized = none ↔ value = .null := by
  cases value with
  | null => exact ⟨fun _ => rfl, fun _ => (Except.ok.inj h).symm⟩
  | xml v | json v | vector v => cases h
  | time v | dateTime2 v | dateTimeOffset v =>
    obtain ⟨out, -, rfl⟩ := map_some_eq_ok h
    simp
  | _ =>
    rw [← Except.ok.inj h]
    simp

/-- **A parameter and the corresponding bulk-copy cell have the same plaintext.** -/
theorem normalize_eq_normalizeColumnValue {value : SqlType} {normalized : Option (List UInt8)}
    (h : normalize value = .ok normalized) :
    normalizeColumnValue (columnValue value) = .ok normalized := by
  rw [← h]
  cases value with
  | bit v | tinyInt v | smallInt v | int v | bigInt v | real v | float v | decimal v | numeric v
  | money v | smallMoney v | time v | dateTime2 v | dateTimeOffset v | smallDateTime v | dateTime v
  | date v | nVarcharMax v | varcharMax v | varBinaryMax v | text v | nText v | uuid v =>
    cases v <;> rfl
  | nVarchar v length | varchar v length | varBinary v length | binary v length | char v length
  | nChar v length => cases v <;> rfl
  | image v | json v | xml v | vector v | variant inner => cases h
  | table typeName v | udt typeName v => cases h

/-! ### Sealed values -/

section Sealed

variable {c : Crypto} {key : List UInt8} {metadata : CryptoMetadata}

/-- The cipher, the normalization and the encryption type are ones the driver has. -/
structure Supported (metadata : CryptoMetadata) : Prop where
  cipher : metadata.cipherAlgorithmId = aeadAes256CbcHmacSha256AlgorithmId
  normalization : metadata.normalizationRuleVersion = supportedNormalizationVersion
  encryption : metadata.encryptionType = 1 ∨ metadata.encryptionType = 2

theorem encryptNormalized_eq (h : Supported metadata) {encryptionType : ColumnEncryptionType}
    (htype : columnEncryptionType metadata.encryptionType = .ok encryptionType)
    (random : TdsResult (Vector UInt8 16)) (what : String)
    (normalized : TdsResult (Option (List UInt8))) :
    encryptNormalized c random what normalized key metadata.cipherAlgorithmId
        metadata.encryptionType metadata.normalizationRuleVersion =
      normalized >>= fun
        | none => pure none
        | some normalized => new c key >>= fun cipher =>
          some <$> cipher.encrypt c random normalized encryptionType := by
  rw [encryptNormalized, if_neg (not_not.mpr h.cipher), if_neg (not_not.mpr h.normalization), htype]
  rfl

theorem Supported.columnEncryptionType (h : Supported metadata) :
    ∃ encryptionType, columnEncryptionType metadata.encryptionType = .ok encryptionType := by
  obtain htype | htype := h.encryption
  · exact ⟨.deterministic, by rw [htype]; rfl⟩
  · exact ⟨.randomized, by rw [htype]; rfl⟩

/-- A sealed plaintext opens to what it denormalizes to. -/
theorem decryptCell_encryptNormalized (hc : c.Lawful) (hkey : key.length = keySizeInBytes)
    (h : Supported metadata) (random : Vector UInt8 16) (what : String)
    (normalized : List UInt8) :
    ∃ blob, encryptNormalized c (.ok random) what (.ok (some normalized)) key
        metadata.cipherAlgorithmId metadata.encryptionType metadata.normalizationRuleVersion =
      .ok (some blob) ∧
    decryptCell c metadata key blob = denormalize normalized metadata.baseDataType
      metadata.baseTypeInfo supportedNormalizationVersion := by
  obtain ⟨encryptionType, htype⟩ := h.columnEncryptionType
  obtain ⟨cipher, hcipher⟩ := new_eq_ok hc hkey
  obtain ⟨blob, hencrypt, -, hdecrypt⟩ :=
    @decrypt_encrypt c cipher hc random normalized encryptionType
  refine ⟨blob, ?_, ?_⟩
  · rw [encryptNormalized_eq h htype]
    simp only [bind, Except.bind, hcipher, hencrypt]
    rfl
  · rw [decryptCell, if_neg (not_not.mpr h.cipher), hcipher]
    simp only [bind, Except.bind, hdecrypt, h.normalization]

/-- Deterministic sealing does not draw random numbers. -/
theorem encryptNormalized_deterministic (h : Supported metadata)
    (htype : metadata.encryptionType = 1) (random random' : TdsResult (Vector UInt8 16))
    (what what' : String) (normalized : TdsResult (Option (List UInt8))) :
    encryptNormalized c random what normalized key metadata.cipherAlgorithmId
        metadata.encryptionType metadata.normalizationRuleVersion =
      encryptNormalized c random' what' normalized key metadata.cipherAlgorithmId
        metadata.encryptionType metadata.normalizationRuleVersion := by
  have hdeterministic : columnEncryptionType metadata.encryptionType = .ok .deterministic := by
    rw [htype]
    rfl
  rw [encryptNormalized_eq h hdeterministic, encryptNormalized_eq h hdeterministic]
  rfl

/-- A bulk-copy cell or a parameter whose plaintext denormalizes to the value opens to it. -/
theorem decryptCell_of_normalized (hc : c.Lawful) (hkey : key.length = keySizeInBytes)
    (h : Supported metadata) (random : Vector UInt8 16) (what : String) {value : ColumnValues}
    {normalized : Option (List UInt8)} (hnormal : normalizeColumnValue value = .ok normalized)
    (hbase : OwnBase metadata.baseDataType metadata.baseTypeInfo value) (hrange : InRange value) :
    ∃ blob, encryptNormalized c (.ok random) what (.ok normalized) key metadata.cipherAlgorithmId
        metadata.encryptionType metadata.normalizationRuleVersion = .ok (some blob) ∧
      decryptCell c metadata key blob = .ok (opened value) := by
  cases normalized with
  | none =>
    obtain rfl := (normalizeColumnValue_eq_none hnormal).mp rfl
    cases hbase
  | some bytes =>
    obtain ⟨blob, hblob, hopen⟩ :=
      decryptCell_encryptNormalized hc hkey h random what bytes
    exact ⟨blob, hblob, hopen.trans (denormalize_normalizeColumnValue hnormal hbase hrange)⟩

/-- Sealing a value that normalizes gives no cell exactly if there is nothing to seal. -/
theorem encryptNormalized_eq_none_iff (hc : c.Lawful) (hkey : key.length = keySizeInBytes)
    (h : Supported metadata) (random : Vector UInt8 16) (what : String)
    (normalized : Option (List UInt8)) :
    encryptNormalized c (.ok random) what (.ok normalized) key metadata.cipherAlgorithmId
        metadata.encryptionType metadata.normalizationRuleVersion = .ok none ↔
      normalized = none := by
  obtain ⟨encryptionType, htype⟩ := h.columnEncryptionType
  cases normalized with
  | none =>
    rw [encryptNormalized_eq h htype]
    exact ⟨fun _ => rfl, fun _ => rfl⟩
  | some bytes =>
    obtain ⟨blob, hblob, -⟩ := decryptCell_encryptNormalized hc hkey h random what bytes
    rw [hblob]
    simp

end Sealed

/-- **The cell codec.**  For every key of 32 bytes and every supported encryption:

* a value in range whose own type is the column's base type opens to itself, times cut to their
  scale and strings without a byte limit, whether it was sealed as a bulk-copy cell or a parameter;
* `NULL` and only `NULL` gives no cell;
* a parameter and the corresponding cell have the same plaintext;
* deterministic encryption of a value always gives the same cell;
* a blob is put to AES exactly if it is authentic, and refused otherwise whatever AES does. -/
theorem cell_codec (c : Crypto) (hc : c.Lawful) (key : List UInt8)
    (hkey : key.length = keySizeInBytes) (metadata : CryptoMetadata) (h : Supported metadata)
    (random : Vector UInt8 16) :
    (∀ value normalized, normalizeColumnValue value = .ok normalized → InRange value →
      OwnBase metadata.baseDataType metadata.baseTypeInfo value →
      ∃ blob, encryptCellValue c (.ok random) value key metadata.cipherAlgorithmId
          metadata.encryptionType metadata.normalizationRuleVersion = .ok (some blob) ∧
        decryptCell c metadata key blob = .ok (opened value)) ∧
    (∀ value normalized, normalize value = .ok normalized → InRange (columnValue value) →
      OwnBase metadata.baseDataType metadata.baseTypeInfo (columnValue value) →
      ∃ blob, encryptParameter c (.ok random) value key metadata.cipherAlgorithmId
          metadata.encryptionType metadata.normalizationRuleVersion = .ok (some blob) ∧
        decryptCell c metadata key blob = .ok (opened (columnValue value))) ∧
    (∀ value normalized, normalizeColumnValue value = .ok normalized →
      (encryptCellValue c (.ok random) value key metadata.cipherAlgorithmId
        metadata.encryptionType metadata.normalizationRuleVersion = .ok none ↔ value = .null)) ∧
    (∀ value normalized, normalize value = .ok normalized →
      (encryptParameter c (.ok random) value key metadata.cipherAlgorithmId
        metadata.encryptionType metadata.normalizationRuleVersion = .ok none ↔
          columnValue value = .null)) ∧
    (∀ value normalized, normalize value = .ok normalized →
      normalizeColumnValue (columnValue value) = .ok normalized) ∧
    (metadata.encryptionType = 1 → ∀ random' : TdsResult (Vector UInt8 16),
      (∀ value, encryptCellValue c (.ok random) value key metadata.cipherAlgorithmId
          metadata.encryptionType metadata.normalizationRuleVersion =
        encryptCellValue c random' value key metadata.cipherAlgorithmId
          metadata.encryptionType metadata.normalizationRuleVersion) ∧
      ∀ value, encryptParameter c (.ok random) value key metadata.cipherAlgorithmId
          metadata.encryptionType metadata.normalizationRuleVersion =
        encryptParameter c random' value key metadata.cipherAlgorithmId
          metadata.encryptionType metadata.normalizationRuleVersion) ∧
    ∃ cipher, new c key = .ok cipher ∧ ∀ blob,
      (cipher.Authentic c blob → ∃ iv : Vector UInt8 16, iv.toList = blobIv blob ∧
        cipher.decrypt c blob =
          c.aes256CbcDecrypt cipher.encryptionKey iv (blobCiphertext blob)) ∧
      (¬ cipher.Authentic c blob → ∃ error, ∀ decryption,
        cipher.decrypt { c with aes256CbcDecrypt := decryption } blob = .error error) := by
  refine ⟨?_, ?_, ?_, ?_, ?_, ?_, ?_⟩
  · intro value normalized hnormal hrange hbase
    rw [encryptCellValue, hnormal]
    exact decryptCell_of_normalized hc hkey h random "cell" hnormal hbase hrange
  · intro value normalized hnormal hrange hbase
    rw [encryptParameter, hnormal]
    exact decryptCell_of_normalized hc hkey h random "parameter"
      (normalize_eq_normalizeColumnValue hnormal) hbase hrange
  · intro value normalized hnormal
    rw [encryptCellValue, hnormal, encryptNormalized_eq_none_iff hc hkey h,
      normalizeColumnValue_eq_none hnormal]
  · intro value normalized hnormal
    rw [encryptParameter, hnormal, encryptNormalized_eq_none_iff hc hkey h,
      normalizeColumnValue_eq_none (normalize_eq_normalizeColumnValue hnormal)]
  · exact fun value normalized hnormal => normalize_eq_normalizeColumnValue hnormal
  · intro htype random'
    exact ⟨fun value => encryptNormalized_deterministic h htype _ _ _ _ _,
      fun value => encryptNormalized_deterministic h htype _ _ _ _ _⟩
  · obtain ⟨cipher, hcipher⟩ := new_eq_ok hc hkey
    exact ⟨cipher, hcipher, fun blob => ⟨decrypt_of_authentic,
      decrypt_of_not_authentic⟩⟩

/-- Primitives that hide nothing: the ciphertext is the plaintext behind one block. -/
def Crypto.transparent : Crypto where
  hmacSha256 _ _ := .ok (.replicate 32 0)
  aes256CbcEncrypt _ _ plaintext := .ok (List.replicate 16 0 ++ plaintext)
  aes256CbcDecrypt _ _ ciphertext := .ok (ciphertext.drop 16)

theorem Crypto.transparent_lawful : Crypto.transparent.Lawful where
  hmac_total := fun key data => ⟨_, rfl⟩
  decrypt_encrypt := fun key iv plaintext => ⟨_, rfl, by simp, by simp [transparent]⟩

def deterministicColumn (baseDataType : TdsDataType) (baseTypeInfo : TypeInfo) :
    CryptoMetadata where
  cekTableOrdinal := 0
  baseDataType := baseDataType
  baseTypeInfo := baseTypeInfo
  cipherAlgorithmId := aeadAes256CbcHmacSha256AlgorithmId
  cipherAlgorithmName := none
  encryptionType := 1
  normalizationRuleVersion := supportedNormalizationVersion

theorem deterministicColumn_supported (t : TdsDataType) (info : TypeInfo) :
    Supported (deterministicColumn t info) :=
  ⟨rfl, rfl, .inl rfl⟩

/-- A negative `smallmoney` sealed as a parameter. -/
theorem cell_codec_smallMoney :
    ∃ blob, encryptParameter .transparent (.ok (.replicate 16 0)) (.smallMoney (some ⟨-1⟩))
        (List.replicate 32 0) 2 1 1 = .ok (some blob) ∧
      decryptCell .transparent
        (deterministicColumn .money4 ⟨.money4, 4, .fixedLen ⟨.money4, by decide⟩⟩)
        (List.replicate 32 0) blob = .ok (.smallMoney ⟨-1⟩) :=
  (cell_codec .transparent Crypto.transparent_lawful (List.replicate 32 0) rfl
    (deterministicColumn .money4 ⟨.money4, 4, .fixedLen ⟨.money4, by decide⟩⟩)
    (deterministicColumn_supported _ _) (.replicate 16 0)).2.1 (.smallMoney (some ⟨-1⟩)) _ rfl
    trivial (.inl rfl)

/-- A string with a byte limit does not come back as it was: the limit is no part of the cell. -/
theorem cell_codec_byte_limit :
    let value : ColumnValues := .string ⟨[65, 0], .utf16, some 1⟩
    let metadata := deterministicColumn .nVarChar
      ⟨.nVarChar, 20, .varLenString ⟨.nVarChar, by decide⟩ 20 none⟩
    OwnBase metadata.baseDataType metadata.baseTypeInfo value ∧ InRange value ∧
    ∃ blob, encryptCellValue .transparent (.ok (.replicate 16 0)) value
      (List.replicate 32 0) 2 1 1 =
        .ok (some blob) ∧
      decryptCell .transparent metadata (List.replicate 32 0) blob ≠ .ok value.truncated := by
  refine ⟨.inl ⟨by decide, rfl⟩, trivial, ?_⟩
  obtain ⟨blob, hblob, hopen⟩ := decryptCell_encryptNormalized Crypto.transparent_lawful
    (show (List.replicate 32 (0 : UInt8)).length = keySizeInBytes from rfl)
    (deterministicColumn_supported .nVarChar
      ⟨.nVarChar, 20, .varLenString ⟨.nVarChar, by decide⟩ 20 none⟩)
        (.replicate 16 0) "cell" [65, 0]
  refine ⟨blob, hblob, ?_⟩
  rw [hopen]
  decide

end MssqlTds.Security
