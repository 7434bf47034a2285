import MssqlTds.Datatypes.SqlTypes
import MssqlTds.Datatypes.ValueRoundTrip
import MssqlTds.Security.CellCipher

/-!
# Encrypted cells

The plaintext of an encrypted cell is its *normalized* value, a byte form of its own: integers take
eight bytes whatever their width, a `smallmoney` is extended to a `money`, a decimal has a magnitude
of sixteen bytes.  A parameter is normalized by `normalize`, a bulk-copy cell by
`normalizeColumnValue`, and both are read back by `denormalize`, with the type before encryption
(the base type) to say how.
-/

namespace MssqlTds.Security

open Bytes

def aeadAes256CbcHmacSha256AlgorithmId : UInt8 := 0x02

def supportedNormalizationVersion : UInt8 := 0x01

def decimalMagnitudeBytes : ℕ := 16

/-! ### Reading a normalized value -/

/-- A value of the wrong length. -/
def lengthError (expected : String) (actual : ℕ) : Error := .columnEncryptionError
  s!"Invalid normalized plaintext length for {expected}: got {actual} bytes"

/-- A number of exactly `width` bytes. -/
def readUintLe (bytes : List UInt8) (width : ℕ) (what : String) : TdsResult ℕ :=
  if bytes.length = width then .ok (ofLe bytes) else .error (lengthError what bytes.length)

def readI64 (bytes : List UInt8) : TdsResult Int64 :=
  (fun n => (UInt64.ofNat n).toInt64) <$> readUintLe bytes 8 "8-byte integer"

def readF32 (bytes : List UInt8) : TdsResult UInt32 :=
  UInt32.ofNat <$> readUintLe bytes 4 "4-byte real"

def readF64 (bytes : List UInt8) : TdsResult UInt64 :=
  UInt64.ofNat <$> readUintLe bytes 8 "8-byte float"

/-- The four bytes at an offset. -/
def readI32At (bytes : List UInt8) (offset : ℕ) : TdsResult Int32 :=
  if offset + 4 ≤ bytes.length then
    .ok (UInt32.ofNat (ofLe ((bytes.drop offset).take 4))).toInt32
  else .error (lengthError "4-byte money component" bytes.length)

/-- The high half comes first. -/
def readMoney (bytes : List UInt8) : TdsResult SqlMoney := do
  if bytes.length ≠ 8 then throw (lengthError "8-byte money" bytes.length)
  let msbPart ← readI32At bytes 0
  let lsbPart ← readI32At bytes 4
  pure ⟨lsbPart, msbPart⟩

def readSmallMoney (bytes : List UInt8) : TdsResult SqlSmallMoney := do
  if bytes.length ≠ 8 then throw (lengthError "8-byte smallmoney" bytes.length)
  let intVal ← readI32At bytes 4
  pure ⟨intVal⟩

/-- A sign byte and a magnitude of up to sixteen bytes. -/
def readDecimal (bytes : List UInt8) (baseTypeInfo : TypeInfo) : TdsResult DecimalParts :=
  match baseTypeInfo.typeInfoVariant with
  | .varLenPrecisionScale _ _ precision scale =>
    if !decimalMetadataIsValid precision scale then
      .error (.columnEncryptionError s!"Invalid decimal precision {precision} / scale {scale}")
    else match bytes with
      | [] => .error (lengthError "decimal sign byte" 0)
      | sign :: magnitude =>
        if magnitude.length > decimalMagnitudeBytes then
          .error (.columnEncryptionError
            (s!"Invalid decimal magnitude length {magnitude.length} " ++
            s!"(max {decimalMagnitudeBytes} bytes for precision <= 38)"))
        else .ok
          { isPositive := sign == 1
            precision := precision
            scale := scale
            -- a short magnitude is filled up with zeros
            magnitude := BitVec.ofNat 128 (ofLe magnitude) }
  | other => .error (.columnEncryptionError
      s!"Invalid base type info for decimal/numeric: {other.debug}")

/-- The encoding of a character column. -/
def stringEncoding (baseDataType : TdsDataType) (baseTypeInfo : TypeInfo) :
    TdsResult EncodingType :=
  if baseDataType.isUnicodeType then .ok .utf16
  else
    let collation := match baseTypeInfo.typeInfoVariant with
      | .varLenString _ _ collation => collation
      | .partialLen _ _ collation => collation
      | _ => none
    match collation with
    | some collation => .ok (if collation.utf8 then .utf8 else .lcidBased collation)
    | none => .error (.columnEncryptionError
        "Encrypted character column is missing collation information")

def temporalScale (baseTypeInfo : TypeInfo) : TdsResult UInt8 :=
  match baseTypeInfo.typeInfoVariant with
  | .varLenScale _ scale => .ok scale
  | other => .error (.columnEncryptionError
      s!"Encrypted temporal column is missing scale information: {other.debug}")

def readDate (bytes : List UInt8) : TdsResult SqlDate :=
  if h : bytes.length = 3 then
    .ok ⟨UInt32.ofNat (ofLe bytes), by
      have hlt := ofLe_lt bytes
      rw [h] at hlt
      rw [UInt32.toNat_ofNat', Nat.mod_eq_of_lt (by omega)]
      omega⟩
  else .error (lengthError "3-byte date" bytes.length)

def readTime (bytes : List UInt8) (scale : UInt8) : TdsResult SqlTime := do
  let scaledValue ← match bytes.length with
    | 3 => readUintLe bytes 3 "time"
    | 4 => readUintLe bytes 4 "time"
    | 5 => readUintLe bytes 5 "time"
    | other => throw (lengthError "3/4/5-byte time" other)
  let multiplier := if scale ≤ 7 then 10 ^ (7 - scale.toNat) else 1
  pure ⟨UInt64.ofNat (scaledValue * multiplier), scale⟩

/-- A time and a date of three bytes. -/
def readDatetime2 (bytes : List UInt8) (scale : UInt8) : TdsResult SqlDateTime2 := do
  if bytes.length < 3 then throw (lengthError "datetime2 (time + 3-byte date)" bytes.length)
  let dateStart := bytes.length - 3
  let time ← readTime (bytes.take dateStart) scale
  let date ← readDate (bytes.drop dateStart)
  pure ⟨date.days, time⟩

/-- A `datetime2` and an offset of two bytes. -/
def readDatetimeOffset (bytes : List UInt8) (scale : UInt8) : TdsResult SqlDateTimeOffset := do
  if bytes.length < 2 then
    throw (lengthError "datetimeoffset (datetime2 + 2-byte offset)" bytes.length)
  let offsetStart := bytes.length - 2
  let datetime2 ← readDatetime2 (bytes.take offsetStart) scale
  pure ⟨datetime2, (UInt16.ofNat (ofLe (bytes.drop offsetStart))).toInt16⟩

def readSmallDatetime (bytes : List UInt8) : TdsResult SqlSmallDateTime := do
  if bytes.length ≠ 4 then throw (lengthError "4-byte smalldatetime" bytes.length)
  let days ← readUintLe (bytes.take 2) 2 "smalldatetime days"
  let time ← readUintLe (bytes.drop 2) 2 "smalldatetime minutes"
  pure ⟨UInt16.ofNat days, UInt16.ofNat time⟩

def readDatetime (bytes : List UInt8) : TdsResult SqlDateTime :=
  if bytes.length ≠ 8 then .error (lengthError "8-byte datetime" bytes.length)
  else .ok ⟨(UInt32.ofNat (ofLe (bytes.take 4))).toInt32, UInt32.ofNat (ofLe (bytes.drop 4))⟩

/-- The integer is cut to the column's width. -/
def narrowTinyint (value : Int64) : UInt8 := value.toUInt64.toUInt8

def narrowSmallint (value : Int64) : Int16 := value.toInt16

def narrowInt (value : Int64) : Int32 := value.toInt32

def invalidBaseLength (family : String) (length : ℕ) : Error := .columnEncryptionError
  s!"Invalid {family} base length {length} for encrypted column"

/-- Reads a normalized value as a value of its base type. -/
def denormalize (plaintext : List UInt8) (baseDataType : TdsDataType) (baseTypeInfo : TypeInfo)
    (normalizationRuleVersion : UInt8) : TdsResult ColumnValues :=
  if normalizationRuleVersion ≠ supportedNormalizationVersion then
    .error (.columnEncryptionError
      (s!"Unsupported Always Encrypted normalization rule version {normalizationRuleVersion} " ++
        s!"(expected {supportedNormalizationVersion})"))
  else match baseDataType with
    | .bit | .bitN => (fun value => .bit (value != 0)) <$> readI64 plaintext
    | .int1 => (fun value => .tinyInt (narrowTinyint value)) <$> readI64 plaintext
    | .int2 => (fun value => .smallInt (narrowSmallint value)) <$> readI64 plaintext
    | .int4 => (fun value => .int (narrowInt value)) <$> readI64 plaintext
    | .int8 => .bigInt <$> readI64 plaintext
    | .intN => do
      let value ← readI64 plaintext
      match baseTypeInfo.length with
      | 1 => pure (.tinyInt (narrowTinyint value))
      | 2 => pure (.smallInt (narrowSmallint value))
      | 4 => pure (.int (narrowInt value))
      | 8 => pure (.bigInt value)
      | other => throw (invalidBaseLength "IntN" other)
    | .flt4 => .real <$> readF32 plaintext
    | .flt8 => .float <$> readF64 plaintext
    | .fltN =>
      match plaintext.length with
      | 4 => .real <$> readF32 plaintext
      | 8 => .float <$> readF64 plaintext
      | other => .error (.columnEncryptionError
          s!"Invalid FltN plaintext length {other} (expected 4 or 8)")
    | .money => .money <$> readMoney plaintext
    | .money4 => .smallMoney <$> readSmallMoney plaintext
    | .moneyN =>
      match baseTypeInfo.length with
      | 4 => .smallMoney <$> readSmallMoney plaintext
      | 8 => .money <$> readMoney plaintext
      | other => .error (invalidBaseLength "MoneyN" other)
    | .decimal | .decimalN => .decimal <$> readDecimal plaintext baseTypeInfo
    | .numeric | .numericN => .numeric <$> readDecimal plaintext baseTypeInfo
    | .binary | .varBinary | .bigBinary | .bigVarBinary | .image => .ok (.bytes plaintext)
    | .guid =>
      match Uuid.fromSliceLe plaintext with
      | .ok uuid => .ok (.uuid uuid)
      | .error _ => .error (.columnEncryptionError
          ("Invalid uniqueidentifier plaintext: invalid length: expected 16 bytes, " ++
            s!"found {plaintext.length}"))
    | .char | .varChar | .bigChar | .bigVarChar | .text | .nChar | .nVarChar | .nText =>
      (fun encoding => .string ⟨plaintext, encoding, none⟩) <$>
        stringEncoding baseDataType baseTypeInfo
    | .dateN => .date <$> readDate plaintext
    | .timeN => do
      let scale ← temporalScale baseTypeInfo
      .time <$> readTime plaintext scale
    | .dateTime2N => do
      let scale ← temporalScale baseTypeInfo
      .dateTime2 <$> readDatetime2 plaintext scale
    | .dateTimeOffsetN => do
      let scale ← temporalScale baseTypeInfo
      .dateTimeOffset <$> readDatetimeOffset plaintext scale
    | .dateTim4 => .smallDateTime <$> readSmallDatetime plaintext
    | .dateTime => .dateTime <$> readDatetime plaintext
    | .dateTimeN =>
      match baseTypeInfo.length with
      | 4 => .smallDateTime <$> readSmallDatetime plaintext
      | 8 => .dateTime <$> readDatetime plaintext
      | other => .error (invalidBaseLength "DateTimeN" other)
    | other => .error (.columnEncryptionError
        s!"Denormalization is not yet implemented for encrypted base type {other.name}")

/-- Opens an encrypted cell and reads its value. -/
def decryptCell (c : Crypto) (cryptoMetadata : CryptoMetadata) (plaintextCek : List UInt8)
    (cipherBlob : List UInt8) : TdsResult ColumnValues := do
  if cryptoMetadata.cipherAlgorithmId ≠ aeadAes256CbcHmacSha256AlgorithmId then
    throw (.columnEncryptionError
      (s!"Unsupported cell cipher algorithm id {lowerHexByte cryptoMetadata.cipherAlgorithmId} " ++
        s!"(expected {lowerHexByte aeadAes256CbcHmacSha256AlgorithmId})"))
  let cipher ← AeadAes256CbcHmacSha256.new c plaintextCek
  let plaintext ← cipher.decrypt c cipherBlob
  denormalize plaintext cryptoMetadata.baseDataType cryptoMetadata.baseTypeInfo
    cryptoMetadata.normalizationRuleVersion

/-! ### Normalizing a value -/

/-- Every integer type takes eight bytes. -/
def normalizeInt (n : Int64) : List UInt8 := leBytes 8 n.toUInt64.toNat

def normalizeMoney (m : SqlMoney) : List UInt8 :=
  leBytes 4 m.msbPart.toUInt32.toNat ++ leBytes 4 m.lsbPart.toUInt32.toNat

/-- A `smallmoney` is sign-extended to a `money`, whose high half comes first. -/
def normalizeSmallMoney (m : SqlSmallMoney) : List UInt8 :=
  let value := m.intVal.toInt64
  leBytes 4 (value >>> 32).toInt32.toUInt32.toNat ++ leBytes 4 value.toInt32.toUInt32.toNat

def normalizeDecimal (d : DecimalParts) : List UInt8 :=
  (if d.isPositive then 1 else 0) :: leBytes decimalMagnitudeBytes d.magnitude.toNat

def timeByteWidth (scale : UInt8) : ℕ :=
  if scale ≤ 2 then 3 else if scale ≤ 4 then 4 else 5

def normalizeDate (d : SqlDate) : List UInt8 := leBytes 3 d.days.toNat

def normalizeTime (t : SqlTime) : TdsResult (List UInt8) :=
  if t.scale > 7 then
    .error (.columnEncryptionError s!"Invalid time scale {t.scale} (expected 0..=7)")
  else .ok (leBytes (timeByteWidth t.scale) (t.timeNanoseconds.toNat / 10 ^ (7 - t.scale.toNat)))

def normalizeDatetime2 (dt : SqlDateTime2) : TdsResult (List UInt8) := do
  let out ← normalizeTime dt.time
  pure (out ++ leBytes 3 dt.days.toNat)

def normalizeDatetimeOffset (dto : SqlDateTimeOffset) : TdsResult (List UInt8) := do
  let out ← normalizeDatetime2 dto.datetime2
  pure (out ++ leBytes 2 dto.offset.toUInt16.toNat)

def normalizeSmallDatetime (sdt : SqlSmallDateTime) : List UInt8 :=
  leBytes 2 sdt.days.toNat ++ leBytes 2 sdt.time.toNat

def normalizeDatetime (dt : SqlDateTime) : List UInt8 :=
  leBytes 4 dt.days.toUInt32.toNat ++ leBytes 4 dt.time.toNat

/-- A value that may fail to normalize, or be `NULL`. -/
def normalizeSome {α : Type} (f : α → TdsResult (List UInt8)) :
    Option α → TdsResult (Option (List UInt8))
  | some v => some <$> f v
  | none => .ok none

/-- The plaintext of a parameter, `none` for `NULL`. -/
def normalize : SqlType → TdsResult (Option (List UInt8))
  | .bit v => .ok (v.map fun b => normalizeInt (if b then 1 else 0))
  | .tinyInt v => .ok (v.map fun n => normalizeInt n.toUInt64.toInt64)
  | .smallInt v => .ok (v.map fun n => normalizeInt n.toInt64)
  | .int v => .ok (v.map fun n => normalizeInt n.toInt64)
  | .bigInt v => .ok (v.map normalizeInt)
  | .real v => .ok (v.map fun bits => leBytes 4 bits.toNat)
  | .float v => .ok (v.map fun bits => leBytes 8 bits.toNat)
  | .money v => .ok (v.map normalizeMoney)
  | .smallMoney v => .ok (v.map normalizeSmallMoney)
  | .decimal v | .numeric v => .ok (v.map normalizeDecimal)
  | .uuid v => .ok (v.map Uuid.toBytesLe)
  | .binary v _ | .varBinary v _ | .varBinaryMax v => .ok v
  | .nVarchar v _ | .nVarcharMax v | .nChar v _ | .nText v | .varchar v _ | .varcharMax v
  | .char v _ | .text v => .ok (v.map SqlString.bytes)
  | .date v => .ok (v.map normalizeDate)
  | .time v => normalizeSome normalizeTime v
  | .dateTime2 v => normalizeSome normalizeDatetime2 v
  | .dateTimeOffset v => normalizeSome normalizeDatetimeOffset v
  | .smallDateTime v => .ok (v.map normalizeSmallDatetime)
  | .dateTime v => .ok (v.map normalizeDatetime)
  | .image _ => notNormalized "Image"
  | .json _ => notNormalized "Json"
  | .xml _ => notNormalized "Xml"
  | .vector .. => notNormalized "Vector"
  | .variant _ => notNormalized "Variant"
  | .table .. => notNormalized "Table"
  | .udt .. => notNormalized "Udt"
where
  notNormalized (typeName : String) : TdsResult (Option (List UInt8)) :=
    .error (.columnEncryptionError
      s!"Always Encrypted normalization is not implemented for parameter type {typeName}(..)")

/-- The plaintext of a bulk-copy cell, `none` for `NULL`. -/
def normalizeColumnValue : ColumnValues → TdsResult (Option (List UInt8))
  | .null => .ok none
  | .bit v => .ok (some (normalizeInt (if v then 1 else 0)))
  | .tinyInt v => .ok (some (normalizeInt v.toUInt64.toInt64))
  | .smallInt v => .ok (some (normalizeInt v.toInt64))
  | .int v => .ok (some (normalizeInt v.toInt64))
  | .bigInt v => .ok (some (normalizeInt v))
  | .real bits => .ok (some (leBytes 4 bits.toNat))
  | .float bits => .ok (some (leBytes 8 bits.toNat))
  | .money v => .ok (some (normalizeMoney v))
  | .smallMoney v => .ok (some (normalizeSmallMoney v))
  | .decimal v | .numeric v => .ok (some (normalizeDecimal v))
  | .uuid v => .ok (some v.toBytesLe)
  | .bytes v => .ok (some v)
  | .string s => .ok (some s.bytes)
  | .date v => .ok (some (normalizeDate v))
  | .time v => some <$> normalizeTime v
  | .dateTime2 v => some <$> normalizeDatetime2 v
  | .dateTimeOffset v => some <$> normalizeDatetimeOffset v
  | .smallDateTime v => .ok (some (normalizeSmallDatetime v))
  | .dateTime v => .ok (some (normalizeDatetime v))
  | .xml _ => notNormalized "Xml"
  | .json _ => notNormalized "Json"
  | .vector _ => notNormalized "Vector"
where
  notNormalized (typeName : String) : TdsResult (Option (List UInt8)) :=
    .error (.columnEncryptionError
      s!"Always Encrypted normalization is not implemented for bulk-copy value {typeName}(..)")

/-! ### Encrypting a value -/

def columnEncryptionType (encryptionType : UInt8) : TdsResult ColumnEncryptionType :=
  match encryptionType with
  | 1 => .ok .deterministic
  | 2 => .ok .randomized
  | other => .error (.columnEncryptionError
      s!"Unsupported Always Encrypted encryption type {other} (expected 1 or 2)")

/-- Normalizes and seals a value.  The two callers differ in how they normalize and in what they
call the value. -/
def encryptNormalized (c : Crypto) (random : TdsResult (Vector UInt8 16)) (what : String)
    (normalized : TdsResult (Option (List UInt8))) (plaintextCek : List UInt8)
    (cipherAlgorithmId encryptionType normalizationRuleVersion : UInt8) :
    TdsResult (Option (List UInt8)) := do
  if cipherAlgorithmId ≠ aeadAes256CbcHmacSha256AlgorithmId then
    throw (.columnEncryptionError
      (s!"Unsupported {what} cipher algorithm id {lowerHexByte cipherAlgorithmId} (expected " ++
        s!"{lowerHexByte aeadAes256CbcHmacSha256AlgorithmId})"))
  if normalizationRuleVersion ≠ supportedNormalizationVersion then
    throw (.columnEncryptionError
      (s!"Unsupported Always Encrypted normalization rule version {normalizationRuleVersion} " ++
        s!"(expected {supportedNormalizationVersion})"))
  let columnEncryptionType ← columnEncryptionType encryptionType
  match ← normalized with
  | none => pure none
  | some normalized =>
    let cipher ← AeadAes256CbcHmacSha256.new c plaintextCek
    some <$> cipher.encrypt c random normalized columnEncryptionType

def encryptParameter (c : Crypto) (random : TdsResult (Vector UInt8 16)) (value : SqlType) :
    List UInt8 → UInt8 → UInt8 → UInt8 → TdsResult (Option (List UInt8)) :=
  encryptNormalized c random "parameter" (normalize value)

def encryptCellValue (c : Crypto) (random : TdsResult (Vector UInt8 16)) (value : ColumnValues) :
    List UInt8 → UInt8 → UInt8 → UInt8 → TdsResult (Option (List UInt8)) :=
  encryptNormalized c random "cell" (normalizeColumnValue value)

end MssqlTds.Security
