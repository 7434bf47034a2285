import MssqlTds.Datatypes.Metadata
import MssqlTds.Datatypes.Plp

/-!
# The value decoder

`decode` reads one value of a column off the message.  The character types go through
`StringDecoder.decode`, the partially length-prefixed ones through `readPlpBytes`, and a
`sql_variant` through `readSqlVariantWithBase`, which comes back to the decoder for its fixed-length
base types.
-/

namespace MssqlTds

open Bytes Reader

/-- Largest allocation for a single value. -/
def maxAllocSize : ℕ := 100 * 1024 * 1024

def decimalMetadataIsValid (precision scale : UInt8) : Bool :=
  precision > 0 && precision ≤ 38 && scale ≤ precision

/-- A time in units of its scale, in 100-nanosecond ticks. -/
def scaleTimeValue (value : UInt64) (scale : UInt8) : UInt64 :=
  value * match scale with
    | 0 => 10000000
    | 1 => 1000000
    | 2 => 100000
    | 3 => 10000
    | 4 => 1000
    | 5 => 100
    | 6 => 10
    | _ => 1

/-- A uuid from 16 bytes with the first three fields little-endian. -/
def Uuid.fromSliceLe (bs : List UInt8) : TdsResult Uuid :=
  if h : bs.length = 16 then
    .ok { d1 := UInt32.ofNat (ofLe (bs.take 4))
          d2 := UInt16.ofNat (ofLe ((bs.drop 4).take 2))
          d3 := UInt16.ofNat (ofLe ((bs.drop 6).take 2))
          d4 := ⟨(bs.drop 8).toArray, by simp [h]⟩ }
  else .error (.protocolError
    s!"Failed to parse UUID: invalid length: expected 16 bytes, found {bs.length}")

/-- A collation from its five bytes. -/
def SqlCollation.tryFrom (bs : List UInt8) : TdsResult SqlCollation :=
  if bs.length ≠ 5 then
    .error (.io s!"Invalid collation length: {bs.length} (expected 5)")
  else
    let info := UInt32.ofNat (ofLe (bs.take 4))
    .ok { info := info
          lcidLanguageId := (info &&& 0x000FFFFF).toInt32
          colFlags := ((info >>> 20) &&& 0xFF).toUInt8
          sortId := bs.getD 4 0 }

namespace GenericDecoder

/-! ### Partially length-prefixed values -/

def plpValue (wrap : List UInt8 → ColumnValues) : TdsReader ColumnValues := do
  match ← readPlpBytes with
  | some bytes => pure (wrap bytes)
  | none => pure .null

/-- A type whose metadata has to be partially length-prefixed. -/
def decodePlpOnly (metadata : ColumnMetadata) (what : String) (wrap : List UInt8 → ColumnValues) :
    TdsReader ColumnValues :=
  if !metadata.isPlp then
    throw (.protocolError s!"{what} column metadata is not partially-length-prefixed")
  else plpValue wrap

/-! ### Numbers, dates and times -/

/-- A value of `length` bytes, sign first. -/
def readDecimalData (length precision scale : UInt8) : TdsReader (Option DecimalParts) :=
  if !decimalMetadataIsValid precision scale then
    throw (.protocolError s!"Invalid decimal precision {precision} / scale {scale}")
  else if length = 0 then pure none
  else do
    let sign ← readByte
    let magnitudeLen := (length - 1).toNat
    let numberOfIntParts := (magnitudeLen + 3) / 4
    if numberOfIntParts > 4 then
      throw (.protocolError (s!"Decimal int parts {numberOfIntParts} exceeds maximum allowed 4 " ++
        s!"(length was {length})"))
    else do
      let magnitude ← readBytes magnitudeLen
      pure (some ⟨sign == 1, scale, precision, BitVec.ofNat 128 (ofLe magnitude)⟩)

def readDecimal (metadata : ColumnMetadata) : TdsReader (Option DecimalParts) := do
  let length ← readByte
  match metadata.typeInfo.typeInfoVariant with
  | .varLenPrecisionScale _ _ precision scale => readDecimalData length precision scale
  | variant => throw (.protocolError
      ("Invalid type info variant for Decimal/Numeric: expected VarLenPrecisionScale, got: " ++
        variant.debug))

def readDatetime : TdsReader SqlDateTime := do
  let days ← readInt32
  let ticks ← readUint32
  pure ⟨days, ticks⟩

def readSmallDatetime : TdsReader SqlSmallDateTime := do
  let days ← readUint16
  let minutes ← readUint16
  pure ⟨days, minutes⟩

def readDate : TdsReader SqlDate := (fun days => ⟨days.val, days.property⟩) <$> readUint24

def readScaledTime (byteLen : UInt8) : TdsReader UInt64 :=
  match byteLen with
  | 3 => (fun v => v.val.toUInt64) <$> readUint24
  | 4 => UInt32.toUInt64 <$> readUint32
  | _ => readUint40

def readTime (byteLen scale : UInt8) : TdsReader SqlTime :=
  (fun scaledValue => ⟨scaleTimeValue scaledValue scale, scale⟩) <$> readScaledTime byteLen

def readDatetime2 (byteLen scale : UInt8) : TdsReader SqlDateTime2 :=
  if byteLen < 3 then
    throw (.protocolError (s!"Invalid DateTime2 byte length: {byteLen}. " ++
      "Expected at least 3 bytes for date component."))
  else do
    let time ← readTime (byteLen - 3) scale
    let date ← readDate
    pure ⟨date.days, time⟩

def readDatetimeOffset (byteLen scale : UInt8) : TdsReader SqlDateTimeOffset :=
  if byteLen < 2 then
    throw (.protocolError (s!"Invalid DateTimeOffset byte length: {byteLen}. " ++
      "Expected at least 2 bytes for offset component."))
  else do
    let datetime2 ← readDatetime2 (byteLen - 2) scale
    let offset ← readInt16
    pure ⟨datetime2, offset⟩

def readIntn (byteLen : UInt8) : TdsReader ColumnValues :=
  match byteLen with
  | 1 => .tinyInt <$> readByte
  | 2 => .smallInt <$> readInt16
  | 4 => .int <$> readInt32
  | 8 => .bigInt <$> readInt64
  | 0 => pure .null
  | _ => throw (.io "Invalid IntN length")

def readMoney4 : TdsReader SqlSmallMoney := .mk <$> readInt32

/-- The high half comes first. -/
def readMoney8 : TdsReader SqlMoney := do
  let msb ← readInt32
  let lsb ← readInt32
  pure ⟨lsb, msb⟩

def readDaten (length : UInt8) : TdsReader ColumnValues :=
  if length = 0 then pure .null else .date <$> readDate

def readGuid (length : UInt8) : TdsReader ColumnValues :=
  if length > 0 then
    if length ≠ 16 then
      throw (.protocolError s!"Invalid GUID length: expected 16 bytes, got {length}")
    else do
      let bytes ← readBytes length.toNat
      let uuid ← liftReader (Uuid.fromSliceLe bytes)
      pure (.uuid uuid)
  else pure .null

/-! ### Counted values -/

/-- A value behind its length in two bytes; `0xFFFF` is `NULL`. -/
def readUshortLen (what : String) (wrap : List UInt8 → ColumnValues) : TdsReader ColumnValues := do
  let length ← readUint16
  if length = 0xFFFF then pure .null
  else if length.toNat > maxAllocSize then
    throw (.protocolError (s!"{what} length {length} exceeds maximum allowed size of " ++
      s!"{maxAllocSize} bytes"))
  else do
    let bytes ← readBytes length.toNat
    pure (wrap bytes)

/-- A legacy large object behind its text pointer and timestamp.  Only an absent pointer is
`NULL`. -/
def readLongLen (what : String) (wrap : List UInt8 → ColumnValues) : TdsReader ColumnValues := do
  let textPtrLen ← readByte
  if textPtrLen = 0 then pure .null
  else do
    skipBytes textPtrLen.toNat
    skipBytes 8
    let length ← readUint32
    if length.toNat > maxAllocSize then
      throw (.protocolError (s!"{what} length {length} exceeds maximum allowed size of " ++
        s!"{maxAllocSize} bytes"))
    else do
      let bytes ← readBytes length.toNat
      pure (wrap bytes)

/-! ### Vectors -/

def vectorLayoutFormat (value : UInt8) : TdsResult Unit :=
  if value = 0xA9 then .ok ()
  else .error (.protocolError s!"Invalid Vector layout format: 0x{hexByte value}")

def vectorLayoutVersion (value : UInt8) : TdsResult Unit :=
  if value = 0x01 then .ok ()
  else .error (.protocolError s!"Unsupported Vector layout version: 0x{hexByte value}")

def vectorBaseType (value : UInt8) : TdsResult VectorBaseType :=
  if value = 0x00 then .ok .float32
  else if value = 0x01 then .ok .float16
  else .error (.protocolError s!"Unsupported Vector base type: 0x{hexByte value}")

/-- A byte string in pieces of `k` bytes; an incomplete last piece is dropped. -/
def chunksExact (k : ℕ) (bs : List UInt8) : List (List UInt8) :=
  (List.range (bs.length / k)).map fun i => (bs.drop (i * k)).take k

def validateDimensions (v : SqlVector) : TdsResult Unit :=
  if v.elementCount = 0 then .error (.protocolError "Vector must have at least one dimension")
  else if v.elementCount > v.baseType.maxDimensions then
    .error (.protocolError (s!"Vector dimension count {v.elementCount} exceeds maximum of " ++
      s!"{v.baseType.maxDimensions} for base type {v.baseType.name}"))
  else if v.totalSize > vectorMaxSize then
    .error (.protocolError (s!"Vector total size {v.totalSize} bytes exceeds maximum of " ++
      s!"{vectorMaxSize} bytes"))
  else .ok ()

def vectorData (cs : Codecs) (baseType : VectorBaseType) (rawBytes : List UInt8) : VectorData :=
  match baseType with
  | .float32 => .float32 ((chunksExact 4 rawBytes).map fun c => UInt32.ofNat (ofLe c))
  | .float16 => .float16 ((chunksExact 2 rawBytes).map fun c =>
      cs.f16ToF32 (UInt16.ofNat (ofLe c)))

/-- A vector from its header fields and the bytes of its elements. -/
def vectorTryFromRaw (cs : Codecs) (layoutFormat layoutVersion baseType : UInt8)
    (rawBytes : List UInt8) : TdsResult SqlVector := do
  vectorLayoutFormat layoutFormat
  vectorLayoutVersion layoutVersion
  let base ← vectorBaseType baseType
  if rawBytes.length % base.elementSizeBytes ≠ 0 then
    throw (.protocolError (s!"Malformed vector payload: byte length ({rawBytes.length}) is not " ++
      s!"a multiple of the element size ({base.elementSizeBytes})"))
  else do
    let vector : SqlVector := ⟨base, vectorData cs base rawBytes⟩
    validateDimensions vector
    pure vector

/-- The base type the metadata carries in place of a scale. -/
def vectorMetadataBaseType (metadata : ColumnMetadata) : TdsResult UInt8 :=
  match metadata.typeInfo.typeInfoVariant with
  | .varLenScale _ scale => .ok scale
  | _ => .error (.protocolError "Vector metadata missing scale (base type)")

/-- The elements of a vector of which the header has been read. -/
def decodeVectorBody (cs : Codecs) (metadata : ColumnMetadata) (lengthPrefixValue : ℕ)
    (layoutFormat layoutVersion : UInt8) (dimensionCount : UInt16) (baseTypeByte : UInt8) :
    TdsReader ColumnValues := do
  liftReader (vectorLayoutFormat layoutFormat)
  liftReader (vectorLayoutVersion layoutVersion)
  let baseTypeInMetadata ← liftReader (vectorMetadataBaseType metadata)
  if baseTypeByte ≠ baseTypeInMetadata then
    throw (.protocolError (s!"Vector base type mismatch: metadata has " ++
      s!"0x{hexByte baseTypeInMetadata}, vector header has 0x{hexByte baseTypeByte}"))
  else do
    let baseType ← liftReader (vectorBaseType baseTypeByte)
    let elementSize := baseType.elementSizeBytes
    let lengthFromHeader := vectorHeaderSize + dimensionCount.toNat * elementSize
    if lengthPrefixValue ≠ lengthFromHeader ∨ lengthPrefixValue ≠ metadata.typeInfo.length then
      throw (.protocolError (s!"Vector length mismatch: length in prefix {lengthPrefixValue} " ++
        s!"bytes, length from vector header {lengthFromHeader} bytes, length in metadata " ++
        s!"{metadata.typeInfo.length} bytes, for {dimensionCount} dimensions (element size: " ++
        s!"{elementSize} bytes)"))
    else do
      let rawBytes ← readBytes (lengthPrefixValue - vectorHeaderSize)
      let vector ← liftReader (vectorTryFromRaw cs layoutFormat layoutVersion baseTypeByte rawBytes)
      pure (.vector vector)

def decodeVector (cs : Codecs) (metadata : ColumnMetadata) : TdsReader ColumnValues := do
  let lengthPrefix ← readUint16
  if lengthPrefix = 0xFFFF then pure .null
  else if lengthPrefix.toNat > vectorMaxSize then
    throw (.protocolError (s!"Vector length {lengthPrefix} exceeds maximum of " ++
      s!"{vectorMaxSize} bytes"))
  else if lengthPrefix.toNat < vectorHeaderSize then
    throw (.protocolError (s!"Vector length {lengthPrefix} is less than minimum header size of " ++
      s!"{vectorHeaderSize} bytes"))
  else do
    let layoutFormat ← readByte
    let layoutVersion ← readByte
    let dimensionCount ← readUint16
    let baseTypeByte ← readByte
    let _ ← readByte
    let _ ← readByte
    let _ ← readByte
    decodeVectorBody cs metadata lengthPrefix.toNat layoutFormat layoutVersion dimensionCount
      baseTypeByte

end GenericDecoder

/-! ### Strings -/

namespace StringDecoder

open GenericDecoder

/-- The legacy large objects. -/
def isLongLenType : TdsDataType → Bool
  | .nText | .text => true
  | _ => false

def decode (metadata : ColumnMetadata) : TdsReader ColumnValues := do
  let encodingType ← liftReader metadata.getEncodingType
  let wrap (bytes : List UInt8) : ColumnValues := .string (.new bytes encodingType)
  if metadata.isPlp then plpValue wrap
  else if isLongLenType metadata.dataType then readLongLen "Text data" wrap
  else do
    let length ← readUint16
    if length = 0xFFFF then pure .null
    else do
      let bytes ← readBytes length.toNat
      pure (wrap bytes)

end StringDecoder

namespace GenericDecoder

/-! ### All types but variants -/

/-- The scale of a temporal column. -/
def requireScale (metadata : ColumnMetadata) : TdsReader UInt8 :=
  match metadata.getScale with
  | some scale => pure scale
  | none => throw (.implementationError s!"{metadata.dataType.name} type should have scale")

/-- A nullable temporal value: a zero length is `NULL`. -/
def decodeTemporal (metadata : ColumnMetadata) (read : UInt8 → UInt8 → TdsReader ColumnValues) :
    TdsReader ColumnValues := do
  let length ← readByte
  if length = 0 then pure .null
  else do
    let scale ← requireScale metadata
    read length scale

def decodeMoneyN : TdsReader ColumnValues := do
  let byteLen ← readByte
  match byteLen with
  | 4 => .smallMoney <$> readMoney4
  | 8 => .money <$> readMoney8
  | 0 => pure .null
  | _ => throw (.protocolError s!"Invalid MoneyN length - {byteLen}")

def decimalValue (wrap : DecimalParts → ColumnValues) : Option DecimalParts → ColumnValues
  | some value => wrap value
  | none => .null

def decodeBitN : TdsReader ColumnValues := do
  let byteLen ← readByte
  if byteLen > 0 then (fun value => .bit (value == 1)) <$> readByte else pure .null

/-- Any length but 0 and 4 is read as eight bytes. -/
def decodeFltN : TdsReader ColumnValues := do
  let length ← readByte
  if length = 0 then pure .null
  else if length = 4 then .real <$> readFloat32
  else .float <$> readFloat64

/-- Any length but 0 and 4 is read as eight bytes. -/
def decodeDateTimeN : TdsReader ColumnValues := do
  let length ← readByte
  if length = 0 then pure .null
  else if length = 4 then .smallDateTime <$> readSmallDatetime
  else .dateTime <$> readDatetime

def unimplemented (metadata : ColumnMetadata) : Error :=
  let t := metadata.dataType
  match t with
  | .decimal => .unimplementedFeature "Fixed-length Decimal type"
      s!"Data type {t.name} (0x{hexByte t.code}) is not implemented. Use DecimalN instead."
  | .numeric => .unimplementedFeature "Fixed-length Numeric type"
      s!"Data type {t.name} (0x{hexByte t.code}) is not implemented. Use NumericN instead."
  | _ => .unimplementedFeature s!"Data type {t.name}"
      s!"Data type {t.name} (0x{hexByte t.code}) is not yet supported in the decoder"

/-- Decode a value, with `variant` for a `sql_variant`. -/
def decodeWith (cs : Codecs) (variant : TdsReader ColumnValues) (metadata : ColumnMetadata) :
    TdsReader ColumnValues :=
  match metadata.dataType with
  | .int1 => .tinyInt <$> readByte
  | .int2 => .smallInt <$> readInt16
  | .int4 => .int <$> readInt32
  | .int8 => .bigInt <$> readInt64
  | .flt4 => .real <$> readFloat32
  | .flt8 => .float <$> readFloat64
  | .money4 => .smallMoney <$> readMoney4
  | .money => .money <$> readMoney8
  | .moneyN => decodeMoneyN
  | .decimalN => decimalValue .decimal <$> readDecimal metadata
  | .numericN => decimalValue .numeric <$> readDecimal metadata
  | .bit => (fun value => .bit (value == 1)) <$> readByte
  | .nChar | .nVarChar | .bigChar | .bigVarChar | .char | .varChar | .nText | .text =>
    StringDecoder.decode metadata
  | .dateTime => .dateTime <$> readDatetime
  | .intN => do
    let byteLen ← readByte
    readIntn byteLen
  | .bigBinary => readUshortLen "BigBinary" .bytes
  | .bigVarBinary =>
    if metadata.isPlp then plpValue .bytes else readUshortLen "BigVarBinary" .bytes
  | .xml => decodePlpOnly metadata "XML" fun bytes => .xml ⟨bytes⟩
  | .json => decodePlpOnly metadata "JSON" fun bytes => .json ⟨bytes⟩
  | .vector => decodeVector cs metadata
  | .bitN => decodeBitN
  | .guid => do
    let length ← readByte
    readGuid length
  | .fltN => decodeFltN
  | .dateTimeN => decodeDateTimeN
  | .dateN => do
    let length ← readByte
    readDaten length
  | .timeN => decodeTemporal metadata fun length scale => .time <$> readTime length scale
  | .dateTime2N => decodeTemporal metadata fun length scale =>
      .dateTime2 <$> readDatetime2 length scale
  | .dateTimeOffsetN => decodeTemporal metadata fun length scale =>
      .dateTimeOffset <$> readDatetimeOffset length scale
  | .image => readLongLen "Image" .bytes
  | .udt => decodePlpOnly metadata "UDT" .bytes
  | .ssVariant => variant
  | .dateTim4 => .smallDateTime <$> readSmallDatetime
  | _ => throw (unimplemented metadata)

/-! ### Variants -/

/-- The metadata of a variant whose base type has a fixed length. -/
def fixedMetadata (t : FixedLengthTypes) (dataLength : ℕ) : ColumnMetadata where
  typeInfo := ⟨t.val, dataLength, .fixedLen t⟩
  dataType := t.val
  columnName := ""
  cryptoMetadata := none

/-- No properties: a fixed-length type, a uuid or a date.  A fixed-length type is not a variant, so
the nested decoder never meets one. -/
def decodeZeroPropbyteVariant (cs : Codecs) (tdsType : TdsDataType) (dataLength : ℕ) :
    TdsReader ColumnValues :=
  match (TypesIn.tryFrom tdsType : TdsResult FixedLengthTypes) with
  | .ok t => decodeWith cs (throw .outOfFuel) (fixedMetadata t dataLength)
  | .error _ =>
    match tdsType with
    | .guid => readGuid (UInt8.ofNat dataLength)
    | .dateN => readDaten (UInt8.ofNat dataLength)
    | _ => throw (.protocolError
        s!"For 0 byte property, only Guid and DateN are expected, but got: {tdsType.name}")

/-- One property byte: the scale of a temporal type. -/
def decodeOneByteVariant (tdsType : TdsDataType) (dataLength : ℕ) : TdsReader ColumnValues := do
  let scale ← readByte
  match tdsType with
  | .timeN => .time <$> readTime (UInt8.ofNat dataLength) scale
  | .dateTime2N => .dateTime2 <$> readDatetime2 (UInt8.ofNat dataLength) scale
  | .dateTimeOffsetN => .dateTimeOffset <$> readDatetimeOffset (UInt8.ofNat dataLength) scale
  | _ => throw (.protocolError
      ("Invalid SQL_VARIANT: 1-byte property is only valid for TimeN, DateTime2N, and " ++
        s!"DateTimeOffsetN types, but got: {tdsType.name}"))

/-- The bytes of a variant, unless they are too many. -/
def variantBytes (what : String) (dataLength : ℕ) : TdsReader (List UInt8) :=
  if dataLength > maxAllocSize then
    throw (.protocolError (s!"SQL Variant {what} data length {dataLength} exceeds maximum " ++
      s!"allowed size of {maxAllocSize} bytes"))
  else readBytes dataLength

/-- Two property bytes: the size of a binary type, or precision and scale. -/
def decodeTwoPropbyteVariant (variantBaseType : UInt8) (tdsType : TdsDataType)
    (dataLength : ℕ) : TdsReader ColumnValues :=
  match tdsType with
  | .bigVarBinary | .bigBinary => do
    let _ ← readUint16
    .bytes <$> variantBytes "binary" dataLength
  | .numericN => do
    let precision ← readByte
    let scale ← readByte
    decimalValue .numeric <$> readDecimalData (UInt8.ofNat dataLength) precision scale
  | .decimalN => do
    let precision ← readByte
    let scale ← readByte
    decimalValue .decimal <$> readDecimalData (UInt8.ofNat dataLength) precision scale
  | _ => throw (.protocolError
      (s!"Unexpected SQL variant base type for len(2) prop bytes: 0x{hexByte variantBaseType}. " ++
        "Expected binary or numeric types."))

def isVariantString : TdsDataType → Bool
  | .bigVarChar | .bigChar | .nVarChar | .nChar => true
  | _ => false

/-- Encoding of a variant's string. -/
def variantEncoding (tdsType : TdsDataType) (collation : SqlCollation) : EncodingType :=
  if tdsType = .nVarChar ∨ tdsType = .nChar then .utf16
  else if collation.utf8 then .utf8
  else .lcidBased collation

/-- Seven property bytes: collation and size of a character type. -/
def decodeSevenPropbyteVariant (tdsType : TdsDataType) (dataLength : ℕ) :
    TdsReader ColumnValues :=
  if !isVariantString tdsType then
    throw (.protocolError (s!"Unexpected SQL variant base type for len(7) prop bytes: " ++
      s!"{tdsType.name}. Expected a character type."))
  else do
    let collationBytes ← readBytes 5
    let _ ← readUint16
    let collation ← liftReader (SqlCollation.tryFrom collationBytes)
    let buffer ← variantBytes "string" dataLength
    pure (.string (.new buffer (variantEncoding tdsType collation)))

/-- The value behind a variant's header. -/
def decodeVariantBody (cs : Codecs) (variantBaseType : UInt8) (tdsType : TdsDataType)
    (propBytes : UInt8) (dataLength : ℕ) : TdsReader ColumnValues :=
  match propBytes with
  | 0 => decodeZeroPropbyteVariant cs tdsType dataLength
  | 1 => decodeOneByteVariant tdsType dataLength
  | 2 => decodeTwoPropbyteVariant variantBaseType tdsType dataLength
  | 7 => decodeSevenPropbyteVariant tdsType dataLength
  | _ => throw (.protocolError (s!"Unexpected SQL variant properties length: {propBytes}. " ++
      "Expected 0, 1, 2, or 7. This indicates malformed or invalid data."))

/-- A variant and the base type it names; a `NULL` is a zero length and nothing else. -/
def readSqlVariantWithBase (cs : Codecs) : TdsReader (Option TdsDataType × ColumnValues) := do
  let length ← readUint32
  if length = 0 then pure (none, .null)
  else do
    let variantBaseType ← readByte
    let tdsType ← liftReader (TdsDataType.tryFrom variantBaseType)
    let propBytes ← readByte
    if length.toNat < 2 + propBytes.toNat then
      throw (.protocolError (s!"SQL_VARIANT data length calculation underflow: " ++
        s!"length={length}, prop_bytes={propBytes}"))
    else do
      let value ← decodeVariantBody cs variantBaseType tdsType propBytes
        (length.toNat - 2 - propBytes.toNat)
      pure (some tdsType, value)

def readSqlVariant (cs : Codecs) : TdsReader ColumnValues := Prod.snd <$> readSqlVariantWithBase cs

def decode (cs : Codecs) (metadata : ColumnMetadata) : TdsReader ColumnValues :=
  decodeWith cs (readSqlVariant cs) metadata

end GenericDecoder

end MssqlTds
