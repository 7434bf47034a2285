import MssqlTds.Datatypes.ValueSerializer

/-!
# Values inside a `sql_variant`, and the serializer's entry points

A variant is written as a total length, a base type, its properties and the data.  The lengths are
computed from the value before anything is written (`variantFrame`), the properties are written
from the value (`writeTypeInfoBytes`), and the data by the serializer of the base type in a context
that suppresses the length prefix (`createVariantInnerContext`).
-/

namespace MssqlTds.TdsValueSerializer

open Bytes Unicode PacketWriter

/-- Write a value whose column is not a `sql_variant`. -/
def serializeValueInner (cs : Codecs) (value : ColumnValues) (ctx : TdsTypeContext)
    (limit : Option ℕ) (fit : Bool) : WriterM Unit :=
  match value with
  | .null => serializeNull ctx
  | .bit v => serializeBit v ctx
  | .tinyInt v => serializeTinyint v ctx
  | .smallInt v => serializeSmallint v ctx
  | .int v => serializeInt v ctx
  | .bigInt v => serializeBigint v ctx
  | .real v => serializeReal v ctx
  | .float v => serializeFloat v ctx
  | .decimal v | .numeric v => serializeDecimal v ctx
  | .smallMoney v => serializeSmallmoney v ctx
  | .money v => serializeMoney v ctx
  | .date v => serializeDate v ctx
  | .time v => serializeTime v ctx
  | .dateTime v => serializeDatetime v ctx
  | .dateTime2 v => serializeDatetime2 v ctx
  | .dateTimeOffset v => serializeDatetimeoffset v ctx
  | .smallDateTime v => serializeSmalldatetime v ctx
  | .bytes v => serializeBytes v ctx
  | .json v => serializeJson cs v
  | .string v => serializeString cs v ctx limit fit
  | .vector v => serializeVector cs v
  | .xml v => serializeXml v
  | .uuid v => serializeUuid v ctx

/-! ### The frame of a variant -/

def getVariantBaseType : ColumnValues → TdsResult TdsDataType
  | .tinyInt _ => .ok .int1
  | .smallInt _ => .ok .int2
  | .int _ => .ok .int4
  | .bigInt _ => .ok .int8
  | .real _ => .ok .flt4
  | .float _ => .ok .flt8
  | .bit _ => .ok .bit
  | .decimal _ => .ok .decimalN
  | .numeric _ => .ok .numericN
  | .money _ => .ok .money
  | .smallMoney _ => .ok .money4
  | .date _ => .ok .dateN
  | .time _ => .ok .timeN
  | .dateTime _ => .ok .dateTime
  | .dateTime2 _ => .ok .dateTime2N
  | .dateTimeOffset _ => .ok .dateTimeOffsetN
  | .smallDateTime _ => .ok .dateTim4
  | .bytes _ => .ok .bigVarBinary
  | .string s =>
    match s.encodingType with
    | .utf8 | .lcidBased _ => .ok .bigVarChar
    | .utf16 | .delayedSet => .ok .nVarChar
  | .uuid _ => .ok .guid
  | .null => .error (.protocolError "NULL should be handled before get_variant_base_type")
  | .xml _ | .json _ | .vector _ =>
    .error (.usageError "Unsupported data type in sql_variant columns")

/-- Number of property bytes of a base type. -/
def calculateTypeInfoLength : TdsDataType → TdsResult ℕ
  | .int1 | .int2 | .int4 | .int8 | .flt4 | .flt8 | .bit | .money | .money4 | .dateTime
  | .dateTim4 => .ok 0
  | .dateN | .guid => .ok 0
  | .timeN | .dateTime2N | .dateTimeOffsetN => .ok 1
  | .decimalN | .numericN => .ok 2
  | .bigVarBinary | .bigBinary => .ok 2
  | .nVarChar | .nChar | .bigChar | .bigVarChar => .ok 7
  | t => .error (.protocolError s!"no sql_variant TYPE_INFO length for TDS type 0x{hexByte t.code}")

/-- Size of a value without its length prefix, in 32 bits. -/
def calculateValueSize : ColumnValues → TdsResult ℕ
  | .tinyInt _ => .ok 1
  | .smallInt _ => .ok 2
  | .int _ => .ok 4
  | .bigInt _ => .ok 8
  | .real _ => .ok 4
  | .float _ => .ok 8
  | .bit _ => .ok 1
  | .decimal v | .numeric v => .ok (1 + (decimalValueBytes v.precision).getD 16)
  | .money _ => .ok 8
  | .smallMoney _ => .ok 4
  | .date _ => .ok 3
  | .time v => getTimeLengthFromScale v.scale
  | .dateTime _ => .ok 8
  | .dateTime2 v => do
    let timeLen ← getTimeLengthFromScale v.time.scale
    pure (timeLen + 3)
  | .dateTimeOffset v => do
    let timeLen ← getTimeLengthFromScale v.datetime2.time.scale
    pure (timeLen + 3 + 2)
  | .smallDateTime _ => .ok 4
  | .bytes v => .ok (v.length % 2 ^ 32)
  | .string s => .ok (s.bytes.length % 2 ^ 32)
  | .uuid _ => .ok 16
  | .vector _ | .xml _ | .json _ => .error (.usageError "Unsupported data type in sql_variant")
  | .null => .ok 0

/-- Wire bytes of a narrow string inside a variant, and whether encoding them lost a character. -/
def resolveNarrowWireBytes (cs : Codecs) (value : SqlString) (collation : Option SqlCollation) :
    TdsResult (List UInt8 × Bool) :=
  match value.asRawWireBytes with
  | some raw => .ok (raw, false)
  | none => do
    let text ← value.toUtf8String cs
    let encoded := cs.encodeNarrow text (collation.getD defaultVariantCollation)
    pure (encoded.bytes, encoded.hadLoss)

/-- The bytes of a narrow string, within the limits, and whether they lost a character; `none` for
any other value. -/
def resolveNarrow (cs : Codecs) (value : ColumnValues) (ctx : TdsTypeContext) (limit : Option ℕ)
    (fit : Bool) : TdsResult (Option (List UInt8) × Bool) :=
  match value with
  | .string s =>
    match s.encodingType with
    | .utf8 | .lcidBased _ => do
      let (bytes, hadLoss) ← resolveNarrowWireBytes cs s ctx.collation
      let maximum :=
        (narrowStringMaximum ctx (effectiveNarrowStringByteLimit s limit)).getD ctx.maxSize
      let bytes ← limitNarrow bytes (some maximum) fit
      pure (some bytes, hadLoss)
    | .utf16 | .delayedSet => .ok (none, false)
  | _ => .ok (none, false)

def maxVariantDataSize : ℕ := 8000

/-- Most bytes of a variant behind its length. -/
def maxVariantSize : ℕ := 8016

/-- What is known of a variant before it is written. -/
structure VariantFrame where
  /-- Encoded bytes of a narrow string. -/
  resolvedNarrow : Option (List UInt8)
  narrowHadLoss : Bool
  baseType : TdsDataType
  propLen : ℕ
  dataSize : ℕ
  deriving DecidableEq, Repr

/-- Length announced in front of the variant. -/
def VariantFrame.totalLength (f : VariantFrame) : ℕ := 2 + f.propLen + f.dataSize

def variantFrame (cs : Codecs) (value : ColumnValues) (ctx : TdsTypeContext) (limit : Option ℕ)
    (fit : Bool) : TdsResult VariantFrame := do
  let (resolvedNarrow, narrowHadLoss) ← resolveNarrow cs value ctx limit fit
  let baseType ← getVariantBaseType value
  let propLen ← calculateTypeInfoLength baseType
  let dataSize ← match resolvedNarrow with
    | some bytes => pure (bytes.length % 2 ^ 32)
    | none => calculateValueSize value
  let frame : VariantFrame := ⟨resolvedNarrow, narrowHadLoss, baseType, propLen, dataSize⟩
  if dataSize > maxVariantDataSize then
    throw (.usageError
      (s!"SQL_VARIANT data size ({dataSize} bytes) exceeds maximum ({maxVariantDataSize} " ++
        s!"bytes). The base data type cannot store more than {maxVariantDataSize} bytes in " ++
        "SQL_VARIANT."))
  else if frame.totalLength > maxVariantSize then
    throw (.usageError
      (s!"SQL_VARIANT total size ({frame.totalLength} bytes) exceeds maximum size " ++
        s!"({maxVariantSize} bytes). The variant contains {dataSize} bytes of data " ++
        s!"plus {2 + propLen} bytes of metadata."))
  else pure frame

/-! ### Writing a variant -/

/-- Write the properties of the base type, taken from the value. -/
def writeTypeInfoBytes (baseType : TdsDataType) (value : ColumnValues) (ctx : TdsTypeContext)
    (resolvedNarrow : Option (List UInt8)) : WriterM Unit :=
  match baseType with
  | .int1 | .int2 | .int4 | .int8 | .flt4 | .flt8 | .bit | .money | .money4 | .dateTime
  | .dateTim4 | .dateN | .guid => pure ()
  | .timeN =>
    match value with
    | .time v => writeByteAsync v.scale
    | _ => pure ()
  | .dateTime2N =>
    match value with
    | .dateTime2 v => writeByteAsync v.time.scale
    | _ => pure ()
  | .dateTimeOffsetN =>
    match value with
    | .dateTimeOffset v => writeByteAsync v.datetime2.time.scale
    | _ => pure ()
  | .decimalN | .numericN =>
    match value with
    | .decimal v | .numeric v => do
      writeByteAsync v.precision
      writeByteAsync v.scale
    | _ => pure ()
  | .bigVarBinary =>
    match value with
    | .bytes v => writeU16Async (UInt16.ofNat v.length)
    | _ => pure ()
  | .nVarChar | .bigVarChar => do
    let collation := ctx.collation.getD defaultVariantCollation
    writeU32Async collation.info
    writeByteAsync collation.sortId
    writeU16Async <| match resolvedNarrow, value with
      | some bytes, _ => UInt16.ofNat bytes.length
      | none, .string s => UInt16.ofNat s.bytes.length
      | none, _ => 0
  | t => throw (.protocolError
      s!"no sql_variant TYPE_INFO writer for TDS type 0x{hexByte t.code}")

/-- A context without length prefix for a value of the given type. -/
def innerContext (tdsType : TdsDataType) (maxSize : ℕ) (isNullable : Bool) : TdsTypeContext where
  tdsType := tdsType.code
  maxSize := maxSize
  isPlp := false
  isFixedLength := true
  precision := none
  scale := none
  collation := none
  isNullable := isNullable

def createVariantInnerContext (value : ColumnValues) (baseType : TdsDataType)
    (originalCtx : TdsTypeContext) (resolvedNarrow : Option (List UInt8)) :
    TdsResult TdsTypeContext :=
  match value with
  | .tinyInt _ => .ok (innerContext .int1 1 false)
  | .smallInt _ => .ok (innerContext .int2 2 false)
  | .int _ => .ok (innerContext .int4 4 false)
  | .bigInt _ => .ok (innerContext .int8 8 false)
  | .real _ => .ok (innerContext .flt4 4 false)
  | .float _ => .ok (innerContext .flt8 8 false)
  | .bit _ => .ok (innerContext .bit 1 false)
  | .decimal v | .numeric v =>
    .ok { innerContext baseType 17 true with precision := some v.precision, scale := some v.scale }
  | .money _ => .ok (innerContext .money 8 false)
  | .smallMoney _ => .ok (innerContext .money4 4 false)
  | .date _ => .ok (innerContext .dateN 3 true)
  | .time v => .ok { innerContext .timeN 5 true with scale := some v.scale }
  | .dateTime _ => .ok (innerContext .dateTime 8 false)
  | .dateTime2 v => .ok { innerContext .dateTime2N 8 true with scale := some v.time.scale }
  | .dateTimeOffset v =>
    .ok { innerContext .dateTimeOffsetN 10 true with scale := some v.datetime2.time.scale }
  | .smallDateTime _ => .ok (innerContext .dateTim4 4 false)
  | .bytes v => .ok (innerContext .bigVarBinary v.length true)
  | .string s =>
    let maxSize := match resolvedNarrow with
      | some bytes => bytes.length
      | none => s.bytes.length / 2
    .ok { innerContext baseType maxSize true with collation := originalCtx.collation }
  | .uuid _ => .ok (innerContext .guid 16 true)
  | .vector _ | .xml _ | .json _ => .error (.usageError "Unsupported data type in sql_variant")
  | .null => .error (.protocolError "NULL should be handled before create_variant_inner_context")

def writeVariantData (cs : Codecs) (value : ColumnValues) (frame : VariantFrame)
    (inner : TdsTypeContext) : WriterM Unit :=
  match frame.resolvedNarrow with
  | some bytes => serializeCharVarcharDirect bytes inner none false
  | none => serializeValueInner cs value inner none false

/-- Write a value wrapped in a variant. -/
def serializeAsVariant (cs : Codecs) (value : ColumnValues) (ctx : TdsTypeContext)
    (limit : Option ℕ) (fit : Bool) : WriterM Unit := do
  if value = .null then writeU32Async 0
  else
    let frame ← liftResult (variantFrame cs value ctx limit fit)
    writeU32Async (UInt32.ofNat frame.totalLength)
    writeByteAsync frame.baseType.code
    writeByteAsync (UInt8.ofNat frame.propLen)
    (if frame.propLen > 0 then
      writeTypeInfoBytes frame.baseType value ctx frame.resolvedNarrow
    else pure ())
    let inner ← liftResult
      (createVariantInnerContext value frame.baseType ctx frame.resolvedNarrow)
    writeVariantData cs value frame inner
    if frame.narrowHadLoss then noteCodePageConversionLoss else pure ()

/-! ### Entry points -/

/-- Write a value in its column's context. -/
def serializeValue (cs : Codecs) (value : ColumnValues) (ctx : TdsTypeContext) : WriterM Unit :=
  if ctx.tdsType = TdsDataType.ssVariant.code then serializeAsVariant cs value ctx none false
  else serializeValueInner cs value ctx none false

/-- Write a value, letting a narrow string lose trailing spaces to its byte limit. -/
def serializeValueWithNarrowStringByteLimit (cs : Codecs) (value : ColumnValues)
    (ctx : TdsTypeContext) (limit : Option ℕ) : WriterM Unit :=
  if ctx.tdsType = TdsDataType.ssVariant.code then serializeAsVariant cs value ctx limit true
  else serializeValueInner cs value ctx limit true

end MssqlTds.TdsValueSerializer
