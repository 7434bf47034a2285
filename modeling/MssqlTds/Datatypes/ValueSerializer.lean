import MssqlTds.Datatypes.ColumnValues
import MssqlTds.Io.PacketWriter

/-!
# The value serializer

`serializeValue` writes a column value, without its type, through a packet writer.  Most types ask
whether the value ends inside the current packet and then write it unchecked, else they go through
the checked writes one part at a time (`writeParts`).  Runs of unchecked writes appear as one;
`serializeUuid` has its own slow path, and so has `serializeFloat`, which does not check it.

A `sql_variant` wraps a value in a header whose length is computed ahead of the value
(`variantFrame`); the value itself is then written in a context made up for it.
-/

namespace MssqlTds

open Bytes Unicode PacketWriter

/-- Type metadata needed to encode a value. -/
structure TdsTypeContext where
  tdsType : UInt8
  /-- Size of the type: characters for wide strings, else bytes. -/
  maxSize : ℕ
  isPlp : Bool
  isFixedLength : Bool
  precision : Option UInt8
  scale : Option UInt8
  collation : Option SqlCollation
  isNullable : Bool
  deriving DecidableEq, Repr

/-- The type has no length in front of its values. -/
def TdsTypeContext.isFixedType (ctx : TdsTypeContext) : Bool :=
  (0x30 ≤ ctx.tdsType && ctx.tdsType ≤ 0x3F) || ctx.tdsType == 0x7A || ctx.tdsType == 0x7F

def nullLength : UInt8 := 0x00

/-- Length of a `NULL` of a variable-length type. -/
def varNull : UInt16 := 0xFFFF

def plpNull : UInt64 := 0xFFFFFFFFFFFFFFFF

/-- Total length of a PLP value sent without one. -/
def plpUnknownLen : UInt64 := 0xFFFFFFFFFFFFFFFE

/-- The empty chunk that ends a PLP value. -/
def plpTerminator : UInt32 := 0

/-- Collation of a `sql_variant` string when the context has none. -/
def defaultVariantCollation : SqlCollation := ⟨0x409, 0x409, 0, 52⟩

/-- Pass on the result of a pure computation. -/
def liftResult {α : Type} : TdsResult α → WriterM α
  | .ok a => pure a
  | .error e => throw e

namespace TdsValueSerializer

/-! ### Rejections -/

def fixedBitNull : Error := .usageError
  ("Cannot serialize NULL for fixed BIT type 0x32. " ++
    "Use BitN (0x68) for nullable BIT columns.")

def fixedTypeNull (tdsType : UInt8) : Error :=
  .usageError s!"Cannot serialize NULL for fixed-length type 0x{hexByte tdsType}."

def invalidPrecision (precision : UInt8) : Error :=
  .protocolError s!"Invalid precision {precision} for DECIMAL/NUMERIC type"

def binaryTooLong (length maxSize : ℕ) : Error :=
  .usageError s!"Binary data length ({length}) exceeds schema size ({maxSize})"

def stringTooLong (charCount maxSize : ℕ) : Error := .usageError
  (s!"String length ({charCount} characters) exceeds " ++ s!"schema size ({maxSize} characters)")

def oddUtf16 (length : ℕ) : Error :=
  .usageError s!"Invalid UTF-16 data: byte length {length} is odd"

def notAString (tdsType : UInt8) : Error :=
  .usageError s!"Unsupported TDS type for string serialization: 0x{hexByte tdsType}"

def invalidJson (message : String) : Error :=
  .typeConversionError s!"Invalid UTF-8 in JSON data: {message}"

def vectorMismatch (baseType : VectorBaseType) : Error :=
  .usageError s!"Vector base type {baseType.name} does not match its element data"

def invalidVector (value : SqlVector) : Error := .usageError
  (s!"Vector with base type {value.baseType.name} and {value.elementCount} elements " ++
    "is not a valid vector value")

/-! ### Fixed-size values -/

/-- The fast path: write a value unchecked if it ends inside the packet. -/
def writeIfSpace (bs : List UInt8) (slow : WriterM Unit) : WriterM Unit := do
  if (← get).hasSpace bs.length then writeUnchecked bs else slow

/-- Write the parts of a value unchecked if they end inside the packet, else one by one. -/
def writeParts (parts : List (List UInt8)) : WriterM Unit :=
  writeIfSpace parts.flatten (parts.forM writeChecked)

/-- A value behind its length byte, which is left out if it is `fixed`. -/
def serializeScalar (fixed : Bool) (length : UInt8) (parts : List (List UInt8)) : WriterM Unit :=
  writeParts (if fixed then parts else [length] :: parts)

/-- A part for each byte. -/
def bytewise (bs : List UInt8) : List (List UInt8) := bs.map fun b => [b]

def serializeBit (value : Bool) (ctx : TdsTypeContext) : WriterM Unit :=
  serializeScalar ctx.isFixedType 1 [[if value then 1 else 0]]

def serializeTinyint (value : UInt8) (ctx : TdsTypeContext) : WriterM Unit :=
  serializeScalar ctx.isFixedType 1 [[value]]

def serializeSmallint (value : Int16) (ctx : TdsTypeContext) : WriterM Unit :=
  serializeScalar ctx.isFixedType 2 [leBytes 2 value.toUInt16.toNat]

def serializeInt (value : Int32) (ctx : TdsTypeContext) : WriterM Unit :=
  serializeScalar ctx.isFixedType 4 [leBytes 4 value.toUInt32.toNat]

def serializeBigint (value : Int64) (ctx : TdsTypeContext) : WriterM Unit :=
  serializeScalar ctx.isFixedType 8 [leBytes 8 value.toUInt64.toNat]

def serializeReal (bits : UInt32) (ctx : TdsTypeContext) : WriterM Unit :=
  serializeScalar ctx.isFixedType 4 [leBytes 4 bits.toNat]

/-- The slow path of the nullable type writes the value unchecked as well. -/
def serializeFloat (bits : UInt64) (ctx : TdsTypeContext) : WriterM Unit :=
  if !ctx.isFixedType then
    writeIfSpace (8 :: leBytes 8 bits.toNat) do
      writeByteAsync 8
      writeF64Unchecked bits
  else writeIfSpace (leBytes 8 bits.toNat) (writeI64Async bits.toInt64)

def serializeSmallmoney (value : SqlSmallMoney) (ctx : TdsTypeContext) : WriterM Unit :=
  serializeScalar (ctx.isFixedType || ctx.isFixedLength) 4 [leBytes 4 value.intVal.toUInt32.toNat]

def serializeMoney (value : SqlMoney) (ctx : TdsTypeContext) : WriterM Unit :=
  serializeScalar ctx.isFixedType 8
    [leBytes 4 value.msbPart.toUInt32.toNat, leBytes 4 value.lsbPart.toUInt32.toNat]

def serializeDate (value : SqlDate) (ctx : TdsTypeContext) : WriterM Unit :=
  serializeScalar (ctx.isFixedType || ctx.isFixedLength) 3 (bytewise (leBytes 3 value.days.toNat))

def serializeTime (value : SqlTime) (ctx : TdsTypeContext) : WriterM Unit := do
  let timeLength ← liftResult (getTimeLengthFromScale value.scale)
  serializeScalar (ctx.isFixedType || ctx.isFixedLength) (UInt8.ofNat timeLength)
    (bytewise (leBytes timeLength value.timeValue))

def serializeDatetime (value : SqlDateTime) (ctx : TdsTypeContext) : WriterM Unit :=
  serializeScalar ctx.isFixedType 8
    [leBytes 4 value.days.toUInt32.toNat, leBytes 4 value.time.toNat]

def serializeSmalldatetime (value : SqlSmallDateTime) (ctx : TdsTypeContext) : WriterM Unit :=
  serializeScalar ctx.isFixedType 4 [leBytes 2 value.days.toNat, leBytes 2 value.time.toNat]

def serializeDatetime2 (value : SqlDateTime2) (ctx : TdsTypeContext) : WriterM Unit := do
  let timeLength ← liftResult (getTimeLengthFromScale value.time.scale)
  serializeScalar (ctx.isFixedType || ctx.isFixedLength) (UInt8.ofNat (timeLength + 3))
    (bytewise (leBytes timeLength value.time.timeValue) ++ bytewise (leBytes 3 value.days.toNat))

def serializeDatetimeoffset (value : SqlDateTimeOffset) (ctx : TdsTypeContext) : WriterM Unit := do
  let timeLength ← liftResult (getTimeLengthFromScale value.datetime2.time.scale)
  serializeScalar (ctx.isFixedType || ctx.isFixedLength) (UInt8.ofNat (timeLength + 3 + 2))
    (bytewise (leBytes timeLength value.datetime2.time.timeValue) ++
      bytewise (leBytes 3 value.datetime2.days.toNat) ++
      bytewise (leBytes 2 value.offset.toUInt16.toNat))

def serializeUuid (value : Uuid) (ctx : TdsTypeContext) : WriterM Unit :=
  if ctx.isFixedLength then writeIfSpace value.toBytesLe (writeAsync value.toBytesLe)
  else writeIfSpace (16 :: value.toBytesLe) do
    writeByteAsync 16
    writeAsync value.toBytesLe

def decimalValueBytes (precision : UInt8) : Option ℕ :=
  if 1 ≤ precision && precision ≤ 9 then some 4
  else if 10 ≤ precision && precision ≤ 19 then some 8
  else if 20 ≤ precision && precision ≤ 28 then some 12
  else if 29 ≤ precision && precision ≤ 38 then some 16
  else none

def serializeDecimal (value : DecimalParts) (ctx : TdsTypeContext) : WriterM Unit := do
  let precision := ctx.precision.getD 38
  match decimalValueBytes precision with
  | none => throw (invalidPrecision precision)
  | some valueBytes =>
    (if !ctx.isFixedLength then writeByteAsync (UInt8.ofNat (1 + valueBytes)) else pure ())
    writeByteAsync (if value.isPositive then 1 else 0)
    (List.range (valueBytes / 4)).forM fun i => writeI32Async (value.word i)

/-- The marker of a `NULL`, by the class of the type. -/
def serializeNull (ctx : TdsTypeContext) : WriterM Unit :=
  if ctx.tdsType ∈ [0x23, 0x63, 0x22] then writeByteAsync 0x00
  else if ctx.tdsType ∈
      [0x26, 0x6D, 0x68, 0x6E, 0x6F, 0x6A, 0x6C, 0x24, 0x28, 0x29, 0x2A, 0x2B] then
    writeByteAsync nullLength
  else if ctx.tdsType = 0x32 then throw fixedBitNull
  else if ctx.isPlp then writeU64Async plpNull
  else if ctx.isFixedType then throw (fixedTypeNull ctx.tdsType)
  else writeU16Async varNull

/-! ### Variable-size values -/

/-- The chunk of a PLP value; an empty one would be its terminator. -/
def writePlpChunk (length : ℕ) (data : WriterM Unit) : WriterM Unit :=
  if length > 0 then do
    writeU32Async (UInt32.ofNat length)
    data
  else pure ()

/-- A PLP value in a single chunk, of which `length` bytes are announced. -/
def writePlp (length : ℕ) (data : WriterM Unit) : WriterM Unit := do
  writeU64Async plpUnknownLen
  writePlpChunk length data
  writeU32Async plpTerminator

/-- The text pointer and timestamp in front of a legacy large object. -/
def writeTextPtr : WriterM Unit := do
  writeByteAsync 0x10
  (List.replicate 16 0xFF).forM writeByteAsync
  (List.replicate 8 0xFF).forM writeByteAsync

def serializeBytes (value : List UInt8) (ctx : TdsTypeContext) : WriterM Unit := do
  if !ctx.isPlp && ctx.tdsType ≠ TdsDataType.image.code && value.length > ctx.maxSize then
    throw (binaryTooLong value.length ctx.maxSize)
  else if ctx.tdsType = TdsDataType.image.code then
    writeTextPtr
    writeU32Async (UInt32.ofNat value.length)
    writeAsync value
  else if ctx.isPlp then
    writePlp value.length (writeAsync value)
  else if ctx.isFixedLength then
    value.forM writeByteAsync
    (List.replicate (ctx.maxSize - value.length) 0).forM writeByteAsync
  else
    writeU16Async (UInt16.ofNat value.length)
    value.forM writeByteAsync

/-- JSON goes out as UTF-16. -/
def serializeJson (cs : Codecs) (value : SqlJson) : WriterM Unit :=
  match fromUtf8 value.bytes with
  | none => throw (invalidJson (cs.utf8Error value.bytes))
  | some text =>
    writePlp ((utf16Units text).length * 2) ((utf16Units text).forM writeU16Async)

/-- XML goes out with a byte order mark. -/
def serializeXml (value : SqlXml) : WriterM Unit :=
  writePlp (if value.hasBom then value.bytes.length else value.bytes.length + 2) do
    (if !value.hasBom then do
      writeByteAsync 0xFF
      writeByteAsync 0xFE
    else pure ())
    writeAsync value.bytes

/-- The header of a vector: layout format and version, dimensions, base type. -/
def encodeVectorHeader (dimensionCount : UInt16) (baseType : VectorBaseType) : WriterM Unit := do
  writeByteAsync 0xA9
  writeByteAsync 0x01
  writeU16Async dimensionCount
  writeByteAsync baseType.code
  writeByteAsync 0x00
  writeByteAsync 0x00
  writeByteAsync 0x00

/-- The base type agrees with the element data. -/
def vectorConsistent (value : SqlVector) : Bool :=
  match value.baseType, value.data with
  | .float32, .float32 _ | .float16, .float16 _ => true
  | _, _ => false

def serializeVector (cs : Codecs) (value : SqlVector) : WriterM Unit := do
  if !vectorConsistent value then throw (vectorMismatch value.baseType)
  else if value.totalSize > vectorMaxSize then throw (invalidVector value)
  else
    writeU16Async (UInt16.ofNat value.totalSize)
    encodeVectorHeader value.dimensionCount value.baseType
    match value.data with
    | .float32 values => values.forM fun f => writeI32Async f.toInt32
    | .float16 values => values.forM fun f => writeU16Async (cs.f16FromF32 f)

/-! ### Strings -/

/-- The tighter of the value's and the column's byte limits. -/
def effectiveNarrowStringByteLimit (value : SqlString) (columnLimit : Option ℕ) : Option ℕ :=
  match value.narrowStringByteLimit, columnLimit with
  | some valueLimit, some columnLimit => some (min valueLimit columnLimit)
  | some valueLimit, none => some valueLimit
  | none, columnLimit => columnLimit

def narrowStringMaximum (ctx : TdsTypeContext) (limit : Option ℕ) : Option ℕ :=
  match limit, ctx.isPlp with
  | some maximum, false => some (min maximum ctx.maxSize)
  | some maximum, true => some maximum
  | none, false => some ctx.maxSize
  | none, true => none

/-- Wire bytes of a narrow string, and whether encoding them lost a character. -/
def narrowStringWireBytes (cs : Codecs) (value : SqlString) (collation : Option SqlCollation) :
    TdsResult (List UInt8 × Bool) :=
  match value.asRawWireBytes with
  | some raw => .ok (raw, false)
  | none =>
    let borrowed := match value.encodingType with
      | .utf8 => fromUtf8 value.bytes
      | _ => none
    if borrowed.isSome && collation.any SqlCollation.utf8 then .ok (value.bytes, false)
    else do
      let decoded ← match borrowed with
        | some text => pure text
        | none => value.toUtf8String cs
      let encoded := cs.encodeNarrowForWire decoded collation
      pure (encoded.bytes, encoded.hadLoss)

/-- Apply the byte limits to a narrow string: `fit` may drop trailing spaces. -/
def limitNarrow (bytes : List UInt8) (maximum : Option ℕ) (fit : Bool) : TdsResult (List UInt8) :=
  match maximum with
  | none => .ok bytes
  | some maximum =>
    if fit then fitNarrowByteLimit bytes maximum
    else if bytes.length > maximum then .error (.encodedValueTooLong bytes.length maximum)
    else .ok bytes

def serializeCharVarcharDirect (singleByteData : List UInt8) (ctx : TdsTypeContext)
    (limit : Option ℕ) (fit : Bool) : WriterM Unit := do
  let data ← liftResult (limitNarrow singleByteData (narrowStringMaximum ctx limit) fit)
  if ctx.tdsType = TdsDataType.text.code then
    writeTextPtr
    writeU32Async (UInt32.ofNat data.length)
    writeAsync data
  else if ctx.isPlp then writePlp data.length (writeAsync data)
  else if ctx.isFixedLength then
    writeAsync data
    (List.replicate (ctx.maxSize - data.length) 0x20).forM writeByteAsync
  else
    writeU16Async (UInt16.ofNat data.length)
    writeAsync data

/-- Write text as UTF-16; the length in front is a count of units. -/
def serializeStringUtf16 (text : List Char) (ctx : TdsTypeContext) : WriterM Unit := do
  let units := utf16Units text
  if !ctx.isPlp && units.length > ctx.maxSize then
    throw (stringTooLong units.length ctx.maxSize)
  else if ctx.isPlp then writePlp (units.length * 2) (units.forM writeU16Async)
  else if ctx.isFixedLength then
    units.forM writeU16Async
    (List.replicate (ctx.maxSize - units.length) 0x0020).forM writeU16Async
  else
    writeU16Async (UInt16.ofNat units.length)
    units.forM writeU16Async

/-- The data of an `ntext` value behind its text pointer. -/
def serializeNtextData (cs : Codecs) (value : SqlString) (bytes : List UInt8) (isUnicode : Bool) :
    WriterM Unit :=
  if isUnicode then do
    writeU32Async (UInt32.ofNat bytes.length)
    writeAsync bytes
  else do
    let text ← liftResult (value.toUtf8String cs)
    writeU32Async (UInt32.ofNat ((utf16Units text).length * 2))
    (utf16Units text).forM writeU16Async

/-- Write a string whose bytes need no conversion, apart from an `ntext` that is not UTF-16. -/
def serializeStringBytes (cs : Codecs) (value : SqlString) (bytes : List UInt8) (isUnicode : Bool)
    (ctx : TdsTypeContext) : WriterM Unit := do
  let charCount := if isUnicode then bytes.length / 2 else bytes.length
  if isUnicode && bytes.length % 2 ≠ 0 then throw (oddUtf16 bytes.length)
  else if !ctx.isPlp && charCount > ctx.maxSize then throw (stringTooLong charCount ctx.maxSize)
  else if ctx.tdsType = TdsDataType.nText.code then
    writeTextPtr
    serializeNtextData cs value bytes isUnicode
  else if ctx.isPlp then writePlp bytes.length (writeAsync bytes)
  else if ctx.isFixedLength then
    writeAsync bytes
    if isUnicode then (List.replicate (ctx.maxSize - charCount) 0x0020).forM writeU16Async
    else (List.replicate (ctx.maxSize - charCount) 0x20).forM writeByteAsync
  else
    writeU16Async (UInt16.ofNat bytes.length)
    writeAsync bytes

def serializeString (cs : Codecs) (value : SqlString) (ctx : TdsTypeContext) (limit : Option ℕ)
    (fit : Bool) : WriterM Unit := do
  let limit := effectiveNarrowStringByteLimit value limit
  if ctx.tdsType ∈ [TdsDataType.nVarChar.code, TdsDataType.nChar.code] then
    match value.asUtf16Bytes, value.asRawWireBytes with
    | some bytes, _ => serializeStringBytes cs value bytes true ctx
    | none, some bytes => serializeStringBytes cs value bytes true ctx
    | none, none =>
      let text ← liftResult (value.toUtf8String cs)
      serializeStringUtf16 text ctx
  else if ctx.tdsType = TdsDataType.nText.code then
    match value.asUtf16Bytes with
    | some bytes => serializeStringBytes cs value bytes true ctx
    | none => serializeStringBytes cs value value.bytes false ctx
  else if ctx.tdsType ∈
      [TdsDataType.bigVarChar.code, TdsDataType.bigChar.code, TdsDataType.text.code] then
    let (bytes, hadLoss) ← liftResult (narrowStringWireBytes cs value ctx.collation)
    serializeCharVarcharDirect bytes ctx limit fit
    if hadLoss then noteCodePageConversionLoss else pure ()
  else throw (notAString ctx.tdsType)

end TdsValueSerializer

end MssqlTds
