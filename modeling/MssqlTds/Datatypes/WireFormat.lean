import MssqlTds.Datatypes.VariantSerializer

/-!
# The wire format of values

`wireValue` gives the bytes of a value in a context, or the error the serializer rejects it with.
It is a pure function that knows nothing of packets: the serializer is compared with it on every
packet size and position, and the decoders are run on what it yields.
-/

namespace MssqlTds

open Bytes Unicode TdsValueSerializer

/-- A value behind its length byte, which is left out if it is `fixed`. -/
def wireScalar (fixed : Bool) (bs : List UInt8) : List UInt8 :=
  if fixed then bs else UInt8.ofNat bs.length :: bs

/-- A time in the width of its scale. -/
def wireTime (t : SqlTime) : TdsResult (List UInt8) := do
  let timeLength ← getTimeLengthFromScale t.scale
  pure (leBytes timeLength t.timeValue)

/-- A PLP value in one chunk. -/
def wirePlp (bs : List UInt8) : List UInt8 :=
  leBytes 8 plpUnknownLen.toNat ++ (if bs = [] then [] else leBytes 4 bs.length ++ bs) ++
    leBytes 4 plpTerminator.toNat

/-- A legacy large object behind its text pointer and timestamp. -/
def wireLob (bs : List UInt8) : List UInt8 :=
  0x10 :: List.replicate 16 0xFF ++ List.replicate 8 0xFF ++ leBytes 4 bs.length ++ bs

/-- A value behind its length in two bytes. -/
def wireCounted (bs : List UInt8) : List UInt8 := leBytes 2 bs.length ++ bs

def wireNull (ctx : TdsTypeContext) : TdsResult (List UInt8) :=
  if ctx.tdsType ∈ [0x23, 0x63, 0x22] then .ok [0x00]
  else if ctx.tdsType ∈
      [0x26, 0x6D, 0x68, 0x6E, 0x6F, 0x6A, 0x6C, 0x24, 0x28, 0x29, 0x2A, 0x2B] then
    .ok [nullLength]
  else if ctx.tdsType = 0x32 then .error fixedBitNull
  else if ctx.isPlp then .ok (leBytes 8 plpNull.toNat)
  else if ctx.isFixedType then .error (fixedTypeNull ctx.tdsType)
  else .ok (leBytes 2 varNull.toNat)

/-- Sign and magnitude, the latter in the width of the context's precision. -/
def wireDecimal (value : DecimalParts) (ctx : TdsTypeContext) : TdsResult (List UInt8) :=
  let precision := ctx.precision.getD 38
  match decimalValueBytes precision with
  | none => .error (invalidPrecision precision)
  | some valueBytes => .ok (wireScalar ctx.isFixedLength
      ((if value.isPositive then 1 else 0) :: leBytes valueBytes value.magnitude.toNat))

def wireBytes (value : List UInt8) (ctx : TdsTypeContext) : TdsResult (List UInt8) :=
  if !ctx.isPlp && ctx.tdsType ≠ TdsDataType.image.code && value.length > ctx.maxSize then
    .error (binaryTooLong value.length ctx.maxSize)
  else if ctx.tdsType = TdsDataType.image.code then .ok (wireLob value)
  else if ctx.isPlp then .ok (wirePlp value)
  else if ctx.isFixedLength then .ok (value ++ List.replicate (ctx.maxSize - value.length) 0)
  else .ok (wireCounted value)

def wireJson (cs : Codecs) (value : SqlJson) : TdsResult (List UInt8) :=
  match fromUtf8 value.bytes with
  | none => .error (invalidJson (cs.utf8Error value.bytes))
  | some text => .ok (wirePlp (utf16le text))

def wireXml (value : SqlXml) : List UInt8 :=
  wirePlp (if value.hasBom then value.bytes else 0xFF :: 0xFE :: value.bytes)

def wireVectorHeader (dimensionCount : UInt16) (baseType : VectorBaseType) : List UInt8 :=
  [0xA9, 0x01] ++ leBytes 2 dimensionCount.toNat ++ [baseType.code, 0, 0, 0]

def wireVectorData (cs : Codecs) : VectorData → List UInt8
  | .float32 values => values.flatMap fun f => leBytes 4 f.toNat
  | .float16 values => values.flatMap fun f => leBytes 2 (cs.f16FromF32 f).toNat

def wireVector (cs : Codecs) (value : SqlVector) : TdsResult (List UInt8) :=
  if !vectorConsistent value then .error (vectorMismatch value.baseType)
  else if value.totalSize > vectorMaxSize then .error (invalidVector value)
  else .ok (leBytes 2 value.totalSize ++ wireVectorHeader value.dimensionCount value.baseType ++
    wireVectorData cs value.data)

/-- A narrow string, padded with spaces in a fixed-length column. -/
def wireCharVarchar (singleByteData : List UInt8) (ctx : TdsTypeContext) (limit : Option ℕ)
    (fit : Bool) : TdsResult (List UInt8) := do
  let data ← limitNarrow singleByteData (narrowStringMaximum ctx limit) fit
  pure <|
    if ctx.tdsType = TdsDataType.text.code then wireLob data
    else if ctx.isPlp then wirePlp data
    else if ctx.isFixedLength then data ++ List.replicate (ctx.maxSize - data.length) 0x20
    else wireCounted data

/-- Text converted to UTF-16; a variable-length value is preceded by its count of units. -/
def wireStringUtf16 (text : List Char) (ctx : TdsTypeContext) : TdsResult (List UInt8) :=
  let units := utf16Units text
  if !ctx.isPlp && units.length > ctx.maxSize then
    .error (stringTooLong units.length ctx.maxSize)
  else if ctx.isPlp then .ok (wirePlp (unitsLe units))
  else if ctx.isFixedLength then
    .ok (unitsLe units ++ unitsLe (List.replicate (ctx.maxSize - units.length) 0x0020))
  else .ok (leBytes 2 units.length ++ unitsLe units)

def wireNtext (cs : Codecs) (value : SqlString) (bytes : List UInt8) (isUnicode : Bool) :
    TdsResult (List UInt8) :=
  if isUnicode then .ok (wireLob bytes)
  else do
    let text ← value.toUtf8String cs
    pure (wireLob (utf16le text))

/-- A string whose bytes are sent as they are. -/
def wireStringBytes (cs : Codecs) (value : SqlString) (bytes : List UInt8) (isUnicode : Bool)
    (ctx : TdsTypeContext) : TdsResult (List UInt8) :=
  let charCount := if isUnicode then bytes.length / 2 else bytes.length
  if isUnicode && bytes.length % 2 ≠ 0 then .error (oddUtf16 bytes.length)
  else if !ctx.isPlp && charCount > ctx.maxSize then .error (stringTooLong charCount ctx.maxSize)
  else if ctx.tdsType = TdsDataType.nText.code then wireNtext cs value bytes isUnicode
  else if ctx.isPlp then .ok (wirePlp bytes)
  else if ctx.isFixedLength then
    .ok (bytes ++ if isUnicode then unitsLe (List.replicate (ctx.maxSize - charCount) 0x0020)
      else List.replicate (ctx.maxSize - charCount) 0x20)
  else .ok (wireCounted bytes)

def wireString (cs : Codecs) (value : SqlString) (ctx : TdsTypeContext) (limit : Option ℕ)
    (fit : Bool) : TdsResult (List UInt8) :=
  let limit := effectiveNarrowStringByteLimit value limit
  if ctx.tdsType ∈ [TdsDataType.nVarChar.code, TdsDataType.nChar.code] then
    match value.asUtf16Bytes, value.asRawWireBytes with
    | some bytes, _ => wireStringBytes cs value bytes true ctx
    | none, some bytes => wireStringBytes cs value bytes true ctx
    | none, none => do
      let text ← value.toUtf8String cs
      wireStringUtf16 text ctx
  else if ctx.tdsType = TdsDataType.nText.code then
    match value.asUtf16Bytes with
    | some bytes => wireStringBytes cs value bytes true ctx
    | none => wireStringBytes cs value value.bytes false ctx
  else if ctx.tdsType ∈
      [TdsDataType.bigVarChar.code, TdsDataType.bigChar.code, TdsDataType.text.code] then do
    let (bytes, _) ← narrowStringWireBytes cs value ctx.collation
    wireCharVarchar bytes ctx limit fit
  else .error (notAString ctx.tdsType)

/-- The bytes of a value whose column is not a `sql_variant`. -/
def wireValueInner (cs : Codecs) (value : ColumnValues) (ctx : TdsTypeContext) (limit : Option ℕ)
    (fit : Bool) : TdsResult (List UInt8) :=
  let fixed := ctx.isFixedType
  let bare := ctx.isFixedType || ctx.isFixedLength
  match value with
  | .null => wireNull ctx
  | .bit v => .ok (wireScalar fixed [if v then 1 else 0])
  | .tinyInt v => .ok (wireScalar fixed [v])
  | .smallInt v => .ok (wireScalar fixed (leBytes 2 v.toUInt16.toNat))
  | .int v => .ok (wireScalar fixed (leBytes 4 v.toUInt32.toNat))
  | .bigInt v => .ok (wireScalar fixed (leBytes 8 v.toUInt64.toNat))
  | .real v => .ok (wireScalar fixed (leBytes 4 v.toNat))
  | .float v => .ok (wireScalar fixed (leBytes 8 v.toNat))
  | .decimal v | .numeric v => wireDecimal v ctx
  | .smallMoney v => .ok (wireScalar bare (leBytes 4 v.intVal.toUInt32.toNat))
  | .money v => .ok (wireScalar fixed
      (leBytes 4 v.msbPart.toUInt32.toNat ++ leBytes 4 v.lsbPart.toUInt32.toNat))
  | .date v => .ok (wireScalar bare (leBytes 3 v.days.toNat))
  | .time v => do
    let t ← wireTime v
    pure (wireScalar bare t)
  | .dateTime v => .ok (wireScalar fixed
      (leBytes 4 v.days.toUInt32.toNat ++ leBytes 4 v.time.toNat))
  | .dateTime2 v => do
    let t ← wireTime v.time
    pure (wireScalar bare (t ++ leBytes 3 v.days.toNat))
  | .dateTimeOffset v => do
    let t ← wireTime v.datetime2.time
    pure (wireScalar bare
      (t ++ leBytes 3 v.datetime2.days.toNat ++ leBytes 2 v.offset.toUInt16.toNat))
  | .smallDateTime v => .ok (wireScalar fixed (leBytes 2 v.days.toNat ++ leBytes 2 v.time.toNat))
  | .bytes v => wireBytes v ctx
  | .json v => wireJson cs v
  | .string v => wireString cs v ctx limit fit
  | .vector v => wireVector cs v
  | .xml v => .ok (wireXml v)
  | .uuid v => .ok (wireScalar ctx.isFixedLength v.toBytesLe)

/-- The properties of a variant's base type. -/
def wireTypeInfo (baseType : TdsDataType) (value : ColumnValues) (ctx : TdsTypeContext)
    (resolvedNarrow : Option (List UInt8)) : TdsResult (List UInt8) :=
  match baseType with
  | .int1 | .int2 | .int4 | .int8 | .flt4 | .flt8 | .bit | .money | .money4 | .dateTime
  | .dateTim4 | .dateN | .guid => .ok []
  | .timeN =>
    match value with
    | .time v => .ok [v.scale]
    | _ => .ok []
  | .dateTime2N =>
    match value with
    | .dateTime2 v => .ok [v.time.scale]
    | _ => .ok []
  | .dateTimeOffsetN =>
    match value with
    | .dateTimeOffset v => .ok [v.datetime2.time.scale]
    | _ => .ok []
  | .decimalN | .numericN =>
    match value with
    | .decimal v | .numeric v => .ok [v.precision, v.scale]
    | _ => .ok []
  | .bigVarBinary =>
    match value with
    | .bytes v => .ok (leBytes 2 v.length)
    | _ => .ok []
  | .nVarChar | .bigVarChar =>
    let collation := ctx.collation.getD defaultVariantCollation
    let maxLength := match resolvedNarrow, value with
      | some bytes, _ => bytes.length
      | none, .string s => s.bytes.length
      | none, _ => 0
    .ok (leBytes 4 collation.info.toNat ++ [collation.sortId] ++ leBytes 2 maxLength)
  | t => .error (.protocolError
      s!"no sql_variant TYPE_INFO writer for TDS type 0x{hexByte t.code}")

/-- The properties between the header and the data of a variant. -/
def wireVariantProps (value : ColumnValues) (ctx : TdsTypeContext) (frame : VariantFrame) :
    TdsResult (List UInt8) :=
  if frame.propLen > 0 then wireTypeInfo frame.baseType value ctx frame.resolvedNarrow else .ok []

def wireVariantData (cs : Codecs) (value : ColumnValues) (frame : VariantFrame)
    (inner : TdsTypeContext) : TdsResult (List UInt8) :=
  match frame.resolvedNarrow with
  | some bytes => wireCharVarchar bytes inner none false
  | none => wireValueInner cs value inner none false

/-- The bytes of a value wrapped in a variant. -/
def wireVariant (cs : Codecs) (value : ColumnValues) (ctx : TdsTypeContext) (limit : Option ℕ)
    (fit : Bool) : TdsResult (List UInt8) :=
  if value = .null then .ok (leBytes 4 0)
  else do
    let frame ← variantFrame cs value ctx limit fit
    let props ← wireVariantProps value ctx frame
    let inner ← createVariantInnerContext value frame.baseType ctx frame.resolvedNarrow
    let data ← wireVariantData cs value frame inner
    pure (leBytes 4 frame.totalLength ++
      [frame.baseType.code, UInt8.ofNat frame.propLen] ++ props ++
      data)

/-- The bytes of a value in its column's context. -/
def wireValue (cs : Codecs) (value : ColumnValues) (ctx : TdsTypeContext) :
    TdsResult (List UInt8) :=
  if ctx.tdsType = TdsDataType.ssVariant.code then wireVariant cs value ctx none false
  else wireValueInner cs value ctx none false

end MssqlTds
