import MssqlTds.Datatypes.VariantSerializer

/-!
# Parameter values

A `SqlType` is the value of an RPC parameter, with the declared size of its type.  It goes out as a
type description (`writeTypeInfo`) followed by the value, which the value serializer writes in the
context `toColumnValueAndContext` makes up; json and the legacy large objects have formats of their
own.  `validateForSend` checks what must be right before the first byte of a request is written.

The writer of a table-valued parameter is a parameter of `serializeWithNarrowStringByteLimit`.
-/

namespace MssqlTds

open Bytes Unicode PacketWriter TdsValueSerializer

/-- A check of every element of a list. -/
theorem forM_eq_ok_iff {α : Type} {f : α → TdsResult Unit} {xs : List α} :
    xs.forM f = .ok () ↔ ∀ x ∈ xs, f x = .ok () := by
  induction xs with
  | nil => exact ⟨fun _ _ hx => absurd hx List.not_mem_nil, fun _ => rfl⟩
  | cons x xs ih =>
    cases hx : f x with
    | error e => simp [hx, bind, Except.bind]
    | ok u => simpa [hx, bind, Except.bind] using ih

/-! ### Names of server-side types -/

/-- The server-side identity of a CLR type. -/
structure UdtTypeName where
  dbName : Option (List Char)
  schemaName : Option (List Char)
  typeName : List Char
  deriving DecidableEq, Repr

structure TvpTypeName where
  dbName : Option (List Char)
  schemaName : Option (List Char)
  typeName : List Char
  deriving DecidableEq, Repr

/-- A sort or uniqueness hint for a column of a table-valued parameter. -/
structure TvpOrderHint where
  columnOrdinal : UInt16
  flags : UInt8
  deriving DecidableEq, Repr

def namePartTooLong (units : ℕ) : Error :=
  .usageError s!"type name part is too long: {units} UTF-16 code units (max 255)"

/-- Check a CLR type name before any of it reaches the wire. -/
def UdtTypeName.validate (n : UdtTypeName) : TdsResult Unit :=
  if n.typeName = [] then .error (.usageError "UDT type name must not be empty")
  else
    ([n.dbName, n.schemaName, some n.typeName].filterMap id).forM fun part =>
      if (utf16Units part).length > 255 then .error (namePartTooLong (utf16Units part).length)
      else .ok ()

/-- A text behind the one-byte count of its UTF-16 units. -/
def writeTypeNamePart (value : Option (List Char)) : WriterM Unit :=
  match value.filter (· ≠ []) with
  | some s =>
    if (utf16Units s).length > 255 then throw (namePartTooLong (utf16Units s).length)
    else do
      writeByteAsync (UInt8.ofNat (utf16Units s).length)
      writeStringUnicodeAsync s
  | none => writeByteAsync 0

/-- The name block in the type description of a CLR parameter. -/
def writeUdtTypeName (n : UdtTypeName) : WriterM Unit := do
  liftResult n.validate
  writeTypeNamePart n.dbName
  writeTypeNamePart n.schemaName
  writeTypeNamePart (some n.typeName)

/-! ### Values -/

mutual

/-- Value of an RPC parameter; `none` is `NULL`. -/
inductive SqlType where
  | bit (v : Option Bool)
  | tinyInt (v : Option UInt8)
  | smallInt (v : Option Int16)
  | int (v : Option Int32)
  | bigInt (v : Option Int64)
  | real (bits : Option UInt32)
  | float (bits : Option UInt64)
  | decimal (v : Option DecimalParts)
  | numeric (v : Option DecimalParts)
  | money (v : Option SqlMoney)
  | smallMoney (v : Option SqlSmallMoney)
  | time (v : Option SqlTime)
  | dateTime2 (v : Option SqlDateTime2)
  | dateTimeOffset (v : Option SqlDateTimeOffset)
  | smallDateTime (v : Option SqlSmallDateTime)
  | dateTime (v : Option SqlDateTime)
  | date (v : Option SqlDate)
  | nVarchar (v : Option SqlString) (length : UInt16)
  | nVarcharMax (v : Option SqlString)
  | varchar (v : Option SqlString) (length : UInt16)
  | varcharMax (v : Option SqlString)
  | varBinary (v : Option (List UInt8)) (length : UInt16)
  | varBinaryMax (v : Option (List UInt8))
  | binary (v : Option (List UInt8)) (length : UInt16)
  | char (v : Option SqlString) (length : UInt16)
  | nChar (v : Option SqlString) (length : UInt16)
  | text (v : Option SqlString)
  | nText (v : Option SqlString)
  | image (v : Option (List UInt8))
  | json (v : Option SqlJson)
  | xml (v : Option SqlXml)
  | uuid (v : Option Uuid)
  | vector (v : Option SqlVector) (dimensions : UInt16) (baseType : VectorBaseType)
  /-- A value wrapped in a `sql_variant`. -/
  | variant (inner : SqlType)
  /-- A table-valued parameter. -/
  | table (typeName : TvpTypeName) (table : Option TvpTableData)
  /-- A CLR value, in its serialized form. -/
  | udt (typeName : UdtTypeName) (v : Option (List UInt8))

/-- Metadata of a column of a table-valued parameter. -/
inductive TvpColumnDef where
  | mk (columnType : SqlType) (flags : UInt16) (precision scale : Option UInt8)

/-- Columns and rows of a table-valued parameter. -/
inductive TvpTableData where
  | mk (columns : List TvpColumnDef) (rows : List (List SqlType)) (orderHints : List TvpOrderHint)

end

/-- Length of the longest type of variable size. -/
def varTdsMaxLength : UInt16 := 8000

/-- Length that says a value is sent in chunks. -/
def maxU16Length : UInt16 := 0xFFFF

/-- Length announced by the type description of a `sql_variant`. -/
def sqlVariantMaxLength : UInt32 := 8009

/-- Scale of a time when nothing says otherwise. -/
def defaultVartimeScale : UInt8 := 7

def decimalFixedSize : UInt8 := 17

def usizeMax : ℕ := 2 ^ 64 - 1

/-- Byte length of an `nvarchar` parameter, unless it is long enough to be sent in chunks. -/
def nvarcharInlineMaxBytes (chars : UInt16) : Option UInt16 :=
  if chars > 4000 then none else some (chars * 2)

namespace SqlType

/-- The wire type of a parameter. -/
def getNullableType : SqlType → TdsDataType
  | bit _ | tinyInt _ | smallInt _ | int _ | bigInt _ => .intN
  | real _ | float _ => .fltN
  | decimal _ | numeric _ => .numericN
  | nVarchar .. | nVarcharMax _ => .nVarChar
  | varBinary .. | varBinaryMax _ => .bigVarBinary
  | binary .. => .bigBinary
  | char .. => .bigChar
  | nChar .. => .nChar
  | text _ => .text
  | nText _ => .nText
  | image _ => .image
  | json _ => .json
  | time _ => .timeN
  | dateTime2 _ => .dateTime2N
  | dateTimeOffset _ => .dateTimeOffsetN
  | dateTime _ | smallDateTime _ => .dateTimeN
  | date _ => .dateN
  | varchar .. | varcharMax _ => .bigVarChar
  | xml _ => .xml
  | uuid _ => .guid
  | money _ | smallMoney _ => .moneyN
  | vector .. => .vector
  | variant _ => .ssVariant
  | table .. => .sqlTable
  | udt .. => .udt

def orNull {α : Type} (f : α → ColumnValues) : Option α → ColumnValues
  | some v => f v
  | none => .null

/-- The declared size of a narrow string or binary type. -/
def declaredLength (length : UInt16) : UInt16 :=
  if length > varTdsMaxLength then maxU16Length else length

/-- The declared size in bytes of an `nchar` type. -/
def declaredWideLength (length : UInt16) : UInt16 :=
  if length > 4000 then maxU16Length else length * 2

def vectorExactSize (dimensions : UInt16) (baseType : VectorBaseType) : UInt16 :=
  UInt16.ofNat vectorHeaderSize + dimensions * UInt16.ofNat baseType.elementSizeBytes

/-- Context of a parameter: nullable, and with a length in front of the value. -/
def baseContext (tdsType : TdsDataType) (maxSize : ℕ) : TdsTypeContext where
  tdsType := tdsType.code
  maxSize := maxSize
  isPlp := false
  isFixedLength := false
  precision := none
  scale := none
  collation := none
  isNullable := true

/-- Context of a string of `maxSize` characters, or of one sent in chunks. -/
def stringContext (tdsType : TdsDataType) (isPlp : Bool) (maxSize : ℕ) (collation : SqlCollation) :
    TdsTypeContext :=
  { baseContext tdsType (if isPlp then usizeMax else maxSize) with
    isPlp
    collation := some collation }

section

variable (tdsType : TdsDataType) (isPlp : Bool) (maxSize : ℕ) (collation : SqlCollation)

@[simp] theorem stringContext_tdsType :
    (stringContext tdsType isPlp maxSize collation).tdsType = tdsType.code := rfl

@[simp] theorem stringContext_isPlp :
    (stringContext tdsType isPlp maxSize collation).isPlp = isPlp := rfl

@[simp] theorem stringContext_isFixedLength :
    (stringContext tdsType isPlp maxSize collation).isFixedLength = false := rfl

@[simp] theorem stringContext_maxSize :
    (stringContext tdsType false maxSize collation).maxSize = maxSize := rfl

end

def toColumnValueAndContext (dbCollation : SqlCollation) : SqlType → ColumnValues × TdsTypeContext
  | bit v => (orNull .bit v, baseContext .intN 1)
  | tinyInt v => (orNull .tinyInt v, baseContext .intN 1)
  | smallInt v => (orNull .smallInt v, baseContext .intN 2)
  | int v => (orNull .int v, baseContext .intN 4)
  | bigInt v => (orNull .bigInt v, baseContext .intN 8)
  | real v => (orNull .real v, baseContext .fltN 4)
  | float v => (orNull .float v, baseContext .fltN 8)
  -- precision 38, so that the serializer writes 17 bytes
  | decimal v => (orNull .decimal v,
      { baseContext .numericN decimalFixedSize.toNat with precision := some 38, scale := some 0 })
  | numeric v => (orNull .numeric v,
      { baseContext .numericN decimalFixedSize.toNat with precision := some 38, scale := some 0 })
  | money v => (orNull .money v, baseContext .moneyN 8)
  | smallMoney v => (orNull .smallMoney v, baseContext .moneyN 4)
  | date v => (orNull .date v, baseContext .dateN 0)
  | time v => (orNull .time v, baseContext .timeN 0)
  | dateTime v => (orNull .dateTime v, baseContext .dateTimeN 8)
  | smallDateTime v => (orNull .smallDateTime v, baseContext .dateTimeN 4)
  | dateTime2 v => (orNull .dateTime2 v, baseContext .dateTime2N 0)
  | dateTimeOffset v => (orNull .dateTimeOffset v, baseContext .dateTimeOffsetN 0)
  | uuid v => (orNull .uuid v, baseContext .guid 16)
  | nVarchar v length =>
    let paramLen := (nvarcharInlineMaxBytes length).getD maxU16Length
    (orNull .string v,
      stringContext .nVarChar (paramLen == maxU16Length) (paramLen / 2).toNat dbCollation)
  | nVarcharMax v => (orNull .string v, stringContext .nVarChar true usizeMax dbCollation)
  | varchar v length =>
    let paramLen := declaredLength length
    (orNull .string v,
      stringContext .bigVarChar (paramLen == maxU16Length) paramLen.toNat dbCollation)
  | varcharMax v => (orNull .string v, stringContext .bigVarChar true usizeMax dbCollation)
  | char v length =>
    (orNull .string v, stringContext .bigChar false (declaredLength length).toNat dbCollation)
  | nChar v length =>
    (orNull .string v,
      stringContext .nChar false (declaredWideLength length / 2).toNat dbCollation)
  | text v => (orNull .string v, stringContext .text false usizeMax dbCollation)
  | nText v => (orNull .string v, stringContext .nText false usizeMax dbCollation)
  | image v => (orNull .bytes v, baseContext .image usizeMax)
  | binary v length => (orNull .bytes v, baseContext .bigBinary (declaredLength length).toNat)
  | varBinary v length =>
    let paramLen := declaredLength length
    (orNull .bytes v,
      { baseContext .bigVarBinary paramLen.toNat with isPlp := paramLen == maxU16Length })
  | varBinaryMax v => (orNull .bytes v, { baseContext .bigVarBinary usizeMax with isPlp := true })
  | xml v => (orNull .xml v, { baseContext .xml usizeMax with isPlp := true })
  | json v => (orNull .json v, { baseContext .json usizeMax with isPlp := true })
  | vector v dimensions baseType =>
    (orNull .vector v, baseContext .vector (vectorExactSize dimensions baseType).toNat)
  | variant inner =>
    let (value, ctx) := toColumnValueAndContext dbCollation inner
    (value, { ctx with tdsType := TdsDataType.ssVariant.code })
  | table _ _ => (.null, baseContext .sqlTable 0)
  | udt _ v => (orNull .bytes v, { baseContext .udt usizeMax with isPlp := true })

/-! ### Checks -/

def vectorTooLong (dimensions : UInt16) (baseType : VectorBaseType) : Error := .usageError
  (s!"Vector dimensions {dimensions} exceeds maximum supported dimensions " ++
    s!"{baseType.maxDimensions} for base type {baseType.name}")

def vectorBaseTypeMismatch (declared actual : VectorBaseType) : Error := .typeConversionError
  s!"Vector base type mismatch: declared {declared.name}, but vector has {actual.name}"

def vectorDimensionMismatch (declared : UInt16) (actual : ℕ) : Error := .typeConversionError
  s!"Vector dimension mismatch: declared {declared}, but vector has {actual}"

/-- Check a vector against its declaration. -/
def validateVector (v : Option SqlVector) (dimensions : UInt16) (baseType : VectorBaseType) :
    TdsResult Unit :=
  if dimensions.toNat > baseType.maxDimensions then .error (vectorTooLong dimensions baseType)
  else match v with
    | none => .ok ()
    | some v =>
      if v.baseType ≠ baseType then .error (vectorBaseTypeMismatch baseType v.baseType)
      else if v.elementCount ≠ dimensions.toNat then
        .error (vectorDimensionMismatch dimensions v.elementCount)
      else .ok ()

/-- The name of a type a `sql_variant` cannot hold. -/
def unsupportedInVariant : SqlType → Option String
  | nVarcharMax _ => some "nvarchar(max)"
  | varcharMax _ => some "varchar(max)"
  | varBinaryMax _ => some "varbinary(max)"
  | text _ => some "text"
  | nText _ => some "ntext"
  | image _ => some "image"
  | xml _ => some "xml"
  | json _ => some "json"
  | vector .. => some "vector"
  | udt .. => some "udt"
  | variant _ => some "sql_variant (nested)"
  | table .. => some "table-valued parameter (TVP)"
  | nVarchar _ length =>
    if nvarcharInlineMaxBytes length = none then some "nvarchar(max)" else none
  | varchar _ length => if length > varTdsMaxLength then some "varchar(max)" else none
  | varBinary _ length => if length > varTdsMaxLength then some "varbinary(max)" else none
  | _ => none

/-- Check that a `sql_variant` can hold the value. -/
def validateVariantInner (inner : SqlType) : TdsResult Unit :=
  match inner.unsupportedInVariant with
  | some typeName =>
    .error (.usageError s!"sql_variant cannot hold a value of type {typeName}.")
  | none => .ok ()

/-- Check that raw UTF-16 consists of whole units. -/
def validateNtext (value : SqlString) : TdsResult Unit :=
  let isRaw := match value.encodingType with
    | .utf16 | .delayedSet => true
    | .utf8 | .lcidBased _ => false
  if isRaw && value.bytes.length % 2 ≠ 0 then
    .error (.usageError "NTEXT data must contain complete UTF-16 code units.")
  else .ok ()

def legacyLobMaxBytes : ℕ := 0x7FFFFFFF

/-- The length of a legacy large object, if it is within the limit. -/
def legacyLobLength (length : ℕ) : TdsResult UInt32 :=
  if length ≤ legacyLobMaxBytes then .ok (UInt32.ofNat length)
  else .error (.usageError "Legacy LOB exceeds 2 GiB - 1 bytes.")

/-- The bytes of a legacy large object, and whether encoding them lost a character. -/
def legacyLobWireBytes (cs : Codecs) (collation : SqlCollation) :
    SqlType → TdsResult (Option (List UInt8) × Bool)
  | text (some value) => do
    let (bytes, hadLoss) ← narrowStringWireBytes cs value (some collation)
    pure (some bytes, hadLoss)
  | nText (some value) => do
    validateNtext value
    match value.encodingType with
    | .utf16 | .delayedSet => pure (some value.bytes, false)
    | .utf8 | .lcidBased _ =>
      let decoded ← value.toUtf8String cs
      pure (some (utf16le decoded), false)
  | image (some bytes) => .ok (some bytes, false)
  | text none | nText none | image none => .ok (none, false)
  | _ => .error (.implementationError "Legacy LOB serialization requires text, ntext, or image.")

/-- Apply the byte limit of a `text`, which may drop trailing spaces, and take the length. -/
def fitLegacyLob (isText : Bool) (bytes : List UInt8) (limit : Option ℕ) :
    TdsResult (List UInt8 × UInt32) := do
  let bytes ← match limit with
    | some maximum => if isText then fitNarrowByteLimit bytes maximum else pure bytes
    | none => pure bytes
  let length ← legacyLobLength bytes.length
  pure (bytes, length)

def isText : SqlType → Bool
  | text _ => true
  | _ => false

/-- Bytes of a legacy large object before it is encoded. -/
def legacyLobSourceLength : SqlType → Option ℕ
  | text (some value) | nText (some value) => some value.bytes.length
  | image (some bytes) => some bytes.length
  | _ => none

/-- Reject a legacy large object that is too long once encoded. -/
def validateLegacyLobLength (cs : Codecs) (value : SqlType) (collation : SqlCollation)
    (limit : Option ℕ) : TdsResult Unit :=
  match value.legacyLobSourceLength with
  | none => .ok ()
  | some sourceLen =>
    -- encoding at most triples a value
    if (value.isText && limit.any (· ≤ legacyLobMaxBytes)) ||
        sourceLen ≤ legacyLobMaxBytes / 3 then .ok ()
    else do
      let (encoded, _) ← legacyLobWireBytes cs collation value
      match encoded with
      | some bytes =>
        let _ ← fitLegacyLob value.isText bytes limit
        pure ()
      | none => pure ()

/-- The tighter of the value's and the parameter's byte limits. -/
def effectiveLimit (value : SqlType) (columnLimit : Option ℕ) : Option ℕ :=
  match value with
  | char (some s) _ | varchar (some s) _ | varcharMax (some s) | text (some s) =>
    effectiveNarrowStringByteLimit s columnLimit
  | _ => columnLimit

def isNarrowType (tdsType : UInt8) : Bool :=
  tdsType ∈ [TdsDataType.bigVarChar.code, TdsDataType.bigChar.code, TdsDataType.text.code]

def narrowStringBytes (cs : Codecs) (value : ColumnValues) (ctx : TdsTypeContext)
    (limit : Option ℕ) : TdsResult (Option (List UInt8 × Bool)) :=
  match value with
  | .string s =>
    if !isNarrowType ctx.tdsType then .ok none
    else do
      let (bytes, hadLoss) ← match s.asRawWireBytes with
        | some raw => pure (raw, false)
        | none =>
          let decoded ← s.toUtf8String cs
          let encoded := cs.encodeNarrowForWire decoded ctx.collation
          pure (encoded.bytes, encoded.hadLoss)
      let maximum := narrowStringMaximum ctx (effectiveNarrowStringByteLimit s limit)
      let bytes ← limitNarrow bytes maximum true
      pure (some (bytes, hadLoss))
  | _ => .ok none

/-- Check that a narrow string fits once encoded. -/
def validateNarrowStringLength (cs : Codecs) (value : ColumnValues) (ctx : TdsTypeContext)
    (limit : Option ℕ) : TdsResult Unit :=
  if !isNarrowType ctx.tdsType then .ok ()
  else
    let limit := match value with
      | .string s => effectiveNarrowStringByteLimit s limit
      | _ => limit
    match narrowStringMaximum ctx limit with
    | none => .ok ()
    | some maximum => do
      let _ ← narrowStringBytes cs value ctx (some maximum)
      pure ()

/-- Check a narrow string and, for a `text`, the length of the object. -/
def validateNarrow (cs : Codecs) (value : SqlType) (dbCollation : SqlCollation)
    (limit : Option ℕ) : TdsResult Unit := do
  let (column, ctx) := value.toColumnValueAndContext dbCollation
  validateNarrowStringLength cs column ctx limit
  validateLegacyLobLength cs value dbCollation limit

/-- Check what must be right before any byte of the value is written. -/
def validateForSend (cs : Codecs) (dbCollation : SqlCollation) (columnLimit : Option ℕ)
    (value : SqlType) : TdsResult Unit :=
  let limit := value.effectiveLimit columnLimit
  match value with
  | udt typeName _ => typeName.validate
  | nText (some s) => do
    validateNtext s
    validateLegacyLobLength cs value dbCollation limit
  | image (some _) => validateLegacyLobLength cs value dbCollation limit
  | variant inner => do
    validateVariantInner inner
    validateForSend cs dbCollation limit inner
  | varchar _ length =>
    if limit.isNone && length > varTdsMaxLength then .ok ()
    else validateNarrow cs value dbCollation limit
  | varcharMax _ =>
    if limit.isNone then .ok () else validateNarrow cs value dbCollation limit
  | text _ =>
    if limit.isNone then validateLegacyLobLength cs value dbCollation none
    else validateNarrow cs value dbCollation limit
  | vector v dimensions baseType => validateVector v dimensions baseType
  | char _ _ => validateNarrow cs value dbCollation limit
  | _ => .ok ()

/-! ### The type description -/

def collatedTypeInfoBytes (tdsType : UInt8) (length : UInt16) (collation : SqlCollation) :
    List UInt8 :=
  [tdsType] ++ leBytes 2 length.toNat ++ leBytes 4 collation.info.toNat ++ [collation.sortId]

def writeTypeBytes (tdsType : TdsDataType) (bytes : List UInt8) : WriterM Unit :=
  (tdsType.code :: bytes).forM writeByteAsync

def writeLegacyLobTypeInfo (value : SqlType) (collation : SqlCollation) (length : UInt32) :
    WriterM Unit := do
  writeByteAsync value.getNullableType.code
  writeU32Async length
  match value with
  | image _ => pure ()
  | _ =>
    writeU32Async collation.info
    writeByteAsync collation.sortId

/-- The first of a given scale, the value's own and the default. -/
def scaleOr (override own : Option UInt8) : UInt8 := (override <|> own).getD defaultVartimeScale

/-- Write the type description: the type byte and its length, precision, scale or collation. -/
def writeTypeInfo (cs : Codecs) (dbCollation : SqlCollation)
    (precisionOverride scaleOverride : Option UInt8) (value : SqlType) : WriterM Unit :=
  match value with
  | bit _ | tinyInt _ => writeFixedBytes [value.getNullableType.code, 1]
  | smallInt _ => writeFixedBytes [value.getNullableType.code, 2]
  | int _ | real _ => writeFixedBytes [value.getNullableType.code, 4]
  | bigInt _ | float _ => writeFixedBytes [value.getNullableType.code, 8]
  | decimal v | numeric v =>
    writeTypeBytes value.getNullableType
      [decimalFixedSize, (precisionOverride <|> v.map (·.precision)).getD 1,
        (scaleOverride <|> v.map (·.scale)).getD 0]
  | money _ | dateTime _ => writeTypeBytes value.getNullableType [8]
  | smallMoney _ | smallDateTime _ => writeTypeBytes value.getNullableType [4]
  | uuid _ => writeTypeBytes value.getNullableType [16]
  | date _ => writeTypeBytes value.getNullableType []
  | time v => writeTypeBytes value.getNullableType [scaleOr scaleOverride (v.map (·.scale))]
  | dateTime2 v =>
    writeTypeBytes value.getNullableType [scaleOr scaleOverride (v.map (·.time.scale))]
  | dateTimeOffset v =>
    writeTypeBytes value.getNullableType [scaleOr scaleOverride (v.map (·.datetime2.time.scale))]
  | nVarchar _ length =>
    writeFixedBytes (collatedTypeInfoBytes value.getNullableType.code
      ((nvarcharInlineMaxBytes length).getD maxU16Length) dbCollation)
  | nVarcharMax _ | varcharMax _ =>
    writeFixedBytes (collatedTypeInfoBytes value.getNullableType.code maxU16Length dbCollation)
  | varchar _ length | char _ length =>
    writeFixedBytes (collatedTypeInfoBytes value.getNullableType.code (declaredLength length)
      dbCollation)
  | nChar _ length =>
    writeFixedBytes (collatedTypeInfoBytes value.getNullableType.code (declaredWideLength length)
      dbCollation)
  | text _ | nText _ | image _ => do
    let (bytes, _) ← liftResult (legacyLobWireBytes cs dbCollation value)
    let length ← liftResult (legacyLobLength (bytes.getD []).length)
    writeLegacyLobTypeInfo value dbCollation length
  | binary _ length | varBinary _ length => do
    writeByteAsync value.getNullableType.code
    writeU16Async (declaredLength length)
  | varBinaryMax _ => do
    writeByteAsync value.getNullableType.code
    writeU16Async maxU16Length
  | xml _ => writeTypeBytes value.getNullableType [0x00]
  | json _ => writeTypeBytes value.getNullableType []
  | vector v dimensions baseType => do
    writeByteAsync value.getNullableType.code
    liftResult (validateVector v dimensions baseType)
    writeU16Async (vectorExactSize dimensions baseType)
    writeByteAsync baseType.code
  | variant inner => do
    liftResult (validateVariantInner inner)
    writeByteAsync value.getNullableType.code
    writeU32Async sqlVariantMaxLength
  | udt typeName _ => do
    writeByteAsync value.getNullableType.code
    writeUdtTypeName typeName
  | table .. => throw (.implementationError
      ("TVP serialization is not handled by write_type_info; " ++
        "it is dispatched via serialize_table"))

/-! ### The whole parameter value -/

/-- Precision and scale for a value that cannot carry them. -/
structure RpcTypeMetadata where
  precision : Option UInt8
  scale : Option UInt8
  deriving DecidableEq, Repr

/-- Json goes out as UTF-8, in one chunk. -/
def serializeJsonParameter (v : Option SqlJson) : WriterM Unit := do
  writeByteAsync TdsDataType.json.code
  match v with
  | some value =>
    writeU64Async plpUnknownLen
    writeU32Async (UInt32.ofNat value.bytes.length)
    writeAsync value.bytes
    writeU32Async 0
  | none => writeU64Async plpNull

/-- A legacy large object behind the lengths of type and value. -/
def serializeLegacyLob (cs : Codecs) (dbCollation : SqlCollation) (columnLimit : Option ℕ)
    (value : SqlType) : WriterM Unit := do
  let limit := value.effectiveLimit columnLimit
  let (encoded, hadLoss) ← liftResult (legacyLobWireBytes cs dbCollation value)
  match encoded with
  | some bytes =>
    let (fitted, length) ← liftResult (fitLegacyLob value.isText bytes limit)
    writeLegacyLobTypeInfo value dbCollation length
    writeU32Async length
    writeAsync fitted
  | none =>
    writeLegacyLobTypeInfo value dbCollation 0
    writeU32Async 0xFFFFFFFF
  if hadLoss then noteCodePageConversionLoss else pure ()

/-- Write a parameter's type description and value. -/
def serializeWithNarrowStringByteLimit (cs : Codecs)
    (serializeTable : TvpTypeName → Option TvpTableData → WriterM Unit)
    (dbCollation : SqlCollation) (typeMetadata : Option RpcTypeMetadata) (limit : Option ℕ)
    (value : SqlType) : WriterM Unit :=
  match value with
  | json v => serializeJsonParameter v
  | table typeName data => serializeTable typeName data
  | text _ | nText _ | image _ => serializeLegacyLob cs dbCollation limit value
  | _ => do
    writeTypeInfo cs dbCollation (typeMetadata.bind (·.precision)) (typeMetadata.bind (·.scale))
      value
    let (column, ctx) := value.toColumnValueAndContext dbCollation
    serializeValueWithNarrowStringByteLimit cs column ctx limit

end SqlType

end MssqlTds
