import MssqlTds.Datatypes.ColumnValues

/-!
# Column metadata

What a decoder knows of a column before it reads a value: the wire type, and the category of its
`TYPE_INFO` with the length, precision, scale or collation that category carries.

The categories of wire types (`FixedLengthTypes`, `VariableLengthTypes`, `PartialLengthType`) are
sub-enumerations of `TdsDataType`; here they are subtypes, so a category never holds a foreign type.
-/

namespace MssqlTds

namespace TdsDataType

/-- The types that have a type byte on the wire. -/
def all : List TdsDataType :=
  [void, image, text, guid, varBinary, intN, varChar, dateN, timeN, dateTime2N, dateTimeOffsetN,
    binary, char, int1, bit, int2, decimal, int4, dateTim4, flt4, money, dateTime, flt8, numeric,
    ssVariant, nText, bitN, decimalN, numericN, fltN, moneyN, dateTimeN, money4, int8, bigVarBinary,
    bigVarChar, bigBinary, bigChar, nVarChar, nChar, udt, xml, sqlTable, json, vector]

def tryFrom (value : UInt8) : TdsResult TdsDataType :=
  match all.find? (·.code == value) with
  | some t => .ok t
  | Option.none => .error (.protocolError s!"Invalid TDS Type {value}")

/-- The name in debug output. -/
def name : TdsDataType → String
  | void => "Void"
  | image => "Image"
  | text => "Text"
  | guid => "Guid"
  | varBinary => "VarBinary"
  | intN => "IntN"
  | varChar => "VarChar"
  | dateN => "DateN"
  | timeN => "TimeN"
  | dateTime2N => "DateTime2N"
  | dateTimeOffsetN => "DateTimeOffsetN"
  | binary => "Binary"
  | char => "Char"
  | int1 => "Int1"
  | bit => "Bit"
  | int2 => "Int2"
  | decimal => "Decimal"
  | int4 => "Int4"
  | dateTim4 => "DateTim4"
  | flt4 => "Flt4"
  | money => "Money"
  | dateTime => "DateTime"
  | flt8 => "Flt8"
  | numeric => "Numeric"
  | ssVariant => "SsVariant"
  | nText => "NText"
  | bitN => "BitN"
  | decimalN => "DecimalN"
  | numericN => "NumericN"
  | fltN => "FltN"
  | moneyN => "MoneyN"
  | dateTimeN => "DateTimeN"
  | money4 => "Money4"
  | int8 => "Int8"
  | bigVarBinary => "BigVarBinary"
  | bigVarChar => "BigVarChar"
  | bigBinary => "BigBinary"
  | bigChar => "BigChar"
  | nVarChar => "NVarChar"
  | nChar => "NChar"
  | udt => "Udt"
  | xml => "Xml"
  | sqlTable => "SqlTable"
  | json => "Json"
  | vector => "Vector"
  | none => "None"

theorem tryFrom_code {t : TdsDataType} (h : t ≠ none) : tryFrom t.code = .ok t := by
  cases t <;> first | rfl | exact absurd rfl h

theorem code_injective {t u : TdsDataType} (h : t.code = u.code) (ht : t ≠ none) (hu : u ≠ none) :
    t = u := by
  have := (tryFrom_code ht).symm.trans (h ▸ tryFrom_code hu)
  injection this

def isUnicodeType : TdsDataType → Bool
  | nVarChar | nChar | nText => true
  | _ => false

end TdsDataType

/-! ### Categories of wire types -/

/-- The wire types of one category. -/
abbrev TypesIn (ts : List TdsDataType) := { t : TdsDataType // t ∈ ts }

/-- Types outside the category are rejected. -/
def TypesIn.tryFrom {ts : List TdsDataType} (t : TdsDataType) : TdsResult (TypesIn ts) :=
  if h : t ∈ ts then .ok ⟨t, h⟩ else .error (.protocolError s!"Invalid TDS Type {t.name}")

abbrev FixedLengthTypes := TypesIn
  [.int1, .bit, .int2, .int4, .dateTim4, .flt4, .money4, .money, .dateTime, .flt8, .int8]

abbrev VariableLengthTypes := TypesIn
  [.guid, .intN, .bitN, .decimal, .numeric, .decimalN, .numericN, .fltN, .moneyN, .dateTimeN,
    .dateN, .timeN, .dateTime2N, .dateTimeOffsetN, .char, .varChar, .binary, .varBinary,
    .bigVarBinary, .bigVarChar, .bigBinary, .bigChar, .nVarChar, .nChar, .text, .image, .nText,
    .ssVariant, .vector]

def VariableLengthTypes.intN : VariableLengthTypes := ⟨.intN, by decide⟩

abbrev PartialLengthType := TypesIn [.xml, .bigVarChar, .bigVarBinary, .nVarChar, .udt, .json]

def FixedLengthTypes.getLen (t : FixedLengthTypes) : ℕ :=
  match t.val with
  | .int1 | .bit => 1
  | .int2 => 2
  | .int4 | .dateTim4 | .flt4 | .money4 => 4
  | _ => 8

/-! ### Type information -/

inductive TypeInfoVariant where
  | fixedLen (t : FixedLengthTypes)
  | varLenString (t : VariableLengthTypes) (length : ℕ) (collation : Option SqlCollation)
  | varLenPrecisionScale (t : VariableLengthTypes) (length : ℕ) (precision scale : UInt8)
  | varLenScale (t : VariableLengthTypes) (scale : UInt8)
  | varLen (t : VariableLengthTypes) (length : ℕ)
  | partialLen (t : PartialLengthType) (length : Option ℕ) (collation : Option SqlCollation)
  deriving DecidableEq

def TypeInfoVariant.debug : TypeInfoVariant → String
  | fixedLen t => s!"FixedLen({t.val.name})"
  | varLenString t length _ => s!"VarLenString({t.val.name}, {length}, ..)"
  | varLenPrecisionScale t length precision scale =>
    s!"VarLenPrecisionScale({t.val.name}, {length}, {precision}, {scale})"
  | varLenScale t scale => s!"VarLenScale({t.val.name}, {scale})"
  | varLen t length => s!"VarLen({t.val.name}, {length})"
  | partialLen t _ _ => s!"PartialLen({t.val.name}, ..)"

structure TypeInfo where
  tdsType : TdsDataType
  length : ℕ
  typeInfoVariant : TypeInfoVariant
  deriving DecidableEq

namespace TypeInfo

variable (tdsType : TdsDataType) (length : ℕ)

/-- Build the variant for a type of `allowed`, reject the others of the category. -/
def build {ts : List TdsDataType} (allowed : List TdsDataType) (constructorName : String)
    (variant : TypesIn ts → TypeInfoVariant) : TdsResult TypeInfo := do
  let t ← TypesIn.tryFrom tdsType
  if t.val ∈ allowed then pure ⟨tdsType, length, variant t⟩
  else throw (.protocolError
    s!"Invalid TDS type {tdsType.name} for {constructorName} constructor")

def varLen : TdsResult TypeInfo :=
  build tdsType length
    [.moneyN, .dateTimeN, .intN, .fltN, .guid, .bitN, .dateN, .image, .bigVarBinary, .bigBinary,
      .ssVariant] "var_len" fun t => .varLen t length

def varLenString (collation : Option SqlCollation) : TdsResult TypeInfo :=
  build tdsType length [.bigChar, .bigVarChar, .text, .nText, .nChar, .nVarChar] "var_len_string"
    fun t => .varLenString t length collation

def varLenScale (scale : UInt8) : TdsResult TypeInfo :=
  build tdsType length [.timeN, .dateTime2N, .dateTimeOffsetN, .vector] "var_len_scale"
    fun t => .varLenScale t scale

def varLenPrecisionScale (precision scale : UInt8) : TdsResult TypeInfo :=
  build tdsType length [.decimal, .numeric, .decimalN, .numericN] "var_len_precision_scale"
    fun t => .varLenPrecisionScale t length precision scale

def partialLen (collation : Option SqlCollation) : TdsResult TypeInfo := do
  let t ← TypesIn.tryFrom tdsType
  pure ⟨tdsType, length, .partialLen t (some length) collation⟩

end TypeInfo

/-- A column encryption key (CEK) wrapped by one column master key. -/
structure EncryptedCekValue where
  encryptedKey : List UInt8
  keyStoreName : String
  keyPath : String
  algorithmName : String
  deriving DecidableEq

/-- A column encryption key of the CEK table, wrapped by one or more master keys. -/
structure CekTableEntry where
  databaseId : Int32
  cekId : Int32
  cekVersion : Int32
  cekMdVersion : Vector UInt8 8
  encryptedCekValues : List EncryptedCekValue
  deriving DecidableEq

/-- Always Encrypted metadata of a column. -/
structure CryptoMetadata where
  /-- Place of the column's key in the CEK table. -/
  cekTableOrdinal : UInt16
  /-- Type of the column before encryption. -/
  baseDataType : TdsDataType
  baseTypeInfo : TypeInfo
  /-- `2` is `AEAD_AES_256_CBC_HMAC_SHA256`, `0` an algorithm given by name. -/
  cipherAlgorithmId : UInt8
  cipherAlgorithmName : Option String
  /-- `1` is deterministic, `2` randomized. -/
  encryptionType : UInt8
  normalizationRuleVersion : UInt8
  deriving DecidableEq

structure ColumnMetadata where
  typeInfo : TypeInfo
  dataType : TdsDataType
  columnName : String
  cryptoMetadata : Option CryptoMetadata
  deriving DecidableEq

namespace ColumnMetadata

variable (metadata : ColumnMetadata)

/-- Values come partially length-prefixed. -/
def isPlp : Bool :=
  match metadata.typeInfo.typeInfoVariant with
  | .partialLen .. => true
  | _ => false

def getScale : Option UInt8 :=
  match metadata.typeInfo.typeInfoVariant with
  | .varLenScale _ scale => some scale
  | .varLenPrecisionScale _ _ _ scale => some scale
  | _ => none

def getCollation : Option SqlCollation :=
  match metadata.typeInfo.typeInfoVariant with
  | .varLenString _ _ collation => collation
  | .partialLen _ _ collation => collation
  | _ => none

/-- Encoding of a character column; a narrow column without a collation panics. -/
def getEncodingType : TdsResult EncodingType :=
  if metadata.dataType.isUnicodeType then .ok .utf16
  else match metadata.getCollation with
    | some collation => .ok (if collation.utf8 then .utf8 else .lcidBased collation)
    | none => .error (.panic "called `Option::unwrap()` on a `None` value")

end ColumnMetadata

end MssqlTds
