import MssqlTds.Datatypes.SqlString

/-!
# Column values

The values the driver sends and receives.  Floats are kept by their bit patterns, a decimal's
magnitude as a 128-bit number, and a uuid by the fields its little-endian form reverses.

`SqlDate` hides its day count behind constructors that bound it, so a date always fits the three
bytes it takes on the wire; the other temporal values have public fields and promise nothing.
-/

namespace MssqlTds

open Bytes

inductive TdsDataType where
  | void | image | text | guid | varBinary | intN | varChar | dateN | timeN | dateTime2N
  | dateTimeOffsetN | binary | char | int1 | bit | int2 | decimal | int4 | dateTim4 | flt4 | money
  | dateTime | flt8 | numeric | ssVariant | nText | bitN | decimalN | numericN | fltN | moneyN
  | dateTimeN | money4 | int8 | bigVarBinary | bigVarChar | bigBinary | bigChar | nVarChar | nChar
  | udt | xml | sqlTable | json | vector | none
  deriving DecidableEq, Repr

def TdsDataType.code : TdsDataType → UInt8
  | void => 0x1F
  | image => 0x22
  | text => 0x23
  | guid => 0x24
  | varBinary => 0x25
  | intN => 0x26
  | varChar => 0x27
  | dateN => 0x28
  | timeN => 0x29
  | dateTime2N => 0x2A
  | dateTimeOffsetN => 0x2B
  | binary => 0x2D
  | char => 0x2F
  | int1 => 0x30
  | bit => 0x32
  | int2 => 0x34
  | decimal => 0x37
  | int4 => 0x38
  | dateTim4 => 0x3A
  | flt4 => 0x3B
  | money => 0x3C
  | dateTime => 0x3D
  | flt8 => 0x3E
  | numeric => 0x3F
  | ssVariant => 0x62
  | nText => 0x63
  | bitN => 0x68
  | decimalN => 0x6A
  | numericN => 0x6C
  | fltN => 0x6D
  | moneyN => 0x6E
  | dateTimeN => 0x6F
  | money4 => 0x7A
  | int8 => 0x7F
  | bigVarBinary => 0xA5
  | bigVarChar => 0xA7
  | bigBinary => 0xAD
  | bigChar => 0xAF
  | nVarChar => 0xE7
  | nChar => 0xEF
  | udt => 0xF0
  | xml => 0xF1
  | sqlTable => 0xF3
  | json => 0xF4
  | vector => 0xF5
  | none => 0x00

/-- A byte as the two upper-case hexadecimal digits of the driver's messages. -/
def hexByte (b : UInt8) : String :=
  let digit (n : ℕ) : Char := Char.ofNat (if n < 10 then 48 + n else 55 + n)
  String.ofList [digit (b.toNat / 16), digit (b.toNat % 16)]

/-! ### Numbers -/

/-- Decimal and numeric values: sign, precision, scale and the unscaled magnitude. -/
structure DecimalParts where
  isPositive : Bool
  scale : UInt8
  precision : UInt8
  magnitude : BitVec 128
  deriving DecidableEq, Repr

/-- The `index`-th little-endian 32-bit word of the magnitude. -/
def DecimalParts.word (d : DecimalParts) (index : ℕ) : Int32 :=
  if index ≥ 4 then 0 else (UInt32.ofNat (d.magnitude.toNat >>> (index * 32))).toInt32

/-- A `money` value, as the two halves of a scaled 64-bit integer. -/
structure SqlMoney where
  lsbPart : Int32
  msbPart : Int32
  deriving DecidableEq, Repr

/-- A `smallmoney` value, as a scaled 32-bit integer. -/
structure SqlSmallMoney where
  intVal : Int32
  deriving DecidableEq, Repr

/-! ### Dates and times -/

/-- A `date`: days since 0001-01-01. -/
structure SqlDate where
  days : UInt32
  days_lt : days.toNat < 2 ^ 24
  deriving DecidableEq, Repr

namespace SqlDate

/-- 9999-12-31. -/
def maxDays : UInt32 := 3652058

end SqlDate

/-- A `time`: 100-nanosecond units since midnight, and the scale it is sent with. -/
structure SqlTime where
  timeNanoseconds : UInt64
  scale : UInt8
  deriving DecidableEq, Repr

structure SqlDateTime2 where
  days : UInt32
  time : SqlTime
  deriving DecidableEq, Repr

/-- A `datetimeoffset`, with its offset from UTC in minutes. -/
structure SqlDateTimeOffset where
  datetime2 : SqlDateTime2
  offset : Int16
  deriving DecidableEq, Repr

/-- A `smalldatetime`: days since 1900-01-01 and minutes since midnight. -/
structure SqlSmallDateTime where
  days : UInt16
  time : UInt16
  deriving DecidableEq, Repr

/-- A `datetime`: days since 1900-01-01 and ticks since midnight. -/
structure SqlDateTime where
  days : Int32
  time : UInt32
  deriving DecidableEq, Repr

/-- Bytes a time of the given scale takes on the wire. -/
def getTimeLengthFromScale (scale : UInt8) : TdsResult ℕ :=
  if scale ≤ 2 then .ok 3
  else if scale ≤ 4 then .ok 4
  else if scale ≤ 7 then .ok 5
  else .error (.usageError s!"Invalid scale for Time type: {scale}")

/-- A time in units of its scale. -/
def SqlTime.timeValue (t : SqlTime) : ℕ :=
  t.timeNanoseconds.toNat / match t.scale with
    | 0 => 10000000
    | 1 => 1000000
    | 2 => 100000
    | 3 => 10000
    | 4 => 1000
    | 5 => 100
    | 6 => 10
    | _ => 1

/-! ### Other values -/

structure Uuid where
  d1 : UInt32
  d2 : UInt16
  d3 : UInt16
  d4 : Vector UInt8 8
  deriving DecidableEq, Repr

/-- Bytes with the first three fields little-endian. -/
def Uuid.toBytesLe (u : Uuid) : List UInt8 :=
  leBytes 4 u.d1.toNat ++ leBytes 2 u.d2.toNat ++ leBytes 2 u.d3.toNat ++ u.d4.toList

/-- An `xml` value as UTF-16LE bytes. -/
structure SqlXml where
  bytes : List UInt8
  deriving DecidableEq, Repr

/-- The value starts with a UTF-16LE byte order mark. -/
def SqlXml.hasBom (x : SqlXml) : Bool :=
  match x.bytes with
  | b₀ :: b₁ :: _ => b₀ == 0xFF && b₁ == 0xFE
  | _ => false

/-- A `json` value as UTF-8 bytes. -/
structure SqlJson where
  bytes : List UInt8
  deriving DecidableEq, Repr

inductive VectorBaseType where
  | float32
  | float16
  deriving DecidableEq, Repr

namespace VectorBaseType

def code : VectorBaseType → UInt8
  | float32 => 0x00
  | float16 => 0x01

/-- The name in debug output. -/
def name : VectorBaseType → String
  | float32 => "Float32"
  | float16 => "Float16"

def elementSizeBytes : VectorBaseType → ℕ
  | float32 => 4
  | float16 => 2

/-- Most elements a vector can have. -/
def maxDimensions : VectorBaseType → ℕ
  | float32 => 1998
  | float16 => 3996

end VectorBaseType

/-- Elements of a vector, in memory always single-precision floats. -/
inductive VectorData where
  | float32 (values : List UInt32)
  | float16 (values : List UInt32)
  deriving DecidableEq, Repr

/-- A `vector` value.  Nothing ties the base type to the data. -/
structure SqlVector where
  baseType : VectorBaseType
  data : VectorData
  deriving DecidableEq, Repr

def vectorHeaderSize : ℕ := 8

def vectorMaxSize : ℕ := 8000

namespace SqlVector

variable (v : SqlVector)

def elementCount : ℕ :=
  match v.data with
  | .float32 values => values.length
  | .float16 values => values.length

/-- The element count in the 16 bits the wire has for it. -/
def dimensionCount : UInt16 := UInt16.ofNat v.elementCount

def totalSize : ℕ := vectorHeaderSize + v.elementCount * v.baseType.elementSizeBytes

end SqlVector

inductive ColumnValues where
  | tinyInt (v : UInt8)
  | smallInt (v : Int16)
  | int (v : Int32)
  | bigInt (v : Int64)
  | real (bits : UInt32)
  | float (bits : UInt64)
  | decimal (v : DecimalParts)
  | numeric (v : DecimalParts)
  | bit (v : Bool)
  | string (v : SqlString)
  | dateTime (v : SqlDateTime)
  | date (v : SqlDate)
  | time (v : SqlTime)
  | dateTime2 (v : SqlDateTime2)
  | dateTimeOffset (v : SqlDateTimeOffset)
  | smallDateTime (v : SqlSmallDateTime)
  | smallMoney (v : SqlSmallMoney)
  | money (v : SqlMoney)
  | bytes (v : List UInt8)
  | xml (v : SqlXml)
  | null
  | uuid (v : Uuid)
  | json (v : SqlJson)
  | vector (v : SqlVector)
  deriving DecidableEq, Repr

end MssqlTds
