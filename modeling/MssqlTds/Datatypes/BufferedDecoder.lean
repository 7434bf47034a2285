import MssqlTds.Datatypes.RowDecoder
import MssqlTds.Lib.Anticipation

/-!
# Decoding values that are already buffered

Before it awaits a value, a row decoder tries the bytes the transport has received so far.
`tryDecodeBuffered`, `tryDecodeBufferedVariant` and `tryDecodeBufferedInto` decode one value from
such bytes, or give up without an effect: on bytes that do not hold the whole value, and on the
types that are left to the awaiting decoder.
-/

namespace MssqlTds

open Bytes Reader RowCall

/-- A decoder of buffered bytes. -/
abbrev Buffered := Attempt Error

namespace BufferedSlice

/-- The bytes run out: the decoder gives up. -/
def incomplete (_ _ : ℕ) : Option Error := none

def takeSlice (len : ℕ) : Buffered (List UInt8) := take incomplete len

def byte : Buffered UInt8 := u8 incomplete

def i16 : Buffered Int16 := .i16 incomplete

def u16 : Buffered UInt16 := .u16 incomplete

def u24 : Buffered UInt24 := .u24 incomplete

def i32 : Buffered Int32 := .i32 incomplete

def u32 : Buffered UInt32 := .u32 incomplete

def u40 : Buffered UInt64 := .u40 incomplete

def i64 : Buffered Int64 := .i64 incomplete

/-- The bits of a single-precision float. -/
def f32 : Buffered UInt32 := .u32 incomplete

/-- The bits of a double-precision float. -/
def f64 : Buffered UInt64 := .u64 incomplete

end BufferedSlice

open BufferedSlice

/-- Pass on the result of a pure computation. -/
def liftBuffered {α : Type} : TdsResult α → Buffered α
  | .ok a => pure a
  | .error e => throw (some e)

@[simp] theorem liftBuffered_ok {α : Type} (a : α) : liftBuffered (.ok a) = pure a := rfl

namespace GenericDecoder

/-! ### Parts of values -/

def bufferedMoney : Buffered SqlMoney := do
  let msbPart ← i32
  let lsbPart ← i32
  pure ⟨lsbPart, msbPart⟩

def bufferedSmallDateTime : Buffered SqlSmallDateTime := do
  let days ← u16
  let time ← u16
  pure ⟨days, time⟩

def bufferedDateTime : Buffered SqlDateTime := do
  let days ← i32
  let time ← u32
  pure ⟨days, time⟩

def bufferedDate : Buffered SqlDate := (fun ⟨days, h⟩ => ⟨days, h⟩) <$> u24

def bufferedScaledTime (timeLength : UInt8) : Buffered UInt64 :=
  match timeLength with
  | 3 => (fun v => v.val.toUInt64) <$> u24
  | 4 => UInt32.toUInt64 <$> u32
  | _ => u40

section

variable (metadata : ColumnMetadata)

def bufferedScale : Buffered UInt8 :=
  match metadata.getScale with
  | some scale => pure scale
  | none => throw (some (.implementationError s!"{metadata.dataType.name} type should have scale"))

/-- The time of a value of `length` bytes, of which `trailing` come after it. -/
def bufferedTime (trailing length : UInt8) : Buffered SqlTime := do
  let scale ← bufferedScale metadata
  if length < trailing then
    throw (some (.protocolError s!"Invalid {metadata.dataType.name} length: {length}"))
  else do
    let scaled ← bufferedScaledTime (length - trailing)
    pure ⟨scaleTimeValue scaled scale, scale⟩

def bufferedDateTime2 (length : UInt8) : Buffered SqlDateTime2 := do
  let time ← bufferedTime metadata 3 length
  let days ← u24
  pure ⟨days.val, time⟩

def bufferedDateTimeOffset (length : UInt8) : Buffered SqlDateTimeOffset := do
  let time ← bufferedTime metadata 5 length
  let days ← u24
  let offset ← i16
  pure ⟨⟨days.val, time⟩, offset⟩

/-- Sixteen bytes always are a uuid. -/
def bufferedUuid (length : UInt8) : Buffered Uuid :=
  if length ≠ 16 then
    throw (some (.protocolError s!"Invalid GUID length: expected 16 bytes, got {length}"))
  else do
    let bytes ← takeSlice 16
    liftBuffered (Uuid.fromSliceLe bytes)

def bufferedMagnitude (length precision scale : UInt8) : Buffered DecimalParts := do
  let sign ← byte
  let magnitudeLen := (length - 1).toNat
  let numberOfIntParts := (magnitudeLen + 3) / 4
  if numberOfIntParts > 4 then
    throw (some (.protocolError
      (s!"Decimal int parts {numberOfIntParts} exceeds maximum allowed " ++
      s!"4 (length was {length})")))
  else do
    let source ← takeSlice magnitudeLen
    pure ⟨sign == 1, scale, precision, BitVec.ofNat 128 (ofLe source)⟩

/-- A decimal, or `none` for `NULL`. -/
def bufferedDecimal : Buffered (Option DecimalParts) := do
  let length ← byte
  match metadata.typeInfo.typeInfoVariant with
  | .varLenPrecisionScale _ _ precision scale =>
    if !decimalMetadataIsValid precision scale then
      throw (some (.protocolError s!"Invalid decimal precision {precision} / scale {scale}"))
    else if length = 0 then pure none
    else some <$> bufferedMagnitude length precision scale
  | variant => throw (some (.protocolError
      ("Invalid type info variant for Decimal/Numeric: expected VarLenPrecisionScale, got: " ++
        variant.debug)))

/-- A value behind its length in one byte; a zero length is `NULL`. -/
def bufferedByteLen {α : Type} (null : α) (value : UInt8 → Buffered α) : Buffered α := do
  let length ← byte
  if length = 0 then pure null else value length

/-- A value behind its length in two bytes; `0xFFFF` is `NULL`. -/
def bufferedUshortLen {α : Type} (null : α) (value : List UInt8 → Buffered α) : Buffered α := do
  let length ← u16
  if length = 0xFFFF then pure null
  else do
    let bytes ← takeSlice length.toNat
    value bytes

/-- Left to the awaiting decoder. -/
def requiresAsync : Bool := metadata.isPlp || metadata.cryptoMetadata.isSome

/-! ### Values -/

/-- The decoder behind `tryDecodeBuffered`. -/
def bufferedValue : Buffered ColumnValues :=
  if requiresAsync metadata then throw none
  else match metadata.dataType with
    | .int1 => .tinyInt <$> byte
    | .int2 => .smallInt <$> i16
    | .int4 => .int <$> i32
    | .int8 => .bigInt <$> i64
    | .flt4 => .real <$> f32
    | .flt8 => .float <$> f64
    | .bit => (fun value => .bit (value == 1)) <$> byte
    | .intN => do
      let length ← byte
      match length with
      | 0 => pure .null
      | 1 => .tinyInt <$> byte
      | 2 => .smallInt <$> i16
      | 4 => .int <$> i32
      | 8 => .bigInt <$> i64
      | _ => throw (some (.protocolError s!"Invalid IntN length: {length}"))
    | .fltN => bufferedByteLen .null fun length =>
        if length = 4 then .real <$> f32 else .float <$> f64
    | .bitN => bufferedByteLen .null fun _ => (fun value => .bit (value == 1)) <$> byte
    | .money4 => (fun intVal => .smallMoney ⟨intVal⟩) <$> i32
    | .money => .money <$> bufferedMoney
    | .moneyN => do
      let length ← byte
      match length with
      | 0 => pure .null
      | 4 => (fun intVal => .smallMoney ⟨intVal⟩) <$> i32
      | 8 => .money <$> bufferedMoney
      | _ => throw (some (.protocolError s!"Invalid MoneyN length: {length}"))
    | .dateTim4 => .smallDateTime <$> bufferedSmallDateTime
    | .dateTime => .dateTime <$> bufferedDateTime
    | .dateTimeN => bufferedByteLen .null fun length =>
        if length = 4 then .smallDateTime <$> bufferedSmallDateTime
        else .dateTime <$> bufferedDateTime
    | .dateN => bufferedByteLen .null fun _ => .date <$> bufferedDate
    | .timeN => bufferedByteLen .null fun length => .time <$> bufferedTime metadata 0 length
    | .dateTime2N => bufferedByteLen .null fun length =>
        .dateTime2 <$> bufferedDateTime2 metadata length
    | .dateTimeOffsetN => bufferedByteLen .null fun length =>
        .dateTimeOffset <$> bufferedDateTimeOffset metadata length
    | .guid => bufferedByteLen .null fun length => .uuid <$> bufferedUuid length
    | .decimalN => decimalValue .decimal <$> bufferedDecimal metadata
    | .numericN => decimalValue .numeric <$> bufferedDecimal metadata
    | .nChar | .nVarChar | .bigChar | .bigVarChar | .char | .varChar =>
      bufferedUshortLen .null fun bytes =>
        (fun encoding => .string (.new bytes encoding)) <$> liftBuffered metadata.getEncodingType
    | .bigBinary | .bigVarBinary => bufferedUshortLen .null fun bytes => pure (.bytes bytes)
    | _ => throw none

/-- Decode one complete value that is not partially length-prefixed, with the number of bytes it
takes. -/
def tryDecodeBuffered (bytes : List UInt8) : TdsResult (Option (ColumnValues × ℕ)) :=
  (bufferedValue metadata).run bytes

/-! ### Variants -/

/-- Encoding of a buffered variant's string. -/
def bufferedVariantEncoding (base : TdsDataType) (collationBytes : List UInt8) :
    TdsResult EncodingType :=
  if base = .nVarChar ∨ base = .nChar then .ok .utf16
  else do
    let collation ← SqlCollation.tryFrom collationBytes
    pure (if collation.utf8 then .utf8 else .lcidBased collation)

/-- Only fixed-length and character base types are decoded here. -/
def bufferedVariantValue (base : TdsDataType) (propertyBytes : UInt8) (dataLength : ℕ) :
    Buffered ColumnValues :=
  match propertyBytes with
  | 0 =>
    match (TypesIn.tryFrom base : TdsResult FixedLengthTypes) with
    | .ok fixedType => .taking dataLength (bufferedValue (fixedMetadata fixedType dataLength))
    | .error _ => throw none
  | 7 =>
    if isVariantString base then do
      let collationBytes ← takeSlice 5
      let _ ← u16
      let valueBytes ← takeSlice dataLength
      let encoding ← liftBuffered (bufferedVariantEncoding base collationBytes)
      pure (.string (.new valueBytes encoding))
    else throw none
  | _ => throw none

def bufferedVariantPayload (length : UInt32) : Buffered (Option TdsDataType × ColumnValues) := do
  let baseByte ← byte
  let base ← liftBuffered (TdsDataType.tryFrom baseByte)
  let propertyBytes ← byte
  if length.toNat < 2 + propertyBytes.toNat then
    throw (some (.protocolError (s!"SQL_VARIANT data length calculation underflow: " ++
      s!"length={length}, prop_bytes={propertyBytes}")))
  else do
    let value ← bufferedVariantValue base propertyBytes (length.toNat - (2 + propertyBytes.toNat))
    pure (some base, value)

/-- The decoder behind `tryDecodeBufferedVariant`. -/
def bufferedVariant : Buffered (Option TdsDataType × ColumnValues) := do
  let length ← u32
  if length = 0 then pure (none, .null)
  else .exactly length.toNat (bufferedVariantPayload length)

/-- Decode a complete `sql_variant`, with its base type. -/
def tryDecodeBufferedVariant (bytes : List UInt8) :
    TdsResult (Option ((Option TdsDataType × ColumnValues) × ℕ)) :=
  bufferedVariant.run bytes

/-! ### Values for a writer -/

variable (col : ℕ)

/-- The decoder behind `tryDecodeBufferedInto`. -/
def bufferedInto : Buffered (List RowCall) :=
  if requiresAsync metadata then throw none
  else match metadata.dataType with
    | .int1 => wrote (writeU8 col) byte
    | .int2 => wrote (writeI16 col) i16
    | .int4 => wrote (writeI32 col) i32
    | .int8 => wrote (writeI64 col) i64
    | .flt4 => wrote (writeF32 col) f32
    | .flt8 => wrote (writeF64 col) f64
    | .bit => wrote (fun value => writeBool col (value == 1)) byte
    | .intN => do
      let length ← byte
      match length with
      | 0 => pure [writeNull col]
      | 1 => wrote (writeU8 col) byte
      | 2 => wrote (writeI16 col) i16
      | 4 => wrote (writeI32 col) i32
      | 8 => wrote (writeI64 col) i64
      | _ => throw (some (.protocolError s!"Invalid IntN length: {length}"))
    | .fltN => bufferedByteLen [writeNull col] fun length =>
        if length = 4 then wrote (writeF32 col) f32 else wrote (writeF64 col) f64
    | .bitN => bufferedByteLen [writeNull col] fun _ =>
        wrote (fun value => writeBool col (value == 1)) byte
    | .money4 => wrote (fun intVal => writeSmallmoney col ⟨intVal⟩) i32
    | .money => wrote (writeMoney col) bufferedMoney
    | .moneyN => do
      let length ← byte
      match length with
      | 0 => pure [writeNull col]
      | 4 => wrote (fun intVal => writeSmallmoney col ⟨intVal⟩) i32
      | 8 => wrote (writeMoney col) bufferedMoney
      | _ => throw (some (.protocolError s!"Invalid MoneyN length: {length}"))
    | .dateTim4 => wrote (writeSmalldatetime col) bufferedSmallDateTime
    | .dateTime => wrote (writeDatetime col) bufferedDateTime
    | .dateTimeN => bufferedByteLen [writeNull col] fun length =>
        if length = 4 then wrote (writeSmalldatetime col) bufferedSmallDateTime
        else wrote (writeDatetime col) bufferedDateTime
    | .dateN => bufferedByteLen [writeNull col] fun _ => wrote (writeDate col) bufferedDate
    | .timeN => bufferedByteLen [writeNull col] fun length =>
        wrote (writeTime col) (bufferedTime metadata 0 length)
    | .dateTime2N => bufferedByteLen [writeNull col] fun length =>
        wrote (writeDatetime2 col) (bufferedDateTime2 metadata length)
    | .dateTimeOffsetN => bufferedByteLen [writeNull col] fun length =>
        wrote (writeDatetimeoffset col) (bufferedDateTimeOffset metadata length)
    | .guid => bufferedByteLen [writeNull col] fun length =>
        wrote (writeUuid col) (bufferedUuid length)
    | .decimalN => wrote (decimalCall col (writeDecimal col)) (bufferedDecimal metadata)
    | .numericN => wrote (decimalCall col (writeNumeric col)) (bufferedDecimal metadata)
    | .nChar | .nVarChar | .bigChar | .bigVarChar | .char | .varChar =>
      bufferedUshortLen [writeNull col] fun bytes =>
        wrote (writeString col bytes) (liftBuffered metadata.getEncodingType)
    | .bigBinary | .bigVarBinary =>
      bufferedUshortLen [writeNull col] fun bytes => pure [writeBytes col bytes]
    | .ssVariant => writeVariant col <$> bufferedVariant
    | _ => wrote (writeColumnValue col) (bufferedValue metadata)

/-- Decode one complete value into a writer. -/
def tryDecodeBufferedInto (bytes : List UInt8) : TdsResult (Option (List RowCall × ℕ)) :=
  (bufferedInto metadata col).run bytes

end

end GenericDecoder

end MssqlTds
