import MssqlTds.Datatypes.Decoder

/-!
# Decoding into a row writer

A row writer receives the values of a row as they are decoded, through one method for each kind of
value.  A call is modelled by the column and the value it carries; before the value of a
`sql_variant` the writer is also told its base type.  Writers that supply their own storage for
large values are not modelled: the value reaches them by the same bytes.

`decodeInto` decodes a column straight into calls.  `decodeInto_eq` says that they carry the value
`decode` returns.
-/

namespace MssqlTds

open Reader

inductive RowCall where
  /-- The method for the kind of the value, with the value. -/
  | value (col : ℕ) (v : ColumnValues)
  | variantBaseType (col : ℕ) (base : TdsDataType)
  deriving DecidableEq, Repr

namespace RowCall

variable (col : ℕ)

def writeNull : RowCall := value col .null

def writeBool (v : Bool) : RowCall := value col (.bit v)

def writeU8 (v : UInt8) : RowCall := value col (.tinyInt v)

def writeI16 (v : Int16) : RowCall := value col (.smallInt v)

def writeI32 (v : Int32) : RowCall := value col (.int v)

def writeI64 (v : Int64) : RowCall := value col (.bigInt v)

def writeF32 (bits : UInt32) : RowCall := value col (.real bits)

def writeF64 (bits : UInt64) : RowCall := value col (.float bits)

def writeString (bytes : List UInt8) (encodingType : EncodingType) : RowCall :=
  value col (.string (.new bytes encodingType))

def writeBytes (bytes : List UInt8) : RowCall := value col (.bytes bytes)

def writeDecimal (v : DecimalParts) : RowCall := value col (.decimal v)

def writeNumeric (v : DecimalParts) : RowCall := value col (.numeric v)

def writeDate (v : SqlDate) : RowCall := value col (.date v)

def writeTime (v : SqlTime) : RowCall := value col (.time v)

def writeDatetime (v : SqlDateTime) : RowCall := value col (.dateTime v)

def writeSmalldatetime (v : SqlSmallDateTime) : RowCall := value col (.smallDateTime v)

def writeDatetime2 (v : SqlDateTime2) : RowCall := value col (.dateTime2 v)

def writeDatetimeoffset (v : SqlDateTimeOffset) : RowCall := value col (.dateTimeOffset v)

def writeMoney (v : SqlMoney) : RowCall := value col (.money v)

def writeSmallmoney (v : SqlSmallMoney) : RowCall := value col (.smallMoney v)

def writeUuid (v : Uuid) : RowCall := value col (.uuid v)

/-- Forward a value that is already decoded; a string loses its byte limit. -/
def writeColumnValue : ColumnValues → RowCall
  | .string s => writeString col s.bytes s.encodingType
  | v => value col v

/-- The calls for a `sql_variant`, which has no base type if it is `NULL`. -/
def writeVariant : Option TdsDataType × ColumnValues → List RowCall
  | (some base, v) => [variantBaseType col base, writeColumnValue col v]
  | (none, v) => [writeColumnValue col v]

end RowCall

open RowCall

/-- Read a value and hand it to the writer. -/
def wrote {ε α : Type} (write : α → RowCall) (m : Reader ε α) : Reader ε (List RowCall) :=
  (fun v => [write v]) <$> m

section

variable (metadata : ColumnMetadata) (col : ℕ)

/-- A partially length-prefixed value. -/
def decodePlpInto (write : List UInt8 → RowCall) : TdsReader (List RowCall) := do
  match ← GenericDecoder.readPlpFraming with
  | .null => pure [writeNull col]
  | .known length => wrote write (GenericDecoder.readPlpChunksIntoSlice length)
  | .unknown => wrote write GenericDecoder.readPlpChunksUnknownLen

/-- A binary value behind its length in two bytes. -/
def decodeBinaryInto (what : String) : TdsReader (List RowCall) := do
  let length ← readUint16
  if length = 0xFFFF then pure [writeNull col]
  else if length.toNat > maxAllocSize then
    throw (.protocolError (s!"{what} length {length} exceeds maximum allowed size of " ++
      s!"{maxAllocSize} bytes"))
  else wrote (writeBytes col) (readBytes length.toNat)

def StringDecoder.decodeStringInto : TdsReader (List RowCall) := do
  let encodingType ← liftReader metadata.getEncodingType
  let write (bytes : List UInt8) : RowCall := writeString col bytes encodingType
  if metadata.isPlp then decodePlpInto col write
  else if isLongLenType metadata.dataType then do
    let textPtrLen ← readByte
    if textPtrLen = 0 then pure [writeNull col]
    else do
      skipBytes textPtrLen.toNat
      skipBytes 8
      let length ← readUint32
      if length.toNat > maxAllocSize then
        throw (.protocolError (s!"Text data length {length} exceeds maximum allowed size of " ++
          s!"{maxAllocSize} bytes"))
      else wrote write (readBytes length.toNat)
  else do
    let length ← readUint16
    if length = 0xFFFF then pure [writeNull col] else wrote write (readBytes length.toNat)

namespace GenericDecoder

/-- A nullable temporal value. -/
def decodeTemporalInto {α : Type} (write : α → RowCall) (read : UInt8 → UInt8 → TdsReader α) :
    TdsReader (List RowCall) := do
  let length ← readByte
  if length = 0 then pure [writeNull col]
  else do
    let scale ← requireScale metadata
    wrote write (read length scale)

def decimalCall (write : DecimalParts → RowCall) : Option DecimalParts → RowCall
  | some val => write val
  | none => writeNull col

/-- Decode a value of a column into a writer. -/
def decodeInto (cs : Codecs) : TdsReader (List RowCall) :=
  match metadata.dataType with
  | .int1 => wrote (writeU8 col) readByte
  | .int2 => wrote (writeI16 col) readInt16
  | .int4 => wrote (writeI32 col) readInt32
  | .int8 => wrote (writeI64 col) readInt64
  | .intN => do
    let byteLen ← readByte
    match byteLen with
    | 1 => wrote (writeU8 col) readByte
    | 2 => wrote (writeI16 col) readInt16
    | 4 => wrote (writeI32 col) readInt32
    | 8 => wrote (writeI64 col) readInt64
    | 0 => pure [writeNull col]
    | _ => throw (.io "Invalid IntN length")
  | .flt4 => wrote (writeF32 col) readFloat32
  | .flt8 => wrote (writeF64 col) readFloat64
  | .fltN => do
    let length ← readByte
    if length = 0 then pure [writeNull col]
    else if length = 4 then wrote (writeF32 col) readFloat32
    else wrote (writeF64 col) readFloat64
  | .bit => wrote (fun v => writeBool col (v == 1)) readByte
  | .bitN => do
    let byteLen ← readByte
    if byteLen > 0 then wrote (fun v => writeBool col (v == 1)) readByte else pure [writeNull col]
  | .money4 => wrote (writeSmallmoney col) readMoney4
  | .money => wrote (writeMoney col) readMoney8
  | .moneyN => do
    let byteLen ← readByte
    match byteLen with
    | 4 => wrote (writeSmallmoney col) readMoney4
    | 8 => wrote (writeMoney col) readMoney8
    | 0 => pure [writeNull col]
    | _ => throw (.protocolError s!"Invalid MoneyN length - {byteLen}")
  | .decimalN => wrote (decimalCall col (writeDecimal col)) (readDecimal metadata)
  | .numericN => wrote (decimalCall col (writeNumeric col)) (readDecimal metadata)
  | .nChar | .nVarChar | .bigChar | .bigVarChar | .char | .varChar | .nText | .text =>
    StringDecoder.decodeStringInto metadata col
  | .bigBinary => decodeBinaryInto col "BigBinary"
  | .bigVarBinary =>
    if metadata.isPlp then decodePlpInto col (writeBytes col)
    else decodeBinaryInto col "BigVarBinary"
  | .dateTime => wrote (writeDatetime col) readDatetime
  | .dateTim4 => wrote (writeSmalldatetime col) readSmallDatetime
  | .dateTimeN => do
    let length ← readByte
    if length = 0 then pure [writeNull col]
    else if length = 4 then wrote (writeSmalldatetime col) readSmallDatetime
    else wrote (writeDatetime col) readDatetime
  | .dateN => do
    let length ← readByte
    if length = 0 then pure [writeNull col] else wrote (writeDate col) readDate
  | .timeN => decodeTemporalInto metadata col (writeTime col) readTime
  | .dateTime2N => decodeTemporalInto metadata col (writeDatetime2 col) readDatetime2
  | .dateTimeOffsetN => decodeTemporalInto metadata col (writeDatetimeoffset col) readDatetimeOffset
  | .guid => do
    let length ← readByte
    if length = 0 then pure [writeNull col]
    else if length ≠ 16 then
      throw (.protocolError s!"Invalid GUID length: expected 16 bytes, got {length}")
    else do
      let bytes ← readBytes 16
      let uuid ← liftReader (Uuid.fromSliceLe bytes)
      pure [writeUuid col uuid]
  | .ssVariant => writeVariant col <$> readSqlVariantWithBase cs
  | _ => wrote (writeColumnValue col) (decode cs metadata)

/-! ### The calls carry the decoded value -/

def valueCalls (v : ColumnValues) : List RowCall := [writeColumnValue col v]

variable {metadata col}

theorem wrote_eq {ε α : Type} {write : α → RowCall} {wrap : α → ColumnValues} (m : Reader ε α)
    (h : ∀ a, write a = writeColumnValue col (wrap a)) :
    wrote write m = valueCalls col <$> (wrap <$> m) := by
  rw [Functor.map_map]
  exact congrArg (· <$> m) (funext fun a => congrArg (fun call => [call]) (h a))

/-- The same where the reader wraps the value in a last step. -/
theorem wrote_bind_eq {α : Type} {write : α → RowCall} {wrap : α → ColumnValues} (m : TdsReader α)
    (h : ∀ a, write a = writeColumnValue col (wrap a)) :
    wrote write m = valueCalls col <$> (m >>= fun a => pure (wrap a)) := by
  rw [wrote_eq m h, bind_pure_comp]

theorem decodePlpInto_eq {write : List UInt8 → RowCall} {wrap : List UInt8 → ColumnValues}
    (h : ∀ bytes, write bytes = writeColumnValue col (wrap bytes)) :
    decodePlpInto col write = valueCalls col <$> plpValue wrap := by
  simp only [decodePlpInto, plpValue, readPlpBytes, map_bind, bind_assoc]
  congr 1
  funext framing
  cases framing with
  | null => rfl
  | known length => simp [wrote_eq _ h]
  | unknown => simp [wrote_eq _ h]

theorem decodeBinaryInto_eq (what : String) :
    decodeBinaryInto col what = valueCalls col <$> readUshortLen what .bytes := by
  simp only [decodeBinaryInto, readUshortLen, map_bind]
  congr 1
  funext length
  split
  · rfl
  split
  · rfl
  · exact wrote_bind_eq _ fun _ => rfl

theorem decodeStringInto_eq :
    StringDecoder.decodeStringInto metadata col =
      valueCalls col <$> StringDecoder.decode metadata := by
  simp only [StringDecoder.decodeStringInto, StringDecoder.decode, map_bind]
  congr 1
  funext encodingType
  split
  · exact decodePlpInto_eq fun _ => rfl
  split
  · simp only [readLongLen, map_bind]
    congr 1
    funext textPtrLen
    split
    · rfl
    · simp only [map_bind]
      congr 1; funext _; congr 1; funext _; congr 1; funext length
      split
      · rfl
      · exact wrote_bind_eq _ fun _ => rfl
  · simp only [map_bind]
    congr 1
    funext length
    split
    · rfl
    · exact wrote_bind_eq _ fun _ => rfl

theorem decodeTemporalInto_eq {α : Type} {write : α → RowCall} {wrap : α → ColumnValues}
    {read : UInt8 → UInt8 → TdsReader α} (h : ∀ a, write a = writeColumnValue col (wrap a)) :
    decodeTemporalInto metadata col write read =
      valueCalls col <$> decodeTemporal metadata fun length scale =>
        wrap <$> read length scale := by
  simp only [decodeTemporalInto, decodeTemporal, map_bind]
  congr 1
  funext length
  split
  · rfl
  · simp only [map_bind, wrote_eq _ h]

/-- The two decoders go on in the same way after the length byte. -/
theorem lengthByte_eq {f : UInt8 → TdsReader (List RowCall)} {g : UInt8 → TdsReader ColumnValues}
    (h : ∀ length, f length = valueCalls col <$> g length) :
    (readByte >>= f) = valueCalls col <$> (readByte >>= g) := by
  rw [map_bind]
  exact congrArg _ (funext h)

theorem decimalCall_eq {write : DecimalParts → RowCall} {wrap : DecimalParts → ColumnValues}
    (h : ∀ a, write a = writeColumnValue col (wrap a)) (v : Option DecimalParts) :
    decimalCall col write v = writeColumnValue col (decimalValue wrap v) := by
  cases v with
  | none => rfl
  | some v => exact h v

/-- **What `decodeInto` writes is what `decode` returns.**  The two are separate matches over the
wire type; a variant is left to `readSqlVariantWithBase` by both. -/
theorem decodeInto_eq {cs : Codecs} (h : metadata.dataType ≠ .ssVariant) :
    decodeInto metadata col cs = valueCalls col <$> decode cs metadata := by
  unfold decodeInto decode decodeWith
  cases ht : metadata.dataType
  case ssVariant => exact absurd ht h
  case intN =>
    refine lengthByte_eq fun length => ?_
    unfold readIntn
    by_cases h1 : length = 1
    · subst h1
      exact wrote_eq _ fun _ => rfl
    by_cases h2 : length = 2
    · subst h2
      exact wrote_eq _ fun _ => rfl
    by_cases h4 : length = 4
    · subst h4
      exact wrote_eq _ fun _ => rfl
    by_cases h8 : length = 8
    · subst h8
      exact wrote_eq _ fun _ => rfl
    by_cases h0 : length = 0
    · subst h0
      rfl
    simp only
    rfl
  case moneyN =>
    refine lengthByte_eq fun length => ?_
    by_cases h4 : length = 4
    · subst h4
      exact wrote_eq _ fun _ => rfl
    by_cases h8 : length = 8
    · subst h8
      exact wrote_eq _ fun _ => rfl
    by_cases h0 : length = 0
    · subst h0
      rfl
    simp only
    rfl
  case fltN | dateTimeN =>
    refine lengthByte_eq fun length => ?_
    split
    · rfl
    split <;> exact wrote_eq _ fun _ => rfl
  case bitN =>
    refine lengthByte_eq fun length => ?_
    split
    · exact wrote_eq _ fun _ => rfl
    · rfl
  case dateN =>
    refine lengthByte_eq fun length => ?_
    unfold readDaten
    split
    · rfl
    · exact wrote_eq _ fun _ => rfl
  case guid =>
    refine lengthByte_eq fun length => ?_
    unfold readGuid
    by_cases h0 : length = 0
    · subst h0
      rfl
    rw [if_neg h0, if_pos (UInt8.pos_iff_ne_zero.mpr h0)]
    by_cases h16 : length = 16
    · subst h16
      simp only [ne_eq, not_true_eq_false, if_false, map_bind]
      rfl
    · rw [if_pos h16, if_pos h16]
      rfl
  case decimalN | numericN => exact wrote_eq _ (decimalCall_eq fun _ => rfl)
  case bigVarBinary =>
    dsimp only
    split
    · exact decodePlpInto_eq fun _ => rfl
    · exact decodeBinaryInto_eq _
  case bigBinary => exact decodeBinaryInto_eq _
  case timeN | dateTime2N | dateTimeOffsetN => exact decodeTemporalInto_eq fun _ => rfl
  case nChar | nVarChar | bigChar | bigVarChar | char | varChar | nText | text =>
    exact decodeStringInto_eq
  case int1 | int2 | int4 | int8 | flt4 | flt8 | bit | money4 | money | dateTime | dateTim4 =>
    exact wrote_eq _ fun _ => rfl
  -- the others are decoded first and written afterwards
  all_goals rfl

theorem decodeInto_ssVariant {cs : Codecs} (h : metadata.dataType = .ssVariant) :
    decodeInto metadata col cs = writeVariant col <$> readSqlVariantWithBase cs := by
  unfold decodeInto
  rw [h]

end GenericDecoder

end

end MssqlTds
