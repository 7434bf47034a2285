import MssqlTds.Datatypes.SqlTypes

/-!
# RPC parameters

A parameter goes out as its name (empty when it is bound by position), a status byte, and its type
description and value.  The value of a streamed parameter follows later in chunks, and an encrypted
parameter carries its ciphertext and the metadata of the key instead of the value.

`inlineValue` picks the parameters that a batched execution may write straight into the packet.
-/

namespace MssqlTds

open Bytes Unicode PacketWriter TdsValueSerializer

/-! ### Inline values -/

/-- A value that can be written without looking at the packet's end. -/
inductive RpcInlineValue where
  | int (v : Option Int32)
  | bigInt (v : Option Int64)
  | nVarchar (maxBytes : UInt16) (value : Option (List UInt8))

namespace RpcInlineValue

def encodedLen : RpcInlineValue → ℕ
  | int v => 2 + v.elim 1 fun _ => 5
  | bigInt v => 2 + v.elim 1 fun _ => 9
  | nVarchar _ value => 8 + 2 + value.elim 0 List.length

/-- Write type description and value into the packet. -/
def write (dbCollation : SqlCollation) : RpcInlineValue → WriterM Unit
  | int v => do
    writeUnchecked [TdsDataType.intN.code, 4]
    match v with
    | some v => writeUnchecked (4 :: leBytes 4 v.toUInt32.toNat)
    | none => writeUnchecked [nullLength]
  | bigInt v => do
    writeUnchecked [TdsDataType.intN.code, 8]
    match v with
    | some v => writeUnchecked (8 :: leBytes 8 v.toUInt64.toNat)
    | none => writeUnchecked [nullLength]
  | nVarchar maxBytes value => do
    writeUnchecked (SqlType.collatedTypeInfoBytes TdsDataType.nVarChar.code maxBytes dbCollation)
    match value with
    | some bytes =>
      writeUnchecked (leBytes 2 (UInt16.ofNat bytes.length).toNat)
      writeUnchecked bytes
    | none => writeUnchecked (leBytes 2 varNull.toNat)

end RpcInlineValue

/-- The bytes of a wide string, if they can be sent as they are to a type of `maxBytes`. -/
def inlineStringBytes (maxBytes : UInt16) (value : SqlString) : Option (List UInt8) := do
  let bytes ← value.asUtf16Bytes <|> value.asRawWireBytes
  if bytes.length % 2 ≠ 0 || bytes.length > maxBytes.toNat then none else some bytes

/-- The inline form of a value whose serialization cannot fail. -/
def SqlType.rpcInline : SqlType → Option RpcInlineValue
  | .int v => some (.int v)
  | .bigInt v => some (.bigInt v)
  | .nVarchar value chars => do
    let maxBytes ← nvarcharInlineMaxBytes chars
    match value with
    | some value =>
      let bytes ← inlineStringBytes maxBytes value
      pure (.nVarchar maxBytes (some bytes))
    | none => pure (.nVarchar maxBytes none)
  | _ => none

/-! ### Parameters -/

inductive StreamedSqlType where
  | nVarcharMax
  | varcharMax
  | varBinaryMax
  | xml
  | udt (typeName : UdtTypeName)
  deriving DecidableEq, Repr

namespace StreamedSqlType

def asSqlType : StreamedSqlType → SqlType
  | nVarcharMax => .nVarcharMax none
  | varcharMax => .varcharMax none
  | varBinaryMax => .varBinaryMax none
  | xml => .xml none
  | udt typeName => .udt typeName none

def validate : StreamedSqlType → TdsResult Unit
  | udt typeName => typeName.validate
  | _ => .ok ()

end StreamedSqlType

inductive RpcValue where
  | materialized (value : SqlType)
  | streamed (sqlType : StreamedSqlType)

structure RpcEncryptionMetadata where
  cipherAlgorithmId : UInt8
  encryptionType : UInt8
  databaseId : Int32
  cekId : Int32
  cekVersion : Int32
  cekMdVersion : Vector UInt8 8
  normalizationRuleVersion : UInt8

/-- The ciphertext of a parameter, or an encrypted `NULL`. -/
structure EncryptedRpcValue where
  ciphertext : Option (List UInt8)
  metadata : RpcEncryptionMetadata
  hadConversionLoss : Bool

structure RpcParameter where
  name : Option (List Char)
  /-- Status flags: by reference, default, encrypted. -/
  options : UInt8
  value : RpcValue
  typeMetadata : Option SqlType.RpcTypeMetadata
  narrowStringByteLimit : Option ℕ
  encrypted : Option EncryptedRpcValue
  /-- The caller wants an error rather than the value sent in the clear. -/
  forceColumnEncryption : Bool

/-- The status flag of a parameter passed by reference. -/
def statusByRefValue : UInt8 := 0x01

def statusEncrypted : UInt8 := 0x08

/-- Longest ciphertext that is sent in one piece. -/
def shortVartypeMaxBytes : ℕ := 8000

def writeEncryptedValue (value : Option (List UInt8)) : WriterM Unit := do
  let len := (value.getD []).length
  let isShort := len ≤ shortVartypeMaxBytes
  writeU16Async (if isShort then UInt16.ofNat shortVartypeMaxBytes else 0xFFFF)
  match value with
  | none => writeI16Async (-1)
  | some bytes =>
    if isShort then
      writeU16Async (UInt16.ofNat len)
      if len > 0 then writeAsync bytes else pure ()
    else if len > 0xFFFFFFFF then
      throw (.columnEncryptionError
        (s!"encrypted value length {len} exceeds the maximum PLP chunk size " ++
          s!"({(0xFFFFFFFF : ℕ)})"))
    else
      writeU64Async (UInt64.ofNat len)
      writeU32Async (UInt32.ofNat len)
      writeAsync bytes
      writeU32Async 0

def writeCryptoMetadata (metadata : RpcEncryptionMetadata) : WriterM Unit := do
  writeByteAsync metadata.cipherAlgorithmId
  writeByteAsync metadata.encryptionType
  writeI32Async metadata.databaseId
  writeI32Async metadata.cekId
  writeI32Async metadata.cekVersion
  writeAsync metadata.cekMdVersion.toList
  writeByteAsync metadata.normalizationRuleVersion

/-- Longest parameter name, in bytes of its UTF-8 form. -/
def validateNameLength (name : List Char) : TdsResult Unit :=
  if (asBytes name).length > 0xFF then
    .error (.usageError "Parameter name is too long. Maximum length is 255 characters.")
  else .ok ()

namespace RpcParameter

variable (p : RpcParameter)

def new (name : Option (List Char)) (options : UInt8) (value : SqlType) : RpcParameter :=
  ⟨name, options, .materialized value, none, none, none, false⟩

/-- A parameter whose value is supplied at execution. -/
def dataAtExec (name : Option (List Char)) (options : UInt8) (sqlType : StreamedSqlType) :
    RpcParameter :=
  ⟨name, options, .streamed sqlType, none, none, none, false⟩

def validateBeforeSend (cs : Codecs) (dbCollation : SqlCollation) : TdsResult Unit :=
  match p.value with
  | .materialized value => value.validateForSend cs dbCollation p.narrowStringByteLimit
  | .streamed sqlType => sqlType.validate

def validateNamedBeforeSend (cs : Codecs) (dbCollation : SqlCollation) : TdsResult Unit := do
  match p.name with
  | some name => validateNameLength name
  | none => pure ()
  p.validateBeforeSend cs dbCollation

/-- The inline form of a parameter that is neither streamed nor encrypted. -/
def inlineValue : Option RpcInlineValue :=
  match p.value, p.encrypted with
  | .materialized value, none => value.rpcInline
  | _, _ => none

def positionalInlineLen : Option ℕ := p.inlineValue.map (2 + ·.encodedLen)

def writePositionalInline (dbCollation : SqlCollation) : WriterM Unit :=
  match p.inlineValue with
  | some value => do
    writeUnchecked [0, p.options]
    value.write dbCollation
  | none => pure ()

/-- The type of the plaintext; a `bit` keeps its own type under encryption. -/
def writeEncryptedBaseType (cs : Codecs) (dbCollation : SqlCollation) : WriterM Unit :=
  match p.value with
  | .materialized (.bit _) => do
    writeByteAsync TdsDataType.bitN.code
    writeByteAsync 1
  | .materialized value => value.writeTypeInfo cs dbCollation none none
  | .streamed _ => throw (.usageError
      "Data-at-execution parameters are only supported via begin_sp_executesql.")

def writeEncrypted (cs : Codecs) (dbCollation : SqlCollation) (encrypted : EncryptedRpcValue) :
    WriterM Unit := do
  writeByteAsync (p.options ||| statusEncrypted)
  writeByteAsync TdsDataType.bigVarBinary.code
  writeEncryptedValue encrypted.ciphertext
  p.writeEncryptedBaseType cs dbCollation
  writeCryptoMetadata encrypted.metadata
  if encrypted.hadConversionLoss then noteCodePageConversionLoss else pure ()

/-- An output parameter, or one passed both ways. -/
def isOutput : Bool := p.options &&& statusByRefValue = statusByRefValue

/-- The value to encrypt, and whether it lost characters: a narrow string is converted to the
encoding it would be sent in. -/
def valueForEncryption (cs : Codecs) (dbCollation : SqlCollation) : TdsResult (SqlType × Bool) :=
  match p.value with
  | .streamed _ => .error (.usageError
      "Data-at-execution parameters are only supported via begin_sp_executesql.")
  | .materialized value => match value with
    | .char (some s) length => fitted value s fun s => .char (some s) length
    | .varchar (some s) length => fitted value s fun s => .varchar (some s) length
    | .varcharMax (some s) => fitted value s fun s => .varcharMax (some s)
    | .text (some s) => fitted value s fun s => .text (some s)
    | value => .ok (value, false)
where
  fitted (value : SqlType) (s : SqlString) (fit : SqlString → SqlType) :
      TdsResult (SqlType × Bool) := do
    let (column, ctx) := value.toColumnValueAndContext dbCollation
    match ← SqlType.narrowStringBytes cs column ctx p.narrowStringByteLimit with
    | none => pure (value, false)
    | some (bytes, hadLoss) =>
      -- bytes that are sent as they are and that all fit
      if s.asRawWireBytes.isSome ∧ bytes.length = s.bytes.length then pure (value, hadLoss)
      else pure (fit ⟨bytes, .lcidBased dbCollation, none⟩, hadLoss)

/-- A positional parameter whose status byte is written together with its empty name. -/
def optionsWritten (isPositional : Bool) : Bool :=
  match p.value, p.encrypted with
  | .materialized _, none => isPositional
  | _, _ => false

/-- The name, which a positional parameter leaves empty. -/
def writeName (isPositional : Bool) : WriterM Unit :=
  if isPositional then
    if p.optionsWritten isPositional then writeFixedBytes [0, p.options] else writeByteAsync 0
  else match p.name with
    | some name => do
      liftResult (validateNameLength name)
      writeByteAsync (UInt8.ofNat (asBytes name).length)
      writeStringUnicodeAsync name
    | none => throw (.panic
        "Parameter name is None for a non-positional parameter. Unexpected implemetation path")

/-- Write a parameter; of a streamed one, everything up to the value. -/
def serialize (cs : Codecs) (serializeTable : TvpTypeName → Option TvpTableData → WriterM Unit)
    (dbCollation : SqlCollation) (isPositional : Bool) : WriterM Unit := do
  p.writeName isPositional
  match p.value, p.encrypted with
  | .streamed _, some _ =>
    throw (.usageError "Encrypted parameters cannot be streamed incrementally.")
  | .streamed sqlType, none =>
    writeByteAsync p.options
    sqlType.asSqlType.writeTypeInfo cs dbCollation none none
  | .materialized _, some encrypted => p.writeEncrypted cs dbCollation encrypted
  | .materialized value, none =>
    (if p.optionsWritten isPositional then pure () else writeByteAsync p.options)
    value.serializeWithNarrowStringByteLimit cs serializeTable dbCollation p.typeMetadata
      p.narrowStringByteLimit

end RpcParameter

end MssqlTds
