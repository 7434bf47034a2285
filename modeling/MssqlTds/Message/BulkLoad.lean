import MssqlTds.Datatypes.SerializerFormat
import MssqlTds.Token.ColMetadata

/-!
# Bulk load metadata

A bulk load starts with a `COLMETADATA` token that describes the destination columns.  When column
encryption is enabled the token has a table of the keys in use: `collectCekTable` gathers them, one
for each identity, and each encrypted column refers to its own by position.

What a reader of the token makes of it is in `Message.BulkLoadMetadata`.
-/

namespace MssqlTds

open Bytes Unicode PacketWriter

/-- How the length of a column is given. -/
inductive TypeLength where
  | fixed (length : Int32)
  | variable (length : Int32)
  /-- Partially length-prefixed. -/
  | plp
  | unknown
  deriving DecidableEq

structure BulkCopyColumnEncryption where
  cryptoMetadata : CryptoMetadata
  cekEntry : CekTableEntry
  deriving DecidableEq

structure BulkCopyColumnMetadata where
  columnName : String
  /-- The type byte. -/
  tdsType : UInt8
  length : Int32
  lengthType : TypeLength
  precision : UInt8
  scale : UInt8
  collation : Option SqlCollation
  isNullable : Bool
  isIdentity : Bool
  encryption : Option BulkCopyColumnEncryption
  deriving DecidableEq

def BulkCopyColumnMetadata.isPlp (column : BulkCopyColumnMetadata) : Bool :=
  column.lengthType == .plp

/-- Two entries describe the same key. -/
def cekEntryMatches (a b : CekTableEntry) : Bool :=
  a.databaseId == b.databaseId && a.cekId == b.cekId && a.cekVersion == b.cekVersion &&
    a.cekMdVersion == b.cekMdVersion

structure StreamingBulkLoadWriter where
  tableName : String
  columnMetadata : List BulkCopyColumnMetadata
  /-- The connection's collation. -/
  defaultCollation : SqlCollation
  columnEncryptionEnabled : Bool
  emittedCekTable : List CekTableEntry

namespace StreamingBulkLoadWriter

variable (self : StreamingBulkLoadWriter)

/-! ### The key table -/

/-- Add a key unless it is there. -/
def addCekEntry (table : List CekTableEntry) (entry : CekTableEntry) : List CekTableEntry :=
  if table.any (cekEntryMatches · entry) then table else table ++ [entry]

/-- The keys the columns use. -/
def collectCekTable : List CekTableEntry :=
  self.columnMetadata.foldl
    (fun table column =>
      match column.encryption with
      | some encryption => addCekEntry table encryption.cekEntry
      | none => table)
    []

/-- The place of a key in the table. -/
def cekTableOrdinalFor (entry : CekTableEntry) : TdsResult UInt16 :=
  match self.emittedCekTable.findIdx? (cekEntryMatches · entry) with
  | some position => .ok (UInt16.ofNat position)
  | none => .error (.columnEncryptionError
      ("bulk copy CEK table has no entry for column key " ++
        s!"(database_id={entry.databaseId}, cek_id={entry.cekId}, " ++
        s!"cek_version={entry.cekVersion})"))

/-- A key by its identity: no wrapped values are sent. -/
def writeCekTableEntry (entry : CekTableEntry) : WriterM Unit := do
  writeI32Async entry.databaseId
  writeI32Async entry.cekId
  writeI32Async entry.cekVersion
  writeAsync entry.cekMdVersion.toList
  writeByteAsync 0x00

def writeCekTable : WriterM Unit := do
  writeU16Async (UInt16.ofNat self.emittedCekTable.length)
  self.emittedCekTable.forM writeCekTableEntry

/-! ### The type before encryption -/

def writeTypeLength (t : VariableLengthTypes) (length : ℕ) : WriterM Unit :=
  match t.getLenByteCount with
  | 1 => writeByteAsync (UInt8.ofNat length)
  | 2 => writeU16Async (UInt16.ofNat length)
  | 4 => writeU32Async (UInt32.ofNat length)
  | other => throw (.protocolError
      s!"Unexpected length byte count {other} for base type {t.val.name}")

def writeCollationBytes : Option SqlCollation → WriterM Unit
  | some collation => do
    writeU32Async collation.info
    writeByteAsync collation.sortId
  | none => writeAsync (List.replicate 5 0)

/-- A text behind a one-byte count of its UTF-16 units. -/
def writeBVarchar (value : String) : WriterM Unit := do
  writeByteAsync (UInt8.ofNat (utf16Units value.toList).length)
  (utf16Units value.toList).forM writeU16Async

/-- What follows the byte of the base type. -/
def writeBaseTypeFields (baseDataType : TdsDataType) (info : TypeInfo) : WriterM Unit :=
  match info.typeInfoVariant with
  | .fixedLen _ => pure ()
  | .varLen t length => if t.val = .dateN then pure () else writeTypeLength t length
  | .varLenScale _ scale => writeByteAsync scale
  | .varLenPrecisionScale t length precision scale => do
    writeTypeLength t length
    writeByteAsync precision
    writeByteAsync scale
  | .varLenString t length collation => do
    writeTypeLength t length
    writeCollationBytes collation
  | .partialLen .. => throw (.columnEncryptionError
      s!"Unsupported PLP base type {baseDataType.name} for an encrypted column")

def writeBaseTypeInfo (baseDataType : TdsDataType) (info : TypeInfo) : WriterM Unit := do
  writeByteAsync baseDataType.code
  writeBaseTypeFields baseDataType info

def writeCryptoMetadataColmetadata (encryption : BulkCopyColumnEncryption) : WriterM Unit := do
  let crypto := encryption.cryptoMetadata
  let ordinal ← liftResult (self.cekTableOrdinalFor encryption.cekEntry)
  writeU16Async ordinal
  writeU32Async 0
  writeBaseTypeInfo crypto.baseDataType crypto.baseTypeInfo
  writeByteAsync crypto.cipherAlgorithmId
  if crypto.cipherAlgorithmId = 0x00 then
    writeBVarchar (crypto.cipherAlgorithmName.getD "")
  writeByteAsync crypto.encryptionType
  writeByteAsync crypto.normalizationRuleVersion

/-! ### Columns -/

/-- A collation, or another in its place. -/
def writeCollationOr (collation : Option SqlCollation) (info : UInt32) (sortId : UInt8) :
    WriterM Unit := do
  writeU32Async ((collation.map (·.info)).getD info)
  writeByteAsync ((collation.map (·.sortId)).getD sortId)

/-- A two-byte length, all ones for a partially length-prefixed column. -/
def writeMaxLength (column : BulkCopyColumnMetadata) : WriterM Unit :=
  if column.isPlp then writeU16Async 0xFFFF
  else writeU16Async column.length.toUInt32.toUInt16

/-- The type bytes of a list of types. -/
def isOneOf (tdsType : UInt8) (types : List TdsDataType) : Bool := types.any (·.code == tdsType)

/-- What follows the type byte of a column. -/
def writeTypeInfoInternal (column : BulkCopyColumnMetadata) : WriterM Unit :=
  if isOneOf column.tdsType [.decimal, .numeric, .decimalN, .numericN] then do
    writeByteAsync column.length.toUInt32.toUInt8
    writeByteAsync column.precision
    writeByteAsync column.scale
  else if isOneOf column.tdsType
      [.int1, .bit, .int2, .int4, .dateTim4, .flt4, .money, .dateTime, .flt8, .int8] then
    pure ()
  else if isOneOf column.tdsType [.intN, .fltN, .bitN, .moneyN, .dateTimeN] then
    writeByteAsync column.length.toUInt32.toUInt8
  else if isOneOf column.tdsType [.varChar, .char, .bigVarChar, .bigChar] then do
    writeMaxLength column
    writeCollationOr column.collation 0x00000409 0
  else if isOneOf column.tdsType [.nChar, .nVarChar] then do
    writeMaxLength column
    writeCollationOr column.collation self.defaultCollation.info self.defaultCollation.sortId
  else if isOneOf column.tdsType [.text, .nText, .image] then do
    writeU32Async 0x7FFFFFFE
    if isOneOf column.tdsType [.text, .nText] then
      writeCollationOr column.collation self.defaultCollation.info self.defaultCollation.sortId
    writeU16Async (UInt16.ofNat (utf16Units self.tableName.toList).length)
    (utf16Units self.tableName.toList).forM writeU16Async
  else if isOneOf column.tdsType [.varBinary, .binary, .bigVarBinary, .bigBinary] then
    writeMaxLength column
  else if isOneOf column.tdsType [.xml, .json] then writeByteAsync 0
  else if isOneOf column.tdsType [.timeN, .dateTime2N, .dateTimeOffsetN] then
    writeByteAsync column.scale
  else if isOneOf column.tdsType [.dateN] then pure ()
  else if isOneOf column.tdsType [.ssVariant] then writeU32Async column.length.toUInt32
  else if isOneOf column.tdsType [.guid] then writeByteAsync 16
  else if isOneOf column.tdsType [.vector] then do
    writeU16Async column.length.toUInt32.toUInt16
    writeByteAsync column.scale
  else throw (.protocolError s!"Unsupported TDS type for bulk copy: 0x{hexByte column.tdsType}")

def columnFlags (column : BulkCopyColumnMetadata) : UInt16 :=
  0x0008 ||| (if column.isNullable then 0x0001 else 0) |||
    (if column.isIdentity then 0x0010 else 0) |||
    (if self.columnEncryptionEnabled && column.encryption.isSome then 0x0800 else 0)

/-- What an encrypted column has behind its type. -/
def writeColumnEncryption (column : BulkCopyColumnMetadata) : WriterM Unit :=
  match self.columnEncryptionEnabled, column.encryption with
  | true, some encryption => self.writeCryptoMetadataColmetadata encryption
  | _, _ => pure ()

def writeColumnDescriptorInternal (column : BulkCopyColumnMetadata) : WriterM Unit := do
  writeU32Async 0
  writeU16Async (self.columnFlags column)
  writeByteAsync column.tdsType
  self.writeTypeInfoInternal column
  self.writeColumnEncryption column
  writeByteAsync (UInt8.ofNat ((utf16Units column.columnName.toList).length % 256))
  (utf16Units column.columnName.toList).forM writeU16Async

/-- The type byte of the token. -/
def tokenColmetadata : UInt8 := 0x81

/-- The whole token. -/
def writeMetadataInternal : WriterM StreamingBulkLoadWriter := do
  writeByteAsync tokenColmetadata
  writeU16Async (UInt16.ofNat self.columnMetadata.length)
  let self := if self.columnEncryptionEnabled then
    { self with emittedCekTable := self.collectCekTable } else self
  if self.columnEncryptionEnabled then self.writeCekTable
  self.columnMetadata.forM self.writeColumnDescriptorInternal
  pure self

end StreamingBulkLoadWriter

end MssqlTds
