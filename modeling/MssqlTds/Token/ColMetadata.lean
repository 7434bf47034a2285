import MssqlTds.Datatypes.TypeInfoReader

/-!
# The `COLMETADATA` token

The token describes the columns of a result set, and the client describes the columns of a bulk
load in the same form.  When column encryption has been negotiated, a table of column encryption
keys precedes the columns, and each encrypted column says which of them it uses and what its type
is before encryption.
-/

namespace MssqlTds

open Reader

/-- The name of the table a legacy large object comes from. -/
structure MultiPartName where
  serverName : Option String
  catalogName : Option String
  schemaName : Option String
  tableName : String
  deriving DecidableEq

/-- A column as the token describes it. -/
structure ColMetadataColumn extends ColumnMetadata where
  userType : UInt32
  flags : UInt16
  multiPartName : Option MultiPartName
  deriving DecidableEq

structure ColMetadataToken where
  columnCount : UInt16
  columns : List ColMetadataColumn
  cekTable : List CekTableEntry
  deriving DecidableEq

def flagEncrypted : UInt16 := 0x0800

/-- The identifier of a cipher algorithm that is given by name. -/
def customCipherAlgorithmId : UInt8 := 0x00

def parseEncryptedCekValue : TdsReader EncryptedCekValue := do
  let encryptedLen ← readUint16
  let encryptedKey ← readBytes encryptedLen.toNat
  let keyStoreLen ← readByte
  let keyStoreName ← readUnicode keyStoreLen.toNat
  let keyPathLen ← readUint16
  let keyPath ← readUnicode keyPathLen.toNat
  let algorithmLen ← readByte
  let algorithmName ← readUnicode algorithmLen.toNat
  pure ⟨encryptedKey, keyStoreName, keyPath, algorithmName⟩

/-- Eight bytes. -/
def readMdVersion : TdsReader (Vector UInt8 8) := fun q =>
  match readBytes 8 q with
  | .ok (bytes, q) =>
    if h : bytes.length = 8 then .ok (⟨bytes.toArray, h⟩, q) else .error (.panic "read_bytes")
  | .error error => .error error

def parseCekTableEntry : TdsReader CekTableEntry := do
  let databaseId ← readInt32
  let cekId ← readInt32
  let cekVersion ← readInt32
  let cekMdVersion ← readMdVersion
  let valueCount ← readByte
  let encryptedCekValues ← times parseEncryptedCekValue valueCount.toNat
  pure ⟨databaseId, cekId, cekVersion, cekMdVersion, encryptedCekValues⟩

def parseCekTable : TdsReader (List CekTableEntry) := do
  let entryCount ← readUint16
  times parseCekTableEntry entryCount.toNat

def parseCryptoMetadata (hasCekTable : Bool) : TdsReader CryptoMetadata := do
  let cekTableOrdinal ← if hasCekTable then readUint16 else pure 0
  let _userType ← readUint32
  let rawBaseType ← readByte
  match TdsDataType.tryFrom rawBaseType with
  | .error _ => throw (.io s!"Invalid base data type in crypto metadata: {rawBaseType}")
  | .ok baseDataType =>
    let baseTypeInfo ← readTypeInfo baseDataType
    let cipherAlgorithmId ← readByte
    let cipherAlgorithmName ←
      if cipherAlgorithmId = customCipherAlgorithmId then do
        let nameLen ← readByte
        some <$> readUnicode nameLen.toNat
      else pure none
    let encryptionType ← readByte
    let normalizationRuleVersion ← readByte
    pure
      { cekTableOrdinal
        baseDataType
        baseTypeInfo
        cipherAlgorithmId
        cipherAlgorithmName
        encryptionType
        normalizationRuleVersion }

def parseMultiPartNameLoop : ℕ → MultiPartName → TdsReader MultiPartName
  | 0, name => pure name
  | partCount + 1, name => do
    let partName ← readVarcharU16Length
    parseMultiPartNameLoop partCount (match partCount + 1 with
      | 4 => { name with serverName := partName }
      | 3 => { name with catalogName := partName }
      | 2 => { name with schemaName := partName }
      | 1 => { name with tableName := partName.getD "" }
      | _ => name)

/-- The legacy large objects carry the name of their table. -/
def parseMultiPartName (dataType : TdsDataType) : TdsReader (Option MultiPartName) :=
  if dataType ∈ [.text, .nText, .image] then do
    let partCount ← readByte
    if partCount = 0 then pure none
    else some <$> parseMultiPartNameLoop partCount.toNat ⟨none, none, none, ""⟩
  else pure none

/-- An encrypted column describes its encryption behind its type. -/
def parseColumnEncryption (isColumnEncryptionSupported : Bool) (flags : UInt16) :
    TdsReader (Option CryptoMetadata) :=
  if isColumnEncryptionSupported ∧ flags &&& flagEncrypted ≠ 0 then
    some <$> parseCryptoMetadata isColumnEncryptionSupported
  else pure none

def parseColumn (isColumnEncryptionSupported : Bool) : TdsReader ColMetadataColumn := do
  let userType ← readUint32
  let flags ← readUint16
  let rawDataType ← readByte
  match TdsDataType.tryFrom rawDataType with
  | .error _ => throw (.io s!"Invalid data type: {rawDataType}")
  | .ok dataType =>
    let typeInfo ← readTypeInfo dataType
    let multiPartName ← parseMultiPartName dataType
    let cryptoMetadata ← parseColumnEncryption isColumnEncryptionSupported flags
    let columnName ← readVarcharU8Length
    pure { userType, flags, dataType, typeInfo, columnName, multiPartName, cryptoMetadata }

/-- The token behind its type byte. -/
def parseColMetadata (isColumnEncryptionSupported : Bool) : TdsReader ColMetadataToken := do
  let colCount ← readUint16
  if colCount = 0xFFFF then
    -- no metadata
    pure ⟨0, [], []⟩
  else
    let cekTable ← if isColumnEncryptionSupported then parseCekTable else pure []
    let columns ← times (parseColumn isColumnEncryptionSupported) colCount.toNat
    pure ⟨colCount, columns, cekTable⟩

end MssqlTds
