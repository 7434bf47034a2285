import Mathlib.Data.List.Forall2
import MssqlTds.Message.BulkLoadTypes

/-!
# Reading the bulk load metadata back

The `COLMETADATA` of a bulk load has the form in which the server describes a result set, so the
client's own parser can say what a reader of the message finds in it.

* `gathered_collectCekTable` : the key table has every key in use, once.
* `cekTableOrdinalFor_eq_ok` : the ordinal of a column selects its own key.
* `bulk_metadata_keeps_encryption` : the parser gets this table and, for each encrypted column, its
  key and the description of its encryption.
-/

namespace MssqlTds

open Bytes Unicode Reader PacketWriter

/-! ### The key table -/

/-- What tells one key from another. -/
def CekTableEntry.identity (entry : CekTableEntry) : Int32 × Int32 × Int32 × Vector UInt8 8 :=
  (entry.databaseId, entry.cekId, entry.cekVersion, entry.cekMdVersion)

/-- A key by its identity alone. -/
def CekTableEntry.bare (entry : CekTableEntry) : CekTableEntry :=
  { entry with encryptedCekValues := [] }

theorem cekEntryMatches_iff (a b : CekTableEntry) :
    cekEntryMatches a b = true ↔ a.identity = b.identity := by
  simp [cekEntryMatches, CekTableEntry.identity, and_assoc]

/-- The identities of the keys that the columns use. -/
def usedIdentities (columns : List BulkCopyColumnMetadata) :
    List (Int32 × Int32 × Int32 × Vector UInt8 8) :=
  columns.filterMap fun column => column.encryption.map (·.cekEntry.identity)

namespace StreamingBulkLoadWriter

variable {self : StreamingBulkLoadWriter}

/-- A key is added once. -/
theorem addCekEntry_identities (table : List CekTableEntry) (entry : CekTableEntry) :
    (addCekEntry table entry).map (·.identity) =
      if entry.identity ∈ table.map (·.identity) then table.map (·.identity)
      else table.map (·.identity) ++ [entry.identity] := by
  have hany : table.any (cekEntryMatches · entry) = true ↔
      entry.identity ∈ table.map (·.identity) := by
    simp only [List.any_eq_true, cekEntryMatches_iff, List.mem_map]
  unfold addCekEntry
  by_cases hmem : entry.identity ∈ table.map (·.identity)
  · rw [if_pos hmem, if_pos (hany.mpr hmem)]
  · rw [if_neg hmem, if_neg (mt hany.mp hmem), List.map_append]
    rfl

/-- The table gathered so far: its keys are distinct, and they are the ones of the columns seen. -/
structure Gathered (columns : List BulkCopyColumnMetadata) (table : List CekTableEntry) : Prop where
  nodup : (table.map (·.identity)).Nodup
  mem_iff : ∀ i, i ∈ table.map (·.identity) ↔ i ∈ usedIdentities columns
  length_le : table.length ≤ columns.length

theorem Gathered.addColumn {columns : List BulkCopyColumnMetadata} {table : List CekTableEntry}
    (h : Gathered columns table) (column : BulkCopyColumnMetadata) :
    Gathered (columns ++ [column]) (match column.encryption with
      | some encryption => addCekEntry table encryption.cekEntry
      | none => table) := by
  have hused : usedIdentities (columns ++ [column]) = usedIdentities columns ++
      (column.encryption.map (·.cekEntry.identity)).toList := by
    unfold usedIdentities
    cases hencryption : column.encryption <;> simp [hencryption]
  cases hencryption : column.encryption with
  | none =>
    refine ⟨h.nodup, fun i => ?_, by simp only [List.length_append]; have := h.length_le; omega⟩
    rw [hused, hencryption, h.mem_iff]
    simp
  | some encryption =>
    have hadd := addCekEntry_identities table encryption.cekEntry
    have hlength := congrArg List.length hadd
    have hle := h.length_le
    by_cases hmem : encryption.cekEntry.identity ∈ table.map (·.identity)
    · -- the key is there already
      rw [if_pos hmem] at hadd hlength
      simp only [List.length_map] at hlength
      refine ⟨hadd ▸ h.nodup, fun i => ?_, by simp only [List.length_append]; omega⟩
      rw [hadd, hused, hencryption, h.mem_iff]
      rw [h.mem_iff] at hmem
      simp only [Option.map_some, Option.toList_some, List.mem_append, List.mem_singleton]
      exact ⟨.inl, fun hi => hi.elim id fun hi => hi ▸ hmem⟩
    · rw [if_neg hmem] at hadd hlength
      simp only [List.length_map, List.length_append, List.length_singleton] at hlength
      refine ⟨?_, fun i => ?_, by simp only [List.length_append, List.length_singleton]; omega⟩
      · rw [hadd, List.nodup_append]
        refine ⟨h.nodup, by simp, ?_⟩
        rintro i hi j hj rfl
        rw [List.mem_singleton] at hj
        exact hmem (hj ▸ hi)
      · rw [hadd, hused, hencryption, List.mem_append, List.mem_append, h.mem_iff]
        simp

/-- **The key table has every key in use, once.** -/
theorem gathered_collectCekTable : Gathered self.columnMetadata self.collectCekTable := by
  -- the fold has gathered the keys of the columns it has gone through
  have hrun : ∀ (rest seen : List BulkCopyColumnMetadata) (table : List CekTableEntry),
      Gathered seen table → Gathered (seen ++ rest) (rest.foldl
        (fun table column =>
          match column.encryption with
          | some encryption => addCekEntry table encryption.cekEntry
          | none => table) table) := by
    intro rest
    induction rest with
    | nil => intro seen table h; rwa [List.append_nil]
    | cons column rest ih =>
      intro seen table h
      have hrest := ih (seen ++ [column]) _ (h.addColumn column)
      rwa [List.append_assoc] at hrest
  exact hrun self.columnMetadata [] [] ⟨List.nodup_nil, fun i => by simp [usedIdentities], le_rfl⟩

/-- **An ordinal selects the key it was asked for.** -/
theorem cekTableOrdinalFor_eq_ok {entry : CekTableEntry}
    (h : entry.identity ∈ self.emittedCekTable.map (·.identity))
    (hlength : self.emittedCekTable.length < 65536) :
    ∃ ordinal found, self.cekTableOrdinalFor entry = .ok ordinal ∧
      self.emittedCekTable[ordinal.toNat]? = some found ∧ found.identity = entry.identity := by
  obtain ⟨e, he, hidentity⟩ := List.mem_map.mp h
  cases hfind : self.emittedCekTable.findIdx? (cekEntryMatches · entry) with
  | none =>
    rw [List.findIdx?_eq_none_iff] at hfind
    have hno := hfind e he
    rw [(cekEntryMatches_iff e entry).mpr hidentity] at hno
    cases hno
  | some position =>
    obtain ⟨hlt, hmatches, -⟩ := List.findIdx?_eq_some_iff_getElem.mp hfind
    have hnat : (UInt16.ofNat position).toNat = position := by
      rw [UInt16.toNat_ofNat', Nat.mod_eq_of_lt (by omega)]
    refine ⟨UInt16.ofNat position, self.emittedCekTable[position], ?_, ?_, ?_⟩
    · rw [cekTableOrdinalFor, hfind]
    · rw [hnat, List.getElem?_eq_getElem hlt]
    · exact (cekEntryMatches_iff _ _).mp hmatches

theorem reads_readMdVersion (version : Vector UInt8 8) :
    Reads readMdVersion version.toList version := by
  have hlength : version.toList.length = 8 := by simp
  intro rest
  have hread := reads_readBytes hlength rest
  unfold readMdVersion
  rw [hread]
  simp only [hlength, dite_true]
  rfl

theorem transfers_writeCekTableEntry (entry : CekTableEntry) :
    Transfers (writeCekTableEntry entry) parseCekTableEntry entry.bare := by
  have hversion : Transfers (writeAsync entry.cekMdVersion.toList) readMdVersion
      entry.cekMdVersion := ⟨_, Emits.slice _, reads_readMdVersion _⟩
  exact (transfers_i32 entry.databaseId).bind ((transfers_i32 entry.cekId).bind
    ((transfers_i32 entry.cekVersion).bind (hversion.bind ((transfers_byte 0).bind_pure rfl))))

theorem transfers_writeCekTable (h : self.emittedCekTable.length < 65536) :
    Transfers self.writeCekTable parseCekTable (self.emittedCekTable.map (·.bare)) := by
  have hcount : (UInt16.ofNat self.emittedCekTable.length).toNat = self.emittedCekTable.length := by
    rw [UInt16.toNat_ofNat', Nat.mod_eq_of_lt h]
  have hall : ∀ entry ∈ self.emittedCekTable, ∃ parsed,
      Transfers (writeCekTableEntry entry) parseCekTableEntry parsed ∧ entry.bare = parsed :=
    fun entry _ => ⟨_, transfers_writeCekTableEntry entry, rfl⟩
  obtain ⟨entries, htimes, hentries⟩ := transfers_times hall
  rw [← List.forall₂_map_left_iff, List.forall₂_eq_eq_eq] at hentries
  refine (transfers_u16 _).bind ?_
  rw [hcount, hentries]
  exact htimes

end StreamingBulkLoadWriter

/-! ### Encrypted columns -/

/-- A cipher that is named exactly if its identifier says so, and by a name short enough. -/
def CryptoMetadata.CipherNamed (crypto : CryptoMetadata) : Prop :=
  if crypto.cipherAlgorithmId = customCipherAlgorithmId then
    ∃ name, crypto.cipherAlgorithmName = some name ∧ (utf16Units name.toList).length ≤ 255
  else crypto.cipherAlgorithmName = none

/-- The base type is one that the reader can return, neither a vector nor partially
length-prefixed. -/
def CryptoMetadata.BaseReturned (crypto : CryptoMetadata) : Prop :=
  (∃ q r, readTypeInfo crypto.baseDataType q = .ok (crypto.baseTypeInfo, r)) ∧
    ¬ crypto.baseTypeInfo.IsPlp ∧ crypto.baseDataType ≠ .vector

namespace StreamingBulkLoadWriter

variable {self : StreamingBulkLoadWriter}

theorem transfers_writeBVarchar {text : String} (h : (utf16Units text.toList).length ≤ 255) :
    Transfers (writeBVarchar text) readVarcharU8Length text := by
  refine (transfers_byte _).bind ?_
  rw [toNat_unitCount h]
  exact transfers_units text rfl

/-- **The description of an encrypted column is read back**, with the place of its key. -/
theorem transfers_writeCryptoMetadataColmetadata {encryption : BulkCopyColumnEncryption}
    {ordinal : UInt16} (hordinal : self.cekTableOrdinalFor encryption.cekEntry = .ok ordinal)
    (hbase : encryption.cryptoMetadata.BaseReturned)
    (hcipher : encryption.cryptoMetadata.CipherNamed) :
    Transfers (self.writeCryptoMetadataColmetadata encryption) (parseCryptoMetadata true)
      { encryption.cryptoMetadata with cekTableOrdinal := ordinal } := by
  obtain ⟨⟨q, r, hread⟩, hplp, hvector⟩ := hbase
  obtain ⟨hreturned, htype⟩ := returned_of_readTypeInfo hread hvector hplp
  obtain ⟨crypto, entry⟩ := encryption
  obtain ⟨storedOrdinal, baseDataType, baseTypeInfo, id, name, type, version⟩ := crypto
  simp only at hordinal hread hplp hvector hreturned htype
  subst htype
  have hknown : TdsDataType.tryFrom baseTypeInfo.tdsType.code = .ok baseTypeInfo.tdsType :=
    TdsDataType.tryFrom_code (by rintro hnone; rw [hnone] at hread; cases hread)
  have htail : ∀ name, Transfers (writeByteAsync type >>= fun _ => writeByteAsync version)
      (do
        let encryptionType ← readByte
        let normalizationRuleVersion ← readByte
        pure ({
          cekTableOrdinal := ordinal
          baseDataType := baseTypeInfo.tdsType
          baseTypeInfo := baseTypeInfo
          cipherAlgorithmId := id
          cipherAlgorithmName := name
          encryptionType := encryptionType
          normalizationRuleVersion := normalizationRuleVersion } : CryptoMetadata))
      ⟨ordinal, baseTypeInfo.tdsType, baseTypeInfo, id, name, type, version⟩ :=
    fun name => (transfers_byte type).bind ((transfers_byte version).bind_pure rfl)
  unfold writeCryptoMetadataColmetadata parseCryptoMetadata
  simp only [hordinal, if_true]
  refine (transfers_u16 ordinal).bind ((transfers_u32 0).bind (Transfers.assoc ?_))
  refine (transfers_byte _).bind ?_
  simp only [hknown]
  refine (transfers_writeBaseTypeFields hreturned).bind ((transfers_byte id).bind ?_)
  by_cases hid : id = customCipherAlgorithmId
  · rw [CryptoMetadata.CipherNamed, if_pos hid] at hcipher
    obtain ⟨text, rfl, hshort⟩ := hcipher
    simp only [if_pos hid]
    rw [if_pos (show id = 0 from hid)]
    refine .assoc ((transfers_byte _).bind ?_)
    simp only [Option.getD_some, toNat_unitCount hshort]
    refine ((transfers_units text rfl).map some).bind ?_
    exact htail (some text)
  · rw [CryptoMetadata.CipherNamed, if_neg hid] at hcipher
    obtain rfl : name = none := hcipher
    simp only [if_neg hid]
    rw [if_neg (show ¬ id = 0 from hid)]
    refine .skip ?_
    exact htail none

end StreamingBulkLoadWriter

/-! ### The token -/

/-- A parsed column says the same about the encryption of a column as the column itself, its key
being looked up in the parsed table. -/
def EncryptionKept (table : List CekTableEntry) (column : BulkCopyColumnMetadata)
    (parsed : ColMetadataColumn) : Prop :=
  match column.encryption with
  | none => parsed.cryptoMetadata = none
  | some encryption => ∃ ordinal entry,
      parsed.cryptoMetadata =
        some { encryption.cryptoMetadata with cekTableOrdinal := ordinal } ∧
      table[ordinal.toNat]? = some entry ∧ entry.identity = encryption.cekEntry.identity

/-- A column that the token describes in the parser's form. -/
def Sendable (column : BulkCopyColumnMetadata) : Prop :=
  (∃ t, Describable column t) ∧ ∀ encryption, column.encryption = some encryption →
    encryption.cryptoMetadata.BaseReturned ∧ encryption.cryptoMetadata.CipherNamed

namespace StreamingBulkLoadWriter

variable {self : StreamingBulkLoadWriter} {column : BulkCopyColumnMetadata}

theorem columnFlags_encrypted (h : self.columnEncryptionEnabled = true) :
    self.columnFlags column &&& flagEncrypted ≠ 0 ↔ column.encryption.isSome = true := by
  unfold columnFlags flagEncrypted
  rw [h]
  cases column.isNullable <;> cases column.isIdentity <;> cases column.encryption.isSome <;> decide

theorem ne_none_of_plain {t : TdsDataType} (h : t ∈ plainTypes) : t ≠ .none := by
  rintro rfl
  revert h
  decide

theorem parseMultiPartName_plain {t : TdsDataType} (h : t ∈ plainTypes) :
    parseMultiPartName t = pure none := by
  unfold parseMultiPartName
  rw [if_neg]
  revert h
  cases t <;> decide

/-- What an encrypted column has behind its type is read back, and nothing is there for another. -/
theorem exists_transfers_writeColumnEncryption (henabled : self.columnEncryptionEnabled = true)
    (hsendable : Sendable column) (hlength : self.emittedCekTable.length < 65536)
    (htable : ∀ encryption, column.encryption = some encryption →
      encryption.cekEntry.identity ∈ self.emittedCekTable.map (·.identity)) :
    ∃ crypto, Transfers (self.writeColumnEncryption column)
        (parseColumnEncryption true (self.columnFlags column)) crypto ∧
      match column.encryption with
      | none => crypto = none
      | some encryption => ∃ ordinal entry,
          crypto = some { encryption.cryptoMetadata with cekTableOrdinal := ordinal } ∧
          (self.emittedCekTable.map (·.bare))[ordinal.toNat]? = some entry ∧
          entry.identity = encryption.cekEntry.identity := by
  have hflags := @columnFlags_encrypted self column henabled
  unfold writeColumnEncryption parseColumnEncryption
  rw [henabled]
  cases hencryption : column.encryption with
  | none =>
    rw [hencryption] at hflags
    rw [if_neg (by rw [hflags]; simp)]
    exact ⟨none, Transfers.pure none, rfl⟩
  | some encryption =>
    rw [hencryption] at hflags
    rw [if_pos ⟨rfl, hflags.mpr rfl⟩]
    obtain ⟨hbase, hcipher⟩ := hsendable.2 encryption hencryption
    obtain ⟨ordinal, found, hordinal, hfound, hidentity⟩ :=
      cekTableOrdinalFor_eq_ok (htable encryption hencryption) hlength
    refine ⟨_, (transfers_writeCryptoMetadataColmetadata hordinal hbase hcipher).map some,
      ordinal, found.bare, rfl, ?_, hidentity⟩
    rw [List.getElem?_map, hfound]
    rfl

theorem exists_transfers_writeColumnDescriptorInternal
    (henabled : self.columnEncryptionEnabled = true) (hsendable : Sendable column)
    (hlength : self.emittedCekTable.length < 65536)
    (htable : ∀ encryption, column.encryption = some encryption →
      encryption.cekEntry.identity ∈ self.emittedCekTable.map (·.identity)) :
    ∃ parsed, Transfers (self.writeColumnDescriptorInternal column) (parseColumn true) parsed ∧
      EncryptionKept (self.emittedCekTable.map (·.bare)) column parsed := by
  obtain ⟨t, ht⟩ := hsendable.1
  obtain ⟨typeInfo, htypeInfo⟩ := @exists_transfers_writeTypeInfoInternal self column t ht
  obtain ⟨crypto, hcrypto, hkept⟩ :=
    exists_transfers_writeColumnEncryption henabled hsendable hlength htable
  have hcode : TdsDataType.tryFrom column.tdsType = .ok t := by
    rw [ht.code]
    exact TdsDataType.tryFrom_code (ne_none_of_plain ht.plain)
  have hname : Transfers
      (do
        writeByteAsync (UInt8.ofNat ((utf16Units column.columnName.toList).length % 256))
        (utf16Units column.columnName.toList).forM writeU16Async)
      readVarcharU8Length column.columnName := by
    have hshort := ht.name
    rw [Nat.mod_eq_of_lt (by omega)]
    exact transfers_writeBVarchar hshort
  refine ⟨{ userType := 0, flags := self.columnFlags column, dataType := t, typeInfo := typeInfo,
            columnName := column.columnName, multiPartName := none, cryptoMetadata := crypto },
    ?_, hkept⟩
  refine (transfers_u32 0).bind ((transfers_u16 _).bind ((transfers_byte _).bind ?_))
  simp only [hcode, parseMultiPartName_plain ht.plain]
  refine htypeInfo.bind (Transfers.skip ?_)
  exact hcrypto.bind (hname.bind_pure rfl)

/-- The token of a bulk load as a reader of the message meets it: the type byte, then the rest. -/
def readMetadata : TdsReader (UInt8 × ColMetadataToken) := do
  let tokenType ← readByte
  let token ← parseColMetadata true
  pure (tokenType, token)

/-- The writer of the columns knows the keys that the table has. -/
def withCekTable (self : StreamingBulkLoadWriter) : StreamingBulkLoadWriter :=
  { self with emittedCekTable := self.collectCekTable }

theorem writeMetadataInternal_eq (h : self.columnEncryptionEnabled = true) :
    (self.writeMetadataInternal >>= fun _ => pure ()) = (do
      writeByteAsync tokenColmetadata
      writeU16Async (UInt16.ofNat self.columnMetadata.length)
      self.withCekTable.writeCekTable
      self.columnMetadata.forM self.withCekTable.writeColumnDescriptorInternal) := by
  unfold writeMetadataInternal withCekTable
  simp only [h, if_true, bind_assoc, pure_bind, bind_pure_unit]

/-- **The metadata of an encrypted bulk load says which key each column uses.**  The token is read
into a table in which every key in use occurs once, and each encrypted column refers to its own key
and keeps the description of its encryption. -/
theorem bulk_metadata_keeps_encryption (self : StreamingBulkLoadWriter)
    (henabled : self.columnEncryptionEnabled = true) (hcount : self.columnMetadata.length < 65535)
    (hcolumns : ∀ column ∈ self.columnMetadata, Sendable column) :
    ∃ token, Transfers (self.writeMetadataInternal >>= fun _ => pure ()) readMetadata
        (tokenColmetadata, token) ∧
      (token.cekTable.map (·.identity)).Nodup ∧
      (∀ i, i ∈ token.cekTable.map (·.identity) ↔ i ∈ usedIdentities self.columnMetadata) ∧
      List.Forall₂ (EncryptionKept token.cekTable) self.columnMetadata token.columns := by
  have hgathered := @gathered_collectCekTable self
  have hlength : self.collectCekTable.length < 65536 := by
    have := hgathered.length_le
    omega
  have hidentities : (self.collectCekTable.map (·.bare)).map (·.identity) =
      self.collectCekTable.map (·.identity) := by
    rw [List.map_map]
    rfl
  have hall : ∀ column ∈ self.columnMetadata, ∃ parsed,
      Transfers (self.withCekTable.writeColumnDescriptorInternal column) (parseColumn true) parsed ∧
        EncryptionKept (self.collectCekTable.map (·.bare)) column parsed := by
    intro column hcolumn
    refine @exists_transfers_writeColumnDescriptorInternal self.withCekTable column henabled
      (hcolumns column hcolumn) hlength fun encryption hencryption => ?_
    refine (hgathered.mem_iff _).mpr (List.mem_filterMap.mpr ⟨column, hcolumn, ?_⟩)
    rw [hencryption]
    rfl
  obtain ⟨columns, hcolumns, hkept⟩ := transfers_times hall
  refine ⟨⟨UInt16.ofNat self.columnMetadata.length, columns, self.collectCekTable.map (·.bare)⟩,
    ?_, ?_, ?_, hkept⟩
  · have hnat : (UInt16.ofNat self.columnMetadata.length).toNat = self.columnMetadata.length := by
      rw [UInt16.toNat_ofNat', Nat.mod_eq_of_lt (by omega)]
    -- 65535 would mean that there is no metadata
    have hsome : UInt16.ofNat self.columnMetadata.length ≠ 0xFFFF := by
      intro hmarker
      have hmarker := congrArg UInt16.toNat hmarker
      rw [hnat] at hmarker
      have : self.columnMetadata.length = 65535 := hmarker
      omega
    have hrest : Transfers (do
          writeU16Async (UInt16.ofNat self.columnMetadata.length)
          self.withCekTable.writeCekTable
          self.columnMetadata.forM self.withCekTable.writeColumnDescriptorInternal)
        (parseColMetadata true) ⟨UInt16.ofNat self.columnMetadata.length, columns,
          self.collectCekTable.map (·.bare)⟩ := by
      refine (transfers_u16 _).bind ?_
      simp only [if_neg hsome, if_true, hnat]
      refine (@transfers_writeCekTable self.withCekTable hlength).bind ?_
      exact hcolumns.bind_pure rfl
    rw [writeMetadataInternal_eq henabled]
    exact (transfers_byte _).bind (hrest.bind_pure rfl)
  · rw [hidentities]
    exact hgathered.nodup
  · intro i
    rw [hidentities]
    exact hgathered.mem_iff i

/-! A table with an encrypted column next to a plain one. -/

/-- A four-byte integer behind its encryption. -/
def encryptedInt : BulkCopyColumnMetadata where
  columnName := "n"
  tdsType := TdsDataType.bigVarBinary.code
  length := 65
  lengthType := .variable 65
  precision := 0
  scale := 0
  collation := none
  isNullable := true
  isIdentity := false
  encryption := some
    { cryptoMetadata :=
        { cekTableOrdinal := 7
          baseDataType := .intN
          baseTypeInfo := ⟨.intN, 4, .varLen .intN 4⟩
          cipherAlgorithmId := 2
          cipherAlgorithmName := none
          encryptionType := 1
          normalizationRuleVersion := 1 }
      cekEntry := ⟨5, 1, 1, Vector.replicate 8 0, []⟩ }

def plainColumn (t : TdsDataType) : BulkCopyColumnMetadata where
  columnName := "c"
  tdsType := t.code
  length := 4
  lengthType := .fixed 4
  precision := 0
  scale := 0
  collation := none
  isNullable := true
  isIdentity := false
  encryption := none

def tableOf (columns : List BulkCopyColumnMetadata) : StreamingBulkLoadWriter :=
  ⟨"t", columns, .default, true, []⟩

theorem sendable_encryptedInt : Sendable encryptedInt := by
  refine ⟨⟨.bigVarBinary, rfl, by decide, by decide, by decide, by decide, by decide +kernel⟩, ?_⟩
  intro encryption hencryption
  obtain rfl := Option.some.inj hencryption
  refine ⟨⟨⟨[4], [], rfl⟩, ?_, by decide⟩, if_neg (by decide) |>.mpr rfl⟩
  rintro ⟨t, length, collation, hplp⟩
  cases hplp

theorem sendable_plainInt : Sendable (plainColumn .int4) :=
  ⟨⟨.int4, rfl, by decide, by decide, by decide, by decide, by decide +kernel⟩,
    fun _ hencryption => by cases hencryption⟩

theorem bulk_metadata_keeps_encryption_twoColumns :
    ∃ token, Transfers ((tableOf [plainColumn .int4, encryptedInt]).writeMetadataInternal >>=
        fun _ => pure ()) readMetadata (tokenColmetadata, token) ∧
      (token.cekTable.map (·.identity)).Nodup ∧
      (∀ i, i ∈ token.cekTable.map (·.identity) ↔
        i ∈ usedIdentities [plainColumn .int4, encryptedInt]) ∧
      List.Forall₂ (EncryptionKept token.cekTable) [plainColumn .int4, encryptedInt]
        token.columns := by
  refine bulk_metadata_keeps_encryption (tableOf [plainColumn .int4, encryptedInt]) rfl (by decide)
    ?_
  intro column hcolumn
  simp only [tableOf, List.mem_cons, List.not_mem_nil, or_false] at hcolumn
  obtain rfl | rfl := hcolumn
  · exact sendable_plainInt
  · exact sendable_encryptedInt

/-- A table with a legacy large object. -/
def textTable : StreamingBulkLoadWriter := tableOf [plainColumn .text, encryptedInt]

theorem emits_name (text : String) : Emits
    (writeByteAsync (UInt8.ofNat ((utf16Units text.toList).length % 256)) >>= fun _ =>
      (utf16Units text.toList).forM writeU16Async)
    (UInt8.ofNat ((utf16Units text.toList).length % 256) :: unitsLe (utf16Units text.toList)) :=
  (Emits.byte _).bind (Emits.forM_u16 _)

theorem emits_textTable_keys : Emits textTable.withCekTable.writeCekTable
    [1, 0, 5, 0, 0, 0, 1, 0, 0, 0, 1, 0, 0, 0, 0, 0, 0, 0, 0, 0, 0, 0, 0] := by
  have hentry := (Emits.i32 5).bind ((Emits.i32 1).bind
    ((Emits.i32 1).bind ((Emits.slice (Vector.replicate 8 0).toList).bind
      (Emits.byte 0))))
  exact emits_of_eq ((Emits.u16 _).bind (hentry.bind Emits.pure)) (by decide +kernel)

/-- The name of the table follows the collation, behind a count of two bytes. -/
theorem emits_textColumn :
    Emits (textTable.withCekTable.writeColumnDescriptorInternal (plainColumn .text))
      [0, 0, 0, 0, 9, 0, 35, 254, 255, 255, 127, 0, 0, 0, 0, 0, 1, 0, 116, 0, 1, 99, 0] := by
  have htype : Emits (textTable.withCekTable.writeTypeInfoInternal (plainColumn .text)) _ :=
    (Emits.u32 _).bind (((Emits.u32 _).bind (Emits.byte _)).bind
      ((Emits.u16 _).bind (Emits.forM_u16 _)))
  exact emits_of_eq ((Emits.u32 _).bind ((Emits.u16 _).bind
    ((Emits.byte _).bind (htype.bind (Emits.pure.bind (emits_name _))))))
    (by decide +kernel)

theorem emits_encryptedInt :
    Emits (textTable.withCekTable.writeColumnDescriptorInternal encryptedInt)
      [0, 0, 0, 0, 9, 8, 165, 65, 0, 0, 0, 0, 0, 0, 0, 38, 4, 2, 1, 1, 1, 110, 0] := by
  have hcrypto : Emits (textTable.withCekTable.writeColumnEncryption encryptedInt) _ :=
    (Emits.u16 _).bind ((Emits.u32 _).bind
      (((Emits.byte _).bind (Emits.byte _)).bind ((Emits.byte _).bind
        ((Emits.byte _).bind (Emits.byte _)))))
  exact emits_of_eq ((Emits.u32 _).bind ((Emits.u16 _).bind
    ((Emits.byte _).bind ((Emits.u16 _).bind (hcrypto.bind (emits_name _))))))
    (by decide +kernel)

/-- A legacy large object anywhere in the table makes the token unreadable to the parser, which
takes the count of the name's characters for the number of its parts. -/
theorem bulk_metadata_legacy_text : ∃ bs,
    Emits (textTable.writeMetadataInternal >>= fun _ => pure ()) bs ∧
      (readMetadata bs).toOption = none := by
  rw [writeMetadataInternal_eq rfl]
  refine ⟨_, (Emits.byte _).bind ((Emits.u16 _).bind
    (emits_textTable_keys.bind (emits_textColumn.bind (emits_encryptedInt.bind Emits.pure)))), ?_⟩
  decide +kernel

end StreamingBulkLoadWriter

end MssqlTds
