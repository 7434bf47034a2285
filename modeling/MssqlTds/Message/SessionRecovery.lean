import MssqlTds.Connection.SessionState
import MssqlTds.Datatypes.SerializerFormat

/-!
# The session recovery feature of a login

A reconnect sends the session state back: the login's baseline in an initial block, and what has
changed since in a delta block, each behind its length.  The lengths are computed in `u32` ahead of
the bytes; `initialBlock` and `deltaBlock` are the bytes themselves.

* `serialize_emits` : the feature writes its identifier, the three lengths and the two blocks.
* `initialBlockLength_eq`, `deltaBlockLength_eq` : a computed length is the number of bytes of its
  block modulo `2 ^ 32`.
* `sessionRecovery_lengths` : the lengths on the wire and in the login record.
-/

namespace MssqlTds

open Bytes Unicode PacketWriter UInt32 List

structure SessionRecoveryData where
  initialState : StateSlots
  delta : StateSlots
  initialDatabase : List Char
  initialLanguage : List Char
  initialCollation : SqlCollation
  /-- The current database, language and collation. -/
  database : List Char
  language : List Char
  collation : SqlCollation

/-! ### The lengths -/

/-- The number of UTF-16 units, as the `u32` it is cast to. -/
def unitCount (value : List Char) : UInt32 := .ofNat (utf16Units value).length

def stateValueWireLength (dataLen : ℕ) : UInt32 :=
  if dataLen < 0xFF then 1 + .ofNat dataLen else 5 + .ofNat dataLen

def filledSlots (slots : StateSlots) : List (UInt8 × SessionStateRecord) :=
  stateIds.filterMap fun stateId => (slots stateId).map (stateId, ·)

/-- The length of the state entries, added to what comes before them. -/
def addStateLengths (slots : StateSlots) (len : UInt32) : UInt32 :=
  (filledSlots slots).foldl (fun len (_, record) =>
    len + 1 + stateValueWireLength record.data.length) len

namespace SessionRecoveryData

variable (data : SessionRecoveryData)

def initialBlockLength : UInt32 :=
  addStateLengths data.initialState
    (1 + 2 * unitCount data.initialDatabase +
      (if data.initialCollation = .default then 1 else 6) +
      (1 + 2 * unitCount data.initialLanguage))

/-- A changed collation counts six bytes, whatever it is. -/
def deltaBlockLength : UInt32 :=
  addStateLengths data.delta
    ((if data.database = data.initialDatabase then 1 else 1 + 2 * unitCount data.database) +
      (if data.collation = data.initialCollation then 1 else 6) +
      (if data.language = data.initialLanguage then 1 else 1 + 2 * unitCount data.language))

def totalDataLength : UInt32 := 8 + data.initialBlockLength + data.deltaBlockLength

end SessionRecoveryData

/-! ### The feature -/

structure SessionRecoveryFeature where
  connectRetryCount : UInt32
  /-- Absent in the first login. -/
  recoveryData : Option SessionRecoveryData

def writeBVarchar (value : List Char) : WriterM Unit := do
  let charCount := (utf16Units value).length
  writeByteAsync (.ofNat charCount)
  if charCount > 0 then writeStringUnicodeAsync value

def writeCollation (collation : SqlCollation) : WriterM Unit :=
  if collation = .default then writeByteAsync 0
  else do
    writeByteAsync 5
    writeU32Async collation.info
    writeByteAsync collation.sortId

def writeStateLength (dataLen : ℕ) : WriterM Unit :=
  if dataLen < 0xFF then writeByteAsync (.ofNat dataLen)
  else do
    writeByteAsync 0xFF
    writeU32Async (.ofNat dataLen)

def writeStateEntry (entry : UInt8 × SessionStateRecord) : WriterM Unit := do
  writeByteAsync entry.1
  writeStateLength entry.2.data.length
  writeAsync entry.2.data

def writeStateEntries (states : StateSlots) : WriterM Unit :=
  (filledSlots states).forM writeStateEntry

/-- In the delta block, a value that has not changed is a zero byte. -/
def writeChanged {α : Type} [DecidableEq α] (initial current : α) (write : α → WriterM Unit) :
    WriterM Unit :=
  if current = initial then writeByteAsync 0 else write current

namespace SessionRecoveryFeature

def newForReconnection (recoveryData : SessionRecoveryData) : SessionRecoveryFeature :=
  ⟨1, some recoveryData⟩

/-- `FeatureExtension::SRecovery`. -/
def featureIdentifier : UInt8 := 0x01

variable (feature : SessionRecoveryFeature)

/-- The bytes of the feature in the login record, with its identifier and its length field. -/
def dataLength : Int32 :=
  match feature.recoveryData with
  | some data => (1 + 4 + 4 + data.initialBlockLength + 4 + data.deltaBlockLength).toInt32
  | none => 5

def serializeInitialBlock (data : SessionRecoveryData) : WriterM Unit := do
  writeU32Async data.initialBlockLength
  writeBVarchar data.initialDatabase
  writeCollation data.initialCollation
  writeBVarchar data.initialLanguage
  writeStateEntries data.initialState

def serializeDeltaBlock (data : SessionRecoveryData) : WriterM Unit := do
  writeU32Async data.deltaBlockLength
  writeChanged data.initialDatabase data.database writeBVarchar
  writeChanged data.initialCollation data.collation writeCollation
  writeChanged data.initialLanguage data.language writeBVarchar
  writeStateEntries data.delta

def serialize : WriterM Unit := do
  writeByteAsync featureIdentifier
  match feature.recoveryData with
  | some data =>
    writeU32Async data.totalDataLength
    serializeInitialBlock data
    serializeDeltaBlock data
  | none => writeI32Async 0

end SessionRecoveryFeature

open SessionRecoveryFeature

/-! ### The bytes -/

def wireBVarchar (value : List Char) : List UInt8 :=
  UInt8.ofNat (utf16Units value).length :: utf16le value

def wireCollation (collation : SqlCollation) : List UInt8 :=
  if collation = .default then [0] else 5 :: (leBytes 4 collation.info.toNat ++ [collation.sortId])

def wireStateLength (dataLen : ℕ) : List UInt8 :=
  if dataLen < 0xFF then [UInt8.ofNat dataLen] else 0xFF :: leBytes 4 dataLen

def wireStateEntry (entry : UInt8 × SessionStateRecord) : List UInt8 :=
  entry.1 :: (wireStateLength entry.2.data.length ++ entry.2.data)

def wireStateEntries (slots : StateSlots) : List UInt8 := (filledSlots slots).flatMap wireStateEntry

def wireChanged {α : Type} [DecidableEq α] (initial current : α) (wire : α → List UInt8) :
    List UInt8 :=
  if current = initial then [0] else wire current

namespace SessionRecoveryData

def initialBlock (data : SessionRecoveryData) : List UInt8 :=
  wireBVarchar data.initialDatabase ++ (wireCollation data.initialCollation ++
    (wireBVarchar data.initialLanguage ++ wireStateEntries data.initialState))

def deltaBlock (data : SessionRecoveryData) : List UInt8 :=
  wireChanged data.initialDatabase data.database wireBVarchar ++
    (wireChanged data.initialCollation data.collation wireCollation ++
      (wireChanged data.initialLanguage data.language wireBVarchar ++ wireStateEntries data.delta))

end SessionRecoveryData

theorem writeBVarchar_emits (value : List Char) :
    Emits (writeBVarchar value) (wireBVarchar value) := by
  have hunits : Emits (if (utf16Units value).length > 0 then writeStringUnicodeAsync value
      else pure ()) (utf16le value) := by
    split
    · exact Emits.string value
    · -- no unit, no byte
      have hnil : utf16Units value = [] := length_eq_zero_iff.mp (by omega)
      rw [utf16le, hnil]
      exact .pure
  exact (Emits.byte _).bind hunits

theorem writeCollation_emits (collation : SqlCollation) :
    Emits (writeCollation collation) (wireCollation collation) :=
  emits_ite (Emits.byte 0)
    ((Emits.byte 5).bind ((Emits.u32 _).bind (Emits.byte _)))

theorem writeStateLength_emits (dataLen : ℕ) :
    Emits (writeStateLength dataLen) (wireStateLength dataLen) :=
  emits_ite (Emits.byte _) ((Emits.byte 0xFF).bind (writeLen32_emits dataLen))

theorem writeStateEntry_emits (entry : UInt8 × SessionStateRecord) :
    Emits (writeStateEntry entry) (wireStateEntry entry) :=
  (Emits.byte _).bind ((writeStateLength_emits _).bind (Emits.slice _))

theorem writeStateEntries_emits (slots : StateSlots) :
    Emits (writeStateEntries slots) (wireStateEntries slots) :=
  Emits.forM writeStateEntry_emits _

theorem writeChanged_emits {α : Type} [DecidableEq α] (initial current : α)
    {write : α → WriterM Unit} {wire : α → List UInt8} (h : ∀ a, Emits (write a) (wire a)) :
    Emits (writeChanged initial current write) (wireChanged initial current wire) :=
  emits_ite (Emits.byte 0) (h current)

/-- The bytes of a reconnect: the identifier, and the two blocks behind their lengths. -/
theorem serialize_emits (data : SessionRecoveryData) :
    Emits (newForReconnection data).serialize
      (featureIdentifier :: (leBytes 4 data.totalDataLength.toNat ++
        ((leBytes 4 data.initialBlockLength.toNat ++ data.initialBlock) ++
          (leBytes 4 data.deltaBlockLength.toNat ++ data.deltaBlock)))) := by
  have hinitial : Emits (serializeInitialBlock data)
      (leBytes 4 data.initialBlockLength.toNat ++ data.initialBlock) :=
    (Emits.u32 _).bind <| (writeBVarchar_emits _).bind <|
      (writeCollation_emits _).bind <| (writeBVarchar_emits _).bind (writeStateEntries_emits _)
  have hdelta : Emits (serializeDeltaBlock data)
      (leBytes 4 data.deltaBlockLength.toNat ++ data.deltaBlock) :=
    (Emits.u32 _).bind <| (writeChanged_emits _ _ writeBVarchar_emits).bind <|
      (writeChanged_emits _ _ writeCollation_emits).bind <|
        (writeChanged_emits _ _ writeBVarchar_emits).bind (writeStateEntries_emits _)
  exact (Emits.byte _).bind <| (Emits.u32 _).bind (hinitial.bind hdelta)

/-! ### The lengths are those of the bytes -/

@[simp] theorem length_wireBVarchar (value : List Char) :
    (wireBVarchar value).length = 1 + 2 * (utf16Units value).length := by
  simp [wireBVarchar, utf16le, Nat.add_comm]

theorem ofNat_length_wireBVarchar (value : List Char) :
    UInt32.ofNat (wireBVarchar value).length = 1 + 2 * unitCount value := by
  rw [length_wireBVarchar, ofNat_add, ofNat_mul]
  rfl

theorem ofNat_length_wireCollation (collation : SqlCollation) :
    UInt32.ofNat (wireCollation collation).length = if collation = .default then 1 else 6 := by
  unfold wireCollation
  split <;> simp

theorem ofNat_length_wireChanged {α : Type} [DecidableEq α] (initial current : α)
    (wire : α → List UInt8) :
    UInt32.ofNat (wireChanged initial current wire).length =
      if current = initial then 1 else UInt32.ofNat (wire current).length := by
  unfold wireChanged
  split <;> rfl

theorem length_wireStateEntry (entry : UInt8 × SessionStateRecord) :
    UInt32.ofNat (wireStateEntry entry).length
      = 1 + stateValueWireLength entry.2.data.length := by
  unfold wireStateEntry wireStateLength stateValueWireLength
  split
  · simp only [length_cons, length_append, length_nil, ofNat_add]
    grind
  · simp only [length_cons, length_append, length_leBytes, ofNat_add]
    grind

/-- The entries' lengths add up, modulo `2 ^ 32`. -/
theorem addStateLengths_eq (slots : StateSlots) (n : ℕ) :
    addStateLengths slots (.ofNat n) = .ofNat (n + (wireStateEntries slots).length) := by
  unfold addStateLengths wireStateEntries
  induction filledSlots slots generalizing n with
  | nil => simp
  | cons entry entries ih =>
    have hstep : UInt32.ofNat n + 1 + stateValueWireLength entry.2.data.length
        = .ofNat (n + (wireStateEntry entry).length) := by
      rw [UInt32.ofNat_add, length_wireStateEntry, UInt32.add_assoc]
    rw [foldl_cons]
    dsimp only
    rw [hstep, ih, flatMap_cons, length_append, Nat.add_assoc]

theorem initialBlockLength_eq (data : SessionRecoveryData) :
    data.initialBlockLength = .ofNat data.initialBlock.length := by
  have hhead : 1 + 2 * unitCount data.initialDatabase +
      (if data.initialCollation = .default then 1 else 6) + (1 + 2 * unitCount data.initialLanguage)
      = UInt32.ofNat ((wireBVarchar data.initialDatabase).length +
        (wireCollation data.initialCollation).length +
          (wireBVarchar data.initialLanguage).length) := by
    simp only [ofNat_add, ofNat_length_wireBVarchar, ofNat_length_wireCollation]
  rw [SessionRecoveryData.initialBlockLength, hhead, addStateLengths_eq]
  simp only [SessionRecoveryData.initialBlock, length_append, Nat.add_assoc]

theorem deltaBlockLength_eq {data : SessionRecoveryData}
    (hcollation : data.collation = data.initialCollation ∨ data.collation ≠ .default) :
    data.deltaBlockLength = .ofNat data.deltaBlock.length := by
  have hsix : (if data.collation = data.initialCollation then (1 : UInt32) else 6)
      = if data.collation = data.initialCollation then 1
        else if data.collation = .default then 1 else 6 := by
    rcases hcollation with heq | hne
    · rw [if_pos heq, if_pos heq]
    · rw [if_neg hne]
  have hhead :
      (if data.database = data.initialDatabase then 1 else 1 + 2 * unitCount data.database) +
      (if data.collation = data.initialCollation then 1 else 6) +
      (if data.language = data.initialLanguage then 1 else 1 + 2 * unitCount data.language)
      = UInt32.ofNat ((wireChanged data.initialDatabase data.database wireBVarchar).length +
        (wireChanged data.initialCollation data.collation wireCollation).length +
          (wireChanged data.initialLanguage data.language wireBVarchar).length) := by
    simp only [ofNat_add, ofNat_length_wireChanged, ofNat_length_wireBVarchar,
      ofNat_length_wireCollation, hsix]
  rw [SessionRecoveryData.deltaBlockLength, hhead, addStateLengths_eq]
  simp only [SessionRecoveryData.deltaBlock, length_append, Nat.add_assoc]

/-- A count byte, and as many UTF-16 units after it. -/
def IsBVarchar (bs : List UInt8) : Prop :=
  ∃ (count : UInt8) (units : List UInt16), bs = count :: unitsLe units ∧ count.toNat = units.length

theorem isBVarchar_wireBVarchar {value : List Char} (h : (utf16Units value).length ≤ 255) :
    IsBVarchar (wireBVarchar value) := by
  refine ⟨_, utf16Units value, rfl, ?_⟩
  rw [UInt8.toNat_ofNat']
  omega

theorem isBVarchar_wireChanged {initial current : List Char}
    (h : (utf16Units current).length ≤ 255) :
    IsBVarchar (wireChanged initial current wireBVarchar) := by
  unfold wireChanged
  split
  · exact ⟨0, [], rfl, rfl⟩
  · exact isBVarchar_wireBVarchar h

namespace SessionRecoveryData

/-- A changed collation is not the default one, and the bytes of the feature fit the length
fields. -/
structure Sendable (data : SessionRecoveryData) : Prop where
  collation : data.collation = data.initialCollation ∨ data.collation ≠ .default
  size : 13 + data.initialBlock.length + data.deltaBlock.length < 2 ^ 31

variable {data : SessionRecoveryData}

theorem Sendable.toNat_initialBlockLength (h : data.Sendable) :
    data.initialBlockLength.toNat = data.initialBlock.length := by
  have hsize := h.size
  rw [initialBlockLength_eq, toNat_ofNat']
  omega

theorem Sendable.toNat_deltaBlockLength (h : data.Sendable) :
    data.deltaBlockLength.toNat = data.deltaBlock.length := by
  have hsize := h.size
  rw [deltaBlockLength_eq h.collation, toNat_ofNat']
  omega

theorem Sendable.toNat_totalDataLength (h : data.Sendable) :
    data.totalDataLength.toNat = 8 + data.initialBlock.length + data.deltaBlock.length := by
  have hsize := h.size
  simp only [totalDataLength, UInt32.toNat_add, h.toNat_initialBlockLength,
    h.toNat_deltaBlockLength, UInt32.toNat_ofNat]
  omega

/-- The login record counts the identifier and the length field as well. -/
theorem Sendable.toInt_dataLength (h : data.Sendable) :
    (newForReconnection data).dataLength.toInt
      = 5 + (data.totalDataLength.toNat : ℤ) := by
  have hsize := h.size
  have hnat : (1 + 4 + 4 + data.initialBlockLength + 4 + data.deltaBlockLength).toNat
      = 13 + data.initialBlock.length + data.deltaBlock.length := by
    simp only [UInt32.toNat_add, h.toNat_initialBlockLength, h.toNat_deltaBlockLength,
      UInt32.toNat_ofNat]
    omega
  rw [h.toNat_totalDataLength, newForReconnection,
    dataLength]
  show (UInt32.toInt32 _).toBitVec.toInt = _
  rw [UInt32.toBitVec_toInt32, BitVec.toInt_eq_toNat_of_lt, UInt32.toNat_toBitVec, hnat]
  · push_cast
    ring
  · rw [UInt32.toNat_toBitVec, hnat]
    omega

end SessionRecoveryData

/-- **The lengths of the session recovery feature are those of its bytes.**  Behind the identifier
stand the total length and the two blocks behind theirs; `dataLength` is the number of all these
bytes; and each name in a block is behind the count of its units, if a byte can count them. -/
theorem sessionRecovery_lengths (data : SessionRecoveryData) (h : data.Sendable) :
    Emits (newForReconnection data).serialize
        (featureIdentifier ::
          (leBytes 4 (8 + data.initialBlock.length + data.deltaBlock.length) ++
            ((leBytes 4 data.initialBlock.length ++ data.initialBlock) ++
              (leBytes 4 data.deltaBlock.length ++ data.deltaBlock)))) ∧
      (newForReconnection data).dataLength.toInt
        = 5 + (8 + data.initialBlock.length + data.deltaBlock.length) ∧
      data.initialBlockLength.toNat = data.initialBlock.length ∧
      data.deltaBlockLength.toNat = data.deltaBlock.length ∧
      data.totalDataLength.toNat = 8 + data.initialBlock.length + data.deltaBlock.length ∧
      ((utf16Units data.initialDatabase).length ≤ 255 →
        IsBVarchar (wireBVarchar data.initialDatabase)) ∧
      ((utf16Units data.initialLanguage).length ≤ 255 →
        IsBVarchar (wireBVarchar data.initialLanguage)) ∧
      ((utf16Units data.database).length ≤ 255 →
        IsBVarchar (wireChanged data.initialDatabase data.database wireBVarchar)) ∧
      ((utf16Units data.language).length ≤ 255 →
        IsBVarchar (wireChanged data.initialLanguage data.language wireBVarchar)) := by
  refine ⟨?_, ?_, h.toNat_initialBlockLength, h.toNat_deltaBlockLength, h.toNat_totalDataLength,
    isBVarchar_wireBVarchar, isBVarchar_wireBVarchar, isBVarchar_wireChanged,
    isBVarchar_wireChanged⟩
  · have hbytes := serialize_emits data
    rwa [h.toNat_totalDataLength, h.toNat_initialBlockLength, h.toNat_deltaBlockLength] at hbytes
  · rw [h.toInt_dataLength, h.toNat_totalDataLength]
    rfl

/-- A session that has changed its database, with one state in the baseline and one since. -/
def changedDatabase : SessionRecoveryData where
  initialState := Function.update emptyStateSlots 3 (some ⟨true, 0, [1, 2]⟩)
  delta := Function.update emptyStateSlots 9 (some ⟨true, 7, []⟩)
  initialDatabase := ['m']
  initialLanguage := []
  initialCollation := ⟨0x00D00409, 0x0409, 0x0D, 52⟩
  database := ['d', 'b']
  language := []
  collation := ⟨0x00D00409, 0x0409, 0x0D, 52⟩

theorem changedDatabase_sendable : changedDatabase.Sendable where
  collation := .inl rfl
  size := by decide +kernel

theorem sessionRecovery_lengths_changedDatabase :
    changedDatabase.totalDataLength.toNat
      = 8 + changedDatabase.initialBlock.length + changedDatabase.deltaBlock.length :=
  (sessionRecovery_lengths changedDatabase changedDatabase_sendable).2.2.2.2.1

/-- `dataLength` counts the identifier and the length field, so it is not the number of the bytes
behind them. -/
theorem dataLength_counts_header :
    ∃ bs, Emits (newForReconnection changedDatabase).serialize bs ∧
      ((bs.drop 5).length : ℤ)
        ≠ (newForReconnection changedDatabase).dataLength.toInt := by
  refine ⟨_, serialize_emits changedDatabase, ?_⟩
  decide +kernel

end MssqlTds
