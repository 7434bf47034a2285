import MssqlTds.Datatypes.Decoder
import MssqlTds.Io.UnicodeReader

/-!
# Reading a `TYPE_INFO`

`readTypeInfo` reads what follows a type byte in the token stream.  Which fields there are depends
on the type: nothing for a fixed-length type, a scale for the newer temporal types, and otherwise a
length of one, two or four bytes, with a precision and a scale or with a collation behind it.  A
character or binary type of two-byte length becomes partially length-prefixed if its length is all
ones.

The schema of an xml column and the assembly of a CLR type are read and dropped.

* `Returned` : what can be read, apart from vectors and partially length-prefixed types.
* `returned_of_readTypeInfo` : nothing else is.
-/

namespace MssqlTds

open Bytes Reader TypesIn List

def VariableLengthTypes.getLenByteCount (t : VariableLengthTypes) : ℕ :=
  match t.val with
  | .bigVarBinary | .bigVarChar | .bigBinary | .bigChar | .nVarChar | .nChar | .vector => 2
  | .image | .nText | .ssVariant | .text => 4
  | _ => 1

def getVariableLength (t : VariableLengthTypes) : TdsReader ℕ :=
  match t.getLenByteCount with
  | 1 => UInt8.toNat <$> readByte
  | 2 => UInt16.toNat <$> readUint16
  | 4 => do
    let length ← readInt32
    if length < 0 then
      throw (.protocolError (s!"Invalid length value {length} for data type {t.val.name}. " ++
        "Length cannot be negative."))
    else pure length.toNatClampNeg
  | other => throw (.protocolError
      (s!"Invalid TDS length byte count {other} for data type {t.val.name}. " ++
        "Expected 1, 2, or 4 bytes."))

/-- A collation; five bytes always make one. -/
def readCollation : TdsReader (Option SqlCollation) := do
  let bytes ← readBytes 5
  pure (SqlCollation.tryFrom bytes).toOption

def readVarLenTypeInfo (t : VariableLengthTypes) : TdsReader TypeInfo :=
  match t.val with
  | .timeN => do
    let scale ← readByte
    let length ← liftReader (getTimeLengthFromScale scale)
    pure ⟨t.val, length, .varLenScale t scale⟩
  | .dateTime2N => do
    let scale ← readByte
    let timeLength ← liftReader (getTimeLengthFromScale scale)
    pure ⟨t.val, timeLength + 3, .varLenScale t scale⟩
  | .dateTimeOffsetN => do
    let scale ← readByte
    let timeLength ← liftReader (getTimeLengthFromScale scale)
    pure ⟨t.val, timeLength + 3 + 2, .varLenScale t scale⟩
  | .vector => do
    let length ← readUint16
    let baseTypeByte ← readByte
    let _ ← liftReader (GenericDecoder.vectorBaseType baseTypeByte)
    pure ⟨t.val, length.toNat, .varLenScale t baseTypeByte⟩
  | .moneyN | .dateTimeN | .intN | .fltN | .guid | .bitN => do
    let length ← readByte
    pure ⟨t.val, length.toNat, .varLen t length.toNat⟩
  | .dateN => pure ⟨t.val, 3, .varLen t 3⟩
  | .decimalN | .numericN | .decimal | .numeric => do
    -- a length of one byte, as for every decimal type
    let length ← readByte
    let precision ← readByte
    let scale ← readByte
    pure ⟨t.val, length.toNat, .varLenPrecisionScale t length.toNat precision scale⟩
  | .bigChar | .bigVarChar | .text | .nText | .nChar | .nVarChar => do
    let length ← getVariableLength t
    let collation ← readCollation
    pure ⟨t.val, length, .varLenString t length collation⟩
  | .image | .bigVarBinary | .bigBinary | .ssVariant => do
    let length ← getVariableLength t
    pure ⟨t.val, length, .varLen t length⟩
  | other => throw (.protocolError (s!"Unsupported TDS type for TypeInfo::read(): {other.name}. " ++
      "This type is not yet implemented."))

/-- The types with a partially length-prefixed form, which a length of all ones selects. -/
def TypeInfo.orPlp (info : TypeInfo) : TdsReader TypeInfo :=
  if info.tdsType ∈ [.bigVarChar, .bigVarBinary, .nVarChar] ∧ info.length = 0xFFFF then do
    let plpType ← liftReader (tryFrom info.tdsType)
    match info.typeInfoVariant with
    | .varLenString _ _ collation => pure { info with
        typeInfoVariant := .partialLen plpType (some info.length) collation }
    | .varLen _ _ => pure { info with
        typeInfoVariant := .partialLen plpType (some info.length) none }
    | other => throw (.protocolError
        (s!"Data type {info.tdsType.name} reported an unknown length " ++
          s!"(0xFFFF) with unsupported type info {other.debug}"))
  else pure info

def readPartialLenTypeInfo (t : PartialLengthType) : TdsReader TypeInfo :=
  match t.val with
  | .udt => do
    let length ← readUint16
    let _dbName ← readVarcharU8Length
    let _schemaName ← readVarcharU8Length
    let _typeName ← readVarcharU8Length
    match ← readVarcharU16Length with
    | some _ => pure ⟨t.val, length.toNat, .partialLen t (some length.toNat) none⟩
    | none => throw (.protocolError "Missing UDT assembly qualified name")
  | .json => pure ⟨t.val, 0xFFFF, .partialLen t none none⟩
  | .xml => do
    let schemaPresent ← readByte
    if schemaPresent = 0x01 then
      let _dbName ← readVarcharU8Length
      let _owningSchema ← readVarcharU8Length
      let _xmlSchemaCollection ← readVarcharU16Length
      pure ⟨t.val, 0xFFFF, .partialLen t none none⟩
    else pure ⟨t.val, 0xFFFF, .partialLen t none none⟩
  | _ => throw (.panic "We shouldn't have reached here with a PLP type that is not UDT")

/-- What follows a type byte. -/
def readTypeInfo (dataType : TdsDataType) : TdsReader TypeInfo :=
  if dataType = .void then
    throw (.protocolError ("Void data type (0x1F) is not supported in column metadata. This " ++
      "typically indicates malformed or invalid token stream."))
  else match (tryFrom dataType : TdsResult FixedLengthTypes) with
    | .ok t => pure ⟨dataType, FixedLengthTypes.getLen t, .fixedLen t⟩
    | .error _ => match (tryFrom dataType : TdsResult VariableLengthTypes) with
      | .ok t => do
        let typeInfo ← readVarLenTypeInfo t
        typeInfo.orPlp
      | .error _ => match (tryFrom dataType : TdsResult PartialLengthType) with
        | .ok t => readPartialLenTypeInfo t
        | .error _ => throw (.protocolError
            (s!"Unsupported TDS data type in TYPE_INFO stream: {dataType.name}. " ++
              "No variable-length encoding known for this type."))

/-! ### What can be read -/

/-- The length has a value its bytes can have; a four-byte length is not negative. -/
def LengthFits (t : VariableLengthTypes) (length : ℕ) : Prop :=
  match t.getLenByteCount with
  | 1 => length < 2 ^ 8
  | 2 => length < 2 ^ 16
  | _ => length < 2 ^ 31

def bytesBehindTime : TdsDataType → ℕ
  | .dateTime2N => 3
  | .dateTimeOffsetN => 5
  | _ => 0

/-- What `readTypeInfo` returns, apart from vectors and partially length-prefixed types. -/
inductive Returned : TypeInfo → Prop
  | fixedLen (t : FixedLengthTypes) : Returned ⟨t.val, FixedLengthTypes.getLen t, .fixedLen t⟩
  | scale (t : VariableLengthTypes) (scale : UInt8) (timeLength : ℕ)
      (ht : t.val ∈ [.timeN, .dateTime2N, .dateTimeOffsetN])
      (hscale : getTimeLengthFromScale scale = .ok timeLength) :
      Returned ⟨t.val, timeLength + bytesBehindTime t.val, .varLenScale t scale⟩
  | byteLen (t : VariableLengthTypes) (length : UInt8)
      (ht : t.val ∈ [.moneyN, .dateTimeN, .intN, .fltN, .guid, .bitN]) :
      Returned ⟨t.val, length.toNat, .varLen t length.toNat⟩
  | date (t : VariableLengthTypes) (ht : t.val = .dateN) : Returned ⟨t.val, 3, .varLen t 3⟩
  | precisionScale (t : VariableLengthTypes) (length precision scale : UInt8)
      (ht : t.val ∈ [.decimalN, .numericN, .decimal, .numeric]) :
      Returned ⟨t.val, length.toNat, .varLenPrecisionScale t length.toNat precision scale⟩
  | string (t : VariableLengthTypes) (length : ℕ) (bytes : List UInt8)
      (ht : t.val ∈ [.bigChar, .bigVarChar, .text, .nText, .nChar, .nVarChar])
      (hlength : LengthFits t length) (hbytes : bytes.length = 5)
      (hplp : ¬ (t.val ∈ [.bigVarChar, .bigVarBinary, .nVarChar] ∧ length = 0xFFFF)) :
      Returned ⟨t.val, length, .varLenString t length (SqlCollation.tryFrom bytes).toOption⟩
  | binary (t : VariableLengthTypes) (length : ℕ)
      (ht : t.val ∈ [.image, .bigVarBinary, .bigBinary, .ssVariant])
      (hlength : LengthFits t length)
      (hplp : ¬ (t.val ∈ [.bigVarChar, .bigVarBinary, .nVarChar] ∧ length = 0xFFFF)) :
      Returned ⟨t.val, length, .varLen t length⟩

variable {q r : List UInt8}

theorem getLenByteCount_cases (t : VariableLengthTypes) :
    t.getLenByteCount = 1 ∨ t.getLenByteCount = 2 ∨ t.getLenByteCount = 4 := by
  unfold VariableLengthTypes.getLenByteCount
  split <;> simp

variable {t : VariableLengthTypes}

theorem lengthFits_of_getVariableLength {length : ℕ}
    (h : getVariableLength t q = .ok (length, r)) : LengthFits t length := by
  unfold getVariableLength at h
  unfold LengthFits
  obtain hcount | hcount | hcount := getLenByteCount_cases t
  iterate 2
    · simp only [hcount] at h ⊢
      obtain ⟨n, -, rfl⟩ := map_eq_ok.mp h
      exact n.toNat_lt
  · simp only [hcount] at h ⊢
    obtain ⟨n, s, -, hn⟩ := bind_eq_ok.mp h
    split at hn
    · cases hn
    · cases hn
      have hlt := n.toInt_lt
      simp only [Int32.toNatClampNeg]
      omega

/-- A partially length-prefixed type. -/
def TypeInfo.IsPlp (info : TypeInfo) : Prop :=
  ∃ t length collation, info.typeInfoVariant = .partialLen t length collation

/-- A length of all ones makes a type partially length-prefixed, any other leaves it as it is. -/
theorem orPlp_eq {info info' : TypeInfo} (h : info.orPlp q = .ok (info', r))
    (hplp : ¬ info'.IsPlp) :
    info' = info ∧ r = q ∧
      ¬ (info.tdsType ∈ [.bigVarChar, .bigVarBinary, .nVarChar] ∧ info.length = 0xFFFF) := by
  by_cases hones : info.tdsType ∈ [.bigVarChar, .bigVarBinary, .nVarChar] ∧ info.length = 0xFFFF
  · rw [TypeInfo.orPlp, if_pos hones] at h
    obtain ⟨plpType, s, -, hrest⟩ := bind_eq_ok.mp h
    cases hvariant : info.typeInfoVariant with
    | varLenString _ _ _ | varLen _ _ =>
      rw [hvariant] at hrest
      cases hrest
      exact absurd ⟨_, _, _, rfl⟩ hplp
    | _ =>
      rw [hvariant] at hrest
      cases hrest
  · rw [TypeInfo.orPlp, if_neg hones] at h
    cases h
    exact ⟨rfl, rfl, hones⟩

/-! One equation for each group of types. -/

section Groups

variable {t : VariableLengthTypes}

theorem readVarLenTypeInfo_scale (ht : t.val ∈ [.timeN, .dateTime2N, .dateTimeOffsetN]) :
    readVarLenTypeInfo t = (do
      let scale ← readByte
      let timeLength ← liftReader (getTimeLengthFromScale scale)
      pure ⟨t.val, timeLength + bytesBehindTime t.val, .varLenScale t scale⟩) := by
  obtain ⟨t, hmem⟩ := t
  simp only [mem_cons, not_mem_nil, or_false] at ht
  rcases ht with rfl | rfl | rfl <;> rfl

theorem readVarLenTypeInfo_byteLen
    (ht : t.val ∈ [.moneyN, .dateTimeN, .intN, .fltN, .guid, .bitN]) :
    readVarLenTypeInfo t = (do
      let length ← readByte
      pure ⟨t.val, length.toNat, .varLen t length.toNat⟩) := by
  obtain ⟨t, hmem⟩ := t
  simp only [mem_cons, not_mem_nil, or_false] at ht
  rcases ht with rfl | rfl | rfl | rfl | rfl | rfl <;> rfl

theorem readVarLenTypeInfo_date (ht : t.val = .dateN) :
    readVarLenTypeInfo t = pure ⟨t.val, 3, .varLen t 3⟩ := by
  obtain ⟨t, hmem⟩ := t
  obtain rfl : t = .dateN := ht
  rfl

theorem readVarLenTypeInfo_precisionScale
    (ht : t.val ∈ [.decimalN, .numericN, .decimal, .numeric]) :
    readVarLenTypeInfo t = (do
      let length ← readByte
      let precision ← readByte
      let scale ← readByte
      pure ⟨t.val, length.toNat, .varLenPrecisionScale t length.toNat precision scale⟩) := by
  obtain ⟨t, hmem⟩ := t
  simp only [mem_cons, not_mem_nil, or_false] at ht
  rcases ht with rfl | rfl | rfl | rfl <;> rfl

theorem readVarLenTypeInfo_string
    (ht : t.val ∈ [.bigChar, .bigVarChar, .text, .nText, .nChar, .nVarChar]) :
    readVarLenTypeInfo t = (do
      let length ← getVariableLength t
      let collation ← readCollation
      pure ⟨t.val, length, .varLenString t length collation⟩) := by
  obtain ⟨t, hmem⟩ := t
  simp only [mem_cons, not_mem_nil, or_false] at ht
  rcases ht with rfl | rfl | rfl | rfl | rfl | rfl <;> rfl

theorem readVarLenTypeInfo_binary (ht : t.val ∈ [.image, .bigVarBinary, .bigBinary, .ssVariant]) :
    readVarLenTypeInfo t = (do
      let length ← getVariableLength t
      pure ⟨t.val, length, .varLen t length⟩) := by
  obtain ⟨t, hmem⟩ := t
  simp only [mem_cons, not_mem_nil, or_false] at ht
  rcases ht with rfl | rfl | rfl | rfl <;> rfl

/-- The remaining types are vectors, and the ones that are not implemented. -/
theorem readVarLenTypeInfo_other
    (ht : t.val ∈ [.char, .varChar, .binary, .varBinary]) :
    ∃ error, readVarLenTypeInfo t = throw error := by
  obtain ⟨t, hmem⟩ := t
  simp only [mem_cons, not_mem_nil, or_false] at ht
  rcases ht with rfl | rfl | rfl | rfl <;> exact ⟨_, rfl⟩

/-- Every variable-length type is in one of the groups. -/
theorem group_cases (t : VariableLengthTypes) :
    t.val ∈ [.timeN, .dateTime2N, .dateTimeOffsetN] ∨
    t.val ∈ [.moneyN, .dateTimeN, .intN, .fltN, .guid, .bitN] ∨ t.val = .dateN ∨
    t.val ∈ [.decimalN, .numericN, .decimal, .numeric] ∨
    t.val ∈ [.bigChar, .bigVarChar, .text, .nText, .nChar, .nVarChar] ∨
    t.val ∈ [.image, .bigVarBinary, .bigBinary, .ssVariant] ∨
    t.val ∈ [.char, .varChar, .binary, .varBinary] ∨ t.val = .vector := by
  obtain ⟨t, hmem⟩ := t
  revert hmem
  cases t <;> decide

end Groups

variable {info : TypeInfo}

/-- **Nothing else is read** by way of a variable-length type. -/
theorem returned_of_readVarLenTypeInfo
    (h : readVarLenTypeInfo t q = .ok (info, r)) (hvector : t.val ≠ .vector)
    (hplp : ¬ (info.tdsType ∈ [.bigVarChar, .bigVarBinary, .nVarChar] ∧ info.length = 0xFFFF)) :
    Returned info ∧ info.tdsType = t.val := by
  obtain ht | ht | ht | ht | ht | ht | ht | ht := group_cases t
  · rw [readVarLenTypeInfo_scale ht] at h
    obtain ⟨scale, s, -, h⟩ := bind_eq_ok.mp h
    obtain ⟨timeLength, s', hlength, h⟩ := bind_eq_ok.mp h
    cases hscale : getTimeLengthFromScale scale with
    | error error => rw [hscale] at hlength; cases hlength
    | ok n =>
      rw [hscale] at hlength
      cases hlength
      cases h
      exact ⟨.scale t scale _ ht hscale, rfl⟩
  · rw [readVarLenTypeInfo_byteLen ht] at h
    obtain ⟨length, s, -, h⟩ := bind_eq_ok.mp h
    cases h
    exact ⟨.byteLen t length ht, rfl⟩
  · rw [readVarLenTypeInfo_date ht] at h
    cases h
    exact ⟨.date t ht, rfl⟩
  · rw [readVarLenTypeInfo_precisionScale ht] at h
    obtain ⟨length, s, -, h⟩ := bind_eq_ok.mp h
    obtain ⟨precision, s', -, h⟩ := bind_eq_ok.mp h
    obtain ⟨scale, s'', -, h⟩ := bind_eq_ok.mp h
    cases h
    exact ⟨.precisionScale t length precision scale ht, rfl⟩
  · rw [readVarLenTypeInfo_string ht] at h
    obtain ⟨length, s, hlength, h⟩ := bind_eq_ok.mp h
    obtain ⟨collation, s', hcollation, h⟩ := bind_eq_ok.mp h
    obtain ⟨bytes, s'', hbytes, hpure⟩ := bind_eq_ok.mp hcollation
    cases hpure
    cases h
    exact ⟨.string t length bytes ht (lengthFits_of_getVariableLength hlength)
      (readBytes_eq_ok.mp hbytes).2 hplp, rfl⟩
  · rw [readVarLenTypeInfo_binary ht] at h
    obtain ⟨length, s, hlength, h⟩ := bind_eq_ok.mp h
    cases h
    exact ⟨.binary t length ht (lengthFits_of_getVariableLength hlength) hplp, rfl⟩
  · obtain ⟨error, herror⟩ := readVarLenTypeInfo_other ht
    rw [herror] at h
    cases h
  · exact absurd ht hvector

theorem val_of_tryFrom {ts : List TdsDataType} {t : TdsDataType} {u : TypesIn ts}
    (h : tryFrom t = .ok u) : u.val = t := by
  unfold tryFrom at h
  split at h
  · cases h
    rfl
  · cases h

theorem isPlp_of_readPartialLenTypeInfo {t : PartialLengthType}
    (h : readPartialLenTypeInfo t q = .ok (info, r)) : info.IsPlp := by
  obtain ⟨t, hmem⟩ := t
  simp only [mem_cons, not_mem_nil, or_false] at hmem
  rcases hmem with rfl | rfl | rfl | rfl | rfl | rfl
  · obtain ⟨schemaPresent, s, -, h⟩ := bind_eq_ok.mp h
    split at h
    · obtain ⟨dbName, s, -, h⟩ := bind_eq_ok.mp h
      obtain ⟨owningSchema, s, -, h⟩ := bind_eq_ok.mp h
      obtain ⟨collection, s, -, h⟩ := bind_eq_ok.mp h
      cases h
      exact ⟨_, _, _, rfl⟩
    · cases h
      exact ⟨_, _, _, rfl⟩
  · cases h
  · cases h
  · cases h
  · obtain ⟨length, s, -, h⟩ := bind_eq_ok.mp h
    obtain ⟨dbName, s, -, h⟩ := bind_eq_ok.mp h
    obtain ⟨schemaName, s, -, h⟩ := bind_eq_ok.mp h
    obtain ⟨typeName, s, -, h⟩ := bind_eq_ok.mp h
    obtain ⟨assembly, s, -, h⟩ := bind_eq_ok.mp h
    cases assembly with
    | some name =>
      cases h
      exact ⟨_, _, _, rfl⟩
    | none => cases h
  · cases h
    exact ⟨_, _, _, rfl⟩

/-- **Nothing else is read**, apart from vectors and partially length-prefixed types. -/
theorem returned_of_readTypeInfo {dataType : TdsDataType}
    (h : readTypeInfo dataType q = .ok (info, r)) (hvector : dataType ≠ .vector)
    (hplp : ¬ info.IsPlp) : Returned info ∧ info.tdsType = dataType := by
  by_cases hvoid : dataType = .void
  · rw [readTypeInfo, if_pos hvoid] at h
    cases h
  rw [readTypeInfo, if_neg hvoid] at h
  cases hfixed : (tryFrom dataType : TdsResult FixedLengthTypes) with
  | ok t =>
    rw [hfixed] at h
    cases h
    obtain rfl := val_of_tryFrom hfixed
    exact ⟨.fixedLen t, rfl⟩
  | error error =>
    rw [hfixed] at h
    cases hvar : (tryFrom dataType : TdsResult VariableLengthTypes) with
    | ok t =>
      rw [hvar] at h
      obtain rfl := val_of_tryFrom hvar
      obtain ⟨typeInfo, s, hread, hor⟩ := bind_eq_ok.mp h
      obtain ⟨rfl, rfl, hones⟩ := orPlp_eq hor hplp
      exact returned_of_readVarLenTypeInfo hread hvector hones
    | error error =>
      rw [hvar] at h
      cases hpart : (tryFrom dataType : TdsResult PartialLengthType) with
      | ok t =>
        rw [hpart] at h
        exact absurd (isPlp_of_readPartialLenTypeInfo h) hplp
      | error error =>
        rw [hpart] at h
        cases h

/-! ### Reading what was written -/

theorem reads_getVariableLength {length : ℕ} (h : LengthFits t length) :
    Reads (getVariableLength t) (leBytes t.getLenByteCount length) length := by
  unfold LengthFits at h
  unfold getVariableLength
  obtain hcount | hcount | hcount := getLenByteCount_cases t
  · simp only [hcount] at h ⊢
    have hnat : (UInt8.ofNat length).toNat = length := by
      rw [UInt8.toNat_ofNat', Nat.mod_eq_of_lt h]
    have hread := (reads_readByte (UInt8.ofNat length)).map UInt8.toNat
    rwa [hnat] at hread
  · simp only [hcount] at h ⊢
    have hnat : (UInt16.ofNat length).toNat = length := by
      rw [UInt16.toNat_ofNat', Nat.mod_eq_of_lt h]
    have hread := (reads_readUint16 length).map UInt16.toNat
    rwa [hnat] at hread
  · simp only [hcount] at h ⊢
    have hnat : (Int32.ofNat length).toUInt32.toNat = length := by
      rw [Int32.toUInt32_ofNat', UInt32.toNat_ofNat', Nat.mod_eq_of_lt (by omega)]
    have hint : (Int32.ofNat length).toInt = length := Int32.toInt_ofNat_of_lt h
    have hread := reads_readInt32 (Int32.ofNat length)
    rw [hnat] at hread
    refine hread.bind_pure ?_
    rw [if_neg (by rw [Int32.lt_iff_toInt_lt, hint]; simp), Int32.toNatClampNeg, hint,
      Int.toNat_natCast]

def collationBytes (collation : SqlCollation) : List UInt8 :=
  leBytes 4 collation.info.toNat ++ [collation.sortId]

theorem collationBytes_of_tryFrom {bytes : List UInt8} (h : bytes.length = 5) :
    ∃ collation, SqlCollation.tryFrom bytes = .ok collation ∧ collationBytes collation = bytes := by
  rw [SqlCollation.tryFrom, if_neg (not_not.mpr h)]
  refine ⟨_, rfl, ?_⟩
  have htake : (bytes.take 4).length = 4 := by rw [length_take, h]; rfl
  have hlt : ofLe (bytes.take 4) < 2 ^ 32 := by
    have := ofLe_lt (bytes.take 4)
    rwa [htake] at this
  have hinfo : leBytes 4 (ofLe (bytes.take 4)) = bytes.take 4 := by
    have := leBytes_ofLe (bytes.take 4)
    rwa [htake] at this
  have hlast : [bytes.getD 4 0] = bytes.drop 4 := by
    match bytes, h with
    | [a, b, c, d, e], _ => rfl
  simp only [collationBytes, UInt32.toNat_ofNat', Nat.mod_eq_of_lt hlt, hinfo, hlast,
    take_append_drop]

theorem reads_readCollation {bytes : List UInt8} (h : bytes.length = 5) :
    Reads readCollation bytes (SqlCollation.tryFrom bytes).toOption :=
  (reads_readBytes h).bind_pure rfl

/-- A fixed-length type has nothing behind its type byte. -/
theorem reads_readTypeInfo_fixed (t : FixedLengthTypes) :
    Reads (readTypeInfo t.val) [] ⟨t.val, FixedLengthTypes.getLen t, .fixedLen t⟩ := by
  have hfrom : (tryFrom t.val : TdsResult FixedLengthTypes) = .ok t := dif_pos t.property
  have hvoid : t.val ≠ .void := fun h => absurd (h ▸ t.property) (by decide)
  rw [readTypeInfo, if_neg hvoid, hfrom]
  exact .pure _

/-- A variable-length type is read, and then looked at for a length of all ones. -/
theorem reads_readTypeInfo_orPlp {bs : List UInt8} {info info' : TypeInfo}
    (h : Reads (readVarLenTypeInfo t) bs info) (hplp : info.orPlp = pure info') :
    Reads (readTypeInfo t.val) bs info' := by
  have hfrom : (tryFrom t.val : TdsResult VariableLengthTypes) = .ok t := dif_pos t.property
  have hvoid : t.val ≠ .void := fun h => absurd (h ▸ t.property) (by decide)
  have hfixed : ∃ error, (tryFrom t.val : TdsResult FixedLengthTypes) = .error error := by
    refine ⟨_, dif_neg ?_⟩
    intro hmem
    have hboth : ∀ u : TdsDataType, u ∈ [.int1, .bit, .int2, .int4, .dateTim4, .flt4, .money4,
        .money, .dateTime, .flt8, .int8] → ∀ v : VariableLengthTypes, v.val ≠ u := by
      intro u hu v hv
      have hv' := v.property
      rw [hv] at hv'
      revert hu hv'
      cases u <;> decide
    exact hboth t.val hmem t rfl
  obtain ⟨error, herror⟩ := hfixed
  rw [readTypeInfo, if_neg hvoid, herror, hfrom]
  exact h.bind_pure hplp

/-- A variable-length type whose length is not all ones is read as such. -/
theorem reads_readTypeInfo_var {bs : List UInt8}
    (h : Reads (readVarLenTypeInfo t) bs info) (ht : info.tdsType = t.val)
    (hones : ¬ (t.val ∈ [.bigVarChar, .bigVarBinary, .nVarChar] ∧ info.length = 0xFFFF)) :
    Reads (readTypeInfo t.val) bs info := by
  refine reads_readTypeInfo_orPlp h ?_
  rw [TypeInfo.orPlp, if_neg (by rwa [ht])]

/-- A character or binary type has either form. -/
theorem exists_orPlp (length : ℕ) {variant : TypeInfoVariant}
    (hvariant : variant = .varLen t length ∨ ∃ c, variant = .varLenString t length c) :
    ∃ info, (⟨t.val, length, variant⟩ : TypeInfo).orPlp = pure info ∧ info.tdsType = t.val ∧
      info.length = length := by
  unfold TypeInfo.orPlp
  by_cases hones : t.val ∈ [.bigVarChar, .bigVarBinary, .nVarChar] ∧ length = 0xFFFF
  · rw [if_pos hones]
    have hplp : t.val ∈ [.xml, .bigVarChar, .bigVarBinary, .nVarChar, .udt, .json] := by
      obtain ⟨hmem, -⟩ := hones
      revert hmem
      cases t.val <;> decide
    have hfrom : (tryFrom t.val : TdsResult PartialLengthType) = .ok ⟨t.val, hplp⟩ :=
      dif_pos hplp
    rw [hfrom]
    obtain rfl | ⟨c, rfl⟩ := hvariant
    · exact ⟨_, rfl, rfl, rfl⟩
    · exact ⟨_, rfl, rfl, rfl⟩
  · rw [if_neg hones]
    exact ⟨_, rfl, rfl, rfl⟩

end MssqlTds
