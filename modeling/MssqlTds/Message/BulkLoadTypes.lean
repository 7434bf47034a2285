import MssqlTds.Io.Transfer
import MssqlTds.Message.BulkLoad

/-!
# Types in the bulk load metadata

The metadata of a bulk load gives the type of each column and, for an encrypted column, the type
before encryption.  Both are written in the form that `readTypeInfo` reads.

* `transfers_writeBaseTypeFields` : the type before encryption is written by a hand-written inverse
  of `readTypeInfo`.
* `exists_transfers_writeTypeInfoInternal` : the types of columns that read back.  The others are
  the legacy large objects, whose table name the client sends in one part without a count of parts,
  the json type, whose schema byte the parser does not expect, and the types that one of the two
  sides does not know.
-/

namespace MssqlTds

open Bytes Unicode Reader PacketWriter List

namespace StreamingBulkLoadWriter

/-! ### Types by the fields behind the code -/

section Fields

variable {t : VariableLengthTypes}

/-- A type outside the ones with two forms is read as it is. -/
theorem transfers_var {m : WriterM Unit} {info : TypeInfo}
    (h : Transfers m (readVarLenTypeInfo t) info) (ht : info.tdsType = t.val)
    (hform : t.val ∉ [.bigVarChar, .bigVarBinary, .nVarChar]) :
    Transfers m (readTypeInfo t.val) info := by
  obtain ⟨bs, hm, hr⟩ := h
  exact ⟨bs, hm, reads_readTypeInfo_var hr ht fun hones => hform hones.1⟩

theorem transfers_scale {scale : UInt8} {n : ℕ}
    (ht : t.val ∈ [.timeN, .dateTime2N, .dateTimeOffsetN])
    (hscale : getTimeLengthFromScale scale = .ok n) :
    Transfers (writeByteAsync scale) (readTypeInfo t.val)
      ⟨t.val, n + bytesBehindTime t.val, .varLenScale t scale⟩ := by
  refine transfers_var ?_ rfl (by revert ht; cases t.val <;> decide)
  rw [readVarLenTypeInfo_scale ht]
  refine (transfers_byte scale).bind_pure ?_
  rw [hscale]
  rfl

theorem transfers_byteLen (ht : t.val ∈ [.moneyN, .dateTimeN, .intN, .fltN, .guid, .bitN])
    (length : UInt8) : Transfers (writeByteAsync length) (readTypeInfo t.val)
      ⟨t.val, length.toNat, .varLen t length.toNat⟩ := by
  refine transfers_var ?_ rfl (by revert ht; cases t.val <;> decide)
  rw [readVarLenTypeInfo_byteLen ht]
  exact (transfers_byte length).bind_pure rfl

theorem transfers_date (ht : t.val = .dateN) :
    Transfers (pure ()) (readTypeInfo t.val) ⟨t.val, 3, .varLen t 3⟩ := by
  refine transfers_var ?_ rfl (by rw [ht]; decide)
  rw [readVarLenTypeInfo_date ht]
  exact .pure _

theorem transfers_precisionScale (ht : t.val ∈ [.decimalN, .numericN, .decimal, .numeric])
    (length precision scale : UInt8) :
    Transfers (writeByteAsync length >>= fun _ => writeByteAsync precision >>= fun _ =>
        writeByteAsync scale) (readTypeInfo t.val)
      ⟨t.val, length.toNat, .varLenPrecisionScale t length.toNat precision scale⟩ := by
  refine transfers_var ?_ rfl (by revert ht; cases t.val <;> decide)
  rw [readVarLenTypeInfo_precisionScale ht]
  exact (transfers_byte length).bind
    ((transfers_byte precision).bind ((transfers_byte scale).bind_pure rfl))

end Fields

/-! ### The type before encryption -/

variable {t : VariableLengthTypes}

theorem transfers_writeTypeLength {length : ℕ} (h : LengthFits t length) :
    Transfers (writeTypeLength t length) (getVariableLength t) length := by
  refine ⟨_, ?_, reads_getVariableLength h⟩
  unfold writeTypeLength
  obtain hcount | hcount | hcount := getLenByteCount_cases t
  · simp only [hcount]
    exact Emits.byte _
  · simp only [hcount]
    exact writeLen16_emits length
  · simp only [hcount]
    exact writeLen32_emits length

theorem transfers_writeCollationBytes {bytes : List UInt8} (h : bytes.length = 5) :
    Transfers (writeCollationBytes (SqlCollation.tryFrom bytes).toOption) readCollation
      (SqlCollation.tryFrom bytes).toOption := by
  obtain ⟨collation, hcollation, hbytes⟩ := collationBytes_of_tryFrom h
  refine ⟨bytes, ?_, reads_readCollation h⟩
  rw [hcollation]
  refine emits_of_eq ?_ hbytes
  exact (Emits.u32 collation.info).bind (Emits.byte collation.sortId)

/-- A one-byte length, as the types have it that are read with `readByte`. -/
theorem writeTypeLength_byte
    (h : t.val ∈ [.moneyN, .dateTimeN, .intN, .fltN, .guid, .bitN] ∨
      t.val ∈ [.decimalN, .numericN, .decimal, .numeric])
    (length : UInt8) : writeTypeLength t length.toNat = writeByteAsync length := by
  have hcount : t.getLenByteCount = 1 := by
    obtain ⟨t, hmem⟩ := t
    revert hmem h
    cases t <;> decide
  unfold writeTypeLength
  simp only [hcount, UInt8.ofNat_toNat]

/-- **The base type is read back** if it is one that the reader can return at all. -/
theorem transfers_writeBaseTypeFields {info : TypeInfo} (h : Returned info) :
    Transfers (writeBaseTypeFields info.tdsType info) (readTypeInfo info.tdsType) info := by
  cases h with
  | fixedLen t => exact ⟨[], Emits.pure, reads_readTypeInfo_fixed t⟩
  | scale t scale timeLength ht hscale => exact transfers_scale ht hscale
  | byteLen t length ht =>
    have hdate : t.val ≠ .dateN := by
      intro hdate
      rw [hdate] at ht
      revert ht
      decide
    unfold writeBaseTypeFields
    simp only [if_neg hdate, writeTypeLength_byte (.inl ht)]
    exact transfers_byteLen ht length
  | date t ht =>
    unfold writeBaseTypeFields
    simp only [if_pos ht]
    exact transfers_date ht
  | precisionScale t length precision scale ht =>
    unfold writeBaseTypeFields
    simp only [writeTypeLength_byte (.inr ht)]
    exact transfers_precisionScale ht length precision scale
  | string t length bytes ht hlength hbytes hplp =>
    have hfields : Transfers (writeBaseTypeFields t.val
        ⟨t.val, length, .varLenString t length (SqlCollation.tryFrom bytes).toOption⟩)
        (readVarLenTypeInfo t)
        ⟨t.val, length, .varLenString t length (SqlCollation.tryFrom bytes).toOption⟩ := by
      rw [readVarLenTypeInfo_string ht]
      exact (transfers_writeTypeLength hlength).bind
        ((transfers_writeCollationBytes hbytes).bind_pure rfl)
    obtain ⟨bs, hm, hr⟩ := hfields
    exact ⟨bs, hm, reads_readTypeInfo_var hr rfl hplp⟩
  | binary t length ht hlength hplp =>
    have hdate : t.val ≠ .dateN := by
      intro hdate
      rw [hdate] at ht
      revert ht
      decide
    obtain ⟨bs, hm, hr⟩ := transfers_writeTypeLength hlength
    refine ⟨bs, ?_, reads_readTypeInfo_var ?_ rfl hplp⟩
    · unfold writeBaseTypeFields
      simp only [if_neg hdate]
      exact hm
    · rw [readVarLenTypeInfo_binary ht]
      exact hr.bind_pure rfl

end StreamingBulkLoadWriter

/-! ### The type of a column -/

/-- The types of columns that are described in the form the parser reads. -/
def plainTypes : List TdsDataType :=
  [.decimal, .numeric, .decimalN, .numericN, .int1, .bit, .int2, .int4, .dateTim4, .flt4, .money,
    .dateTime, .flt8, .int8, .intN, .fltN, .bitN, .moneyN, .dateTimeN, .guid, .bigVarChar, .bigChar,
    .nVarChar, .nChar, .bigVarBinary, .bigBinary, .xml, .timeN, .dateTime2N, .dateTimeOffsetN,
    .dateN, .ssVariant, .vector]

/-- A column with a description that the parser reads. -/
structure Describable (column : BulkCopyColumnMetadata) (t : TdsDataType) : Prop where
  code : column.tdsType = t.code
  plain : t ∈ plainTypes
  scale : t ∈ [.timeN, .dateTime2N, .dateTimeOffsetN] → column.scale ≤ 7
  length : t = .ssVariant → 0 ≤ column.length
  baseType : t = .vector → column.scale = 0 ∨ column.scale = 1
  name : (utf16Units column.columnName.toList).length ≤ 255

namespace StreamingBulkLoadWriter

variable {self : StreamingBulkLoadWriter} {column : BulkCopyColumnMetadata}

theorem lengthFits_u16 {t : VariableLengthTypes} (h : t.getLenByteCount = 2) (n : UInt16) :
    LengthFits t n.toNat := by
  unfold LengthFits
  simp only [h]
  exact n.toNat_lt

/-- A character type is read with its length and its collation. -/
theorem exists_transfers_string {t : VariableLengthTypes} (length : UInt16) (info : UInt32)
    (sortId : UInt8) (ht : t.val ∈ [.bigVarChar, .bigChar, .nVarChar, .nChar]) :
    ∃ typeInfo, Transfers
      (writeU16Async length >>= fun _ => writeU32Async info >>= fun _ => writeByteAsync sortId)
      (readTypeInfo t.val) typeInfo := by
  have hgroup : t.val ∈ [.bigChar, .bigVarChar, .text, .nText, .nChar, .nVarChar] := by
    revert ht
    cases t.val <;> decide
  have hcount : t.getLenByteCount = 2 := by
    obtain ⟨t, hmem⟩ := t
    revert hmem ht
    cases t <;> decide
  have hcollation : Transfers (writeU32Async info >>= fun _ => writeByteAsync sortId) readCollation
      (SqlCollation.tryFrom (leBytes 4 info.toNat ++ [sortId])).toOption :=
    ⟨_, (Emits.u32 info).bind (Emits.byte sortId),
      reads_readCollation (by simp)⟩
  have hlength : Transfers (writeU16Async length) (getVariableLength t) length.toNat := by
    refine ⟨_, Emits.u16 length, ?_⟩
    have hread := reads_getVariableLength (lengthFits_u16 hcount length)
    rwa [hcount] at hread
  have hfields : Transfers
      (writeU16Async length >>= fun _ => writeU32Async info >>= fun _ => writeByteAsync sortId)
      (readVarLenTypeInfo t) ⟨t.val, length.toNat, .varLenString t length.toNat
        (SqlCollation.tryFrom (leBytes 4 info.toNat ++ [sortId])).toOption⟩ := by
    rw [readVarLenTypeInfo_string hgroup]
    exact hlength.bind (hcollation.bind_pure rfl)
  obtain ⟨bs, hm, hr⟩ := hfields
  obtain ⟨typeInfo, hplp, -, -⟩ := exists_orPlp length.toNat (.inr ⟨_, rfl⟩)
  exact ⟨typeInfo, bs, hm, reads_readTypeInfo_orPlp hr hplp⟩

/-- A binary type is read with its length. -/
theorem exists_transfers_binary {t : VariableLengthTypes} (length : UInt16)
    (ht : t.val ∈ [.bigVarBinary, .bigBinary]) :
    ∃ typeInfo, Transfers (writeU16Async length) (readTypeInfo t.val) typeInfo := by
  have hgroup : t.val ∈ [.image, .bigVarBinary, .bigBinary, .ssVariant] := by
    revert ht
    cases t.val <;> decide
  have hcount : t.getLenByteCount = 2 := by
    obtain ⟨t, hmem⟩ := t
    revert hmem ht
    cases t <;> decide
  have hread := reads_getVariableLength (lengthFits_u16 hcount length)
  rw [hcount] at hread
  obtain ⟨typeInfo, hplp, -, -⟩ := exists_orPlp length.toNat (.inl rfl)
  refine ⟨typeInfo, _, Emits.u16 length, reads_readTypeInfo_orPlp ?_ hplp⟩
  rw [readVarLenTypeInfo_binary hgroup]
  exact hread.bind_pure rfl

/-! One equation for each group of types that are written alike. -/

section Groups

variable {t : TdsDataType}

theorem writeTypeInfoInternal_decimal (hcode : column.tdsType = t.code)
    (ht : t ∈ [.decimal, .numeric, .decimalN, .numericN]) :
    self.writeTypeInfoInternal column = (do
      writeByteAsync column.length.toUInt32.toUInt8
      writeByteAsync column.precision
      writeByteAsync column.scale) := by
  simp only [mem_cons, not_mem_nil, or_false] at ht
  unfold writeTypeInfoInternal
  rw [hcode]
  rcases ht with rfl | rfl | rfl | rfl <;> rfl

theorem writeTypeInfoInternal_empty (hcode : column.tdsType = t.code)
    (ht : t ∈ [.int1, .bit, .int2, .int4, .dateTim4, .flt4, .money, .dateTime, .flt8, .int8,
      .dateN]) :
    self.writeTypeInfoInternal column = pure () := by
  simp only [mem_cons, not_mem_nil, or_false] at ht
  unfold writeTypeInfoInternal
  rw [hcode]
  rcases ht with rfl | rfl | rfl | rfl | rfl | rfl | rfl | rfl | rfl | rfl | rfl <;> rfl

/-- The two bytes of the length. -/
def maxLength (column : BulkCopyColumnMetadata) : UInt16 :=
  if column.isPlp then 0xFFFF else column.length.toUInt32.toUInt16

theorem writeMaxLength_eq : writeMaxLength column = writeU16Async (maxLength column) := by
  unfold writeMaxLength maxLength
  split <;> rfl

theorem writeTypeInfoInternal_string (hcode : column.tdsType = t.code)
    (ht : t ∈ [.bigVarChar, .bigChar, .nVarChar, .nChar]) :
    ∃ info sortId, self.writeTypeInfoInternal column = (do
      writeU16Async (maxLength column)
      writeCollationOr column.collation info sortId) := by
  simp only [mem_cons, not_mem_nil, or_false] at ht
  unfold writeTypeInfoInternal
  rw [hcode, writeMaxLength_eq]
  rcases ht with rfl | rfl | rfl | rfl <;> exact ⟨_, _, rfl⟩

theorem writeTypeInfoInternal_binary (hcode : column.tdsType = t.code)
    (ht : t ∈ [.bigVarBinary, .bigBinary]) :
    self.writeTypeInfoInternal column = writeU16Async (maxLength column) := by
  simp only [mem_cons, not_mem_nil, or_false] at ht
  rw [← writeMaxLength_eq]
  unfold writeTypeInfoInternal
  rw [hcode]
  rcases ht with rfl | rfl <;> rfl

theorem writeTypeInfoInternal_scale (hcode : column.tdsType = t.code)
    (ht : t ∈ [.timeN, .dateTime2N, .dateTimeOffsetN]) :
    self.writeTypeInfoInternal column = writeByteAsync column.scale := by
  simp only [mem_cons, not_mem_nil, or_false] at ht
  unfold writeTypeInfoInternal
  rw [hcode]
  rcases ht with rfl | rfl | rfl <;> rfl

end Groups

theorem getTimeLengthFromScale_of_le {scale : UInt8} (h : scale ≤ 7) :
    ∃ n, getTimeLengthFromScale scale = .ok n := by
  unfold getTimeLengthFromScale
  split
  · exact ⟨_, rfl⟩
  · split
    · exact ⟨_, rfl⟩
    · exact ⟨_, rfl⟩

variable {v : VariableLengthTypes}

/-- A variant has a length in four bytes, read as a signed number. -/
theorem transfers_variant (hv : v.val = .ssVariant) {length : Int32}
    (h : 0 ≤ length) : Transfers (writeU32Async length.toUInt32) (readVarLenTypeInfo v)
      ⟨v.val, length.toNatClampNeg, .varLen v length.toNatClampNeg⟩ := by
  have hcount : v.getLenByteCount = 4 := by
    unfold VariableLengthTypes.getLenByteCount
    rw [hv]
  have hlength : Transfers (writeU32Async length.toUInt32) (getVariableLength v)
      length.toNatClampNeg := by
    unfold getVariableLength
    simp only [hcount]
    refine ⟨_, Emits.u32 _, (reads_readInt32 length).bind_pure ?_⟩
    rw [if_neg (Int32.not_lt.mpr h)]
  rw [readVarLenTypeInfo_binary (by rw [hv]; decide)]
  exact hlength.bind_pure rfl

theorem transfers_vector (hv : v.val = .vector) (length : UInt16)
    {baseType : UInt8} (h : baseType = 0 ∨ baseType = 1) :
    Transfers (writeU16Async length >>= fun _ => writeByteAsync baseType) (readVarLenTypeInfo v)
      ⟨v.val, length.toNat, .varLenScale v baseType⟩ := by
  obtain ⟨v, hmem⟩ := v
  obtain rfl : v = .vector := hv
  refine (transfers_u16 length).bind ((transfers_byte baseType).bind_pure ?_)
  obtain rfl | rfl := h <;> rfl

/-- The plain types are fixed-length, variable-length or xml. -/
theorem plain_category {t : TdsDataType} (h : t ∈ plainTypes) :
    (∃ f : FixedLengthTypes, t = f.val ∧ t ∈ [.int1, .bit, .int2, .int4, .dateTim4, .flt4, .money,
        .dateTime, .flt8, .int8, .dateN]) ∨ t = .xml ∨
      ∃ v : VariableLengthTypes, t = v.val := by
  have hmem : (t ∈ [.int1, .bit, .int2, .int4, .dateTim4, .flt4, .money4, .money, .dateTime, .flt8,
        .int8] ∧ t ∈ [.int1, .bit, .int2, .int4, .dateTim4, .flt4, .money, .dateTime, .flt8, .int8,
        .dateN]) ∨ t = .xml ∨
      t ∈ [.guid, .intN, .bitN, .decimal, .numeric, .decimalN, .numericN, .fltN, .moneyN,
        .dateTimeN, .dateN, .timeN, .dateTime2N, .dateTimeOffsetN, .char, .varChar, .binary,
        .varBinary, .bigVarBinary, .bigVarChar, .bigBinary, .bigChar, .nVarChar, .nChar, .text,
        .image, .nText, .ssVariant, .vector] := by
    revert h
    cases t <;> decide
  obtain ⟨hfixed, hwritten⟩ | hxml | hvar := hmem
  · exact .inl ⟨⟨t, hfixed⟩, rfl, hwritten⟩
  · exact .inr (.inl hxml)
  · exact .inr (.inr ⟨⟨t, hvar⟩, rfl⟩)

/-- **The type of a describable column is read back.** -/
theorem exists_transfers_writeTypeInfoInternal {t : TdsDataType} (h : Describable column t) :
    ∃ typeInfo, Transfers (self.writeTypeInfoInternal column) (readTypeInfo t) typeInfo := by
  have hcode := h.code
  have hplain := h.plain
  obtain ⟨f, rfl, hfixed⟩ | rfl | ⟨v, rfl⟩ := plain_category hplain
  · -- a fixed-length type has no fields
    rw [writeTypeInfoInternal_empty hcode hfixed]
    exact ⟨_, [], Emits.pure, reads_readTypeInfo_fixed f⟩
  · have hwrite : self.writeTypeInfoInternal column = writeByteAsync 0 := by
      unfold writeTypeInfoInternal
      rw [hcode]
      rfl
    rw [hwrite]
    exact ⟨_, (transfers_byte 0).bind_pure rfl⟩
  obtain ht | ht | ht | ht | ht | ht | ht | ht := group_cases v
  · obtain ⟨n, hscale⟩ := getTimeLengthFromScale_of_le (h.scale ht)
    rw [writeTypeInfoInternal_scale hcode ht]
    exact ⟨_, transfers_scale ht hscale⟩
  · -- the length of a unique identifier is always sixteen
    have hwrite : ∃ length, self.writeTypeInfoInternal column = writeByteAsync length := by
      simp only [mem_cons, not_mem_nil, or_false] at ht
      unfold writeTypeInfoInternal
      rw [hcode]
      rcases ht with ht | ht | ht | ht | ht | ht <;> rw [ht] <;> exact ⟨_, rfl⟩
    obtain ⟨length, hwrite⟩ := hwrite
    rw [hwrite]
    exact ⟨_, transfers_byteLen ht length⟩
  · rw [writeTypeInfoInternal_empty hcode (by rw [ht]; decide)]
    exact ⟨_, transfers_date ht⟩
  · rw [writeTypeInfoInternal_decimal hcode (by revert ht; cases v.val <;> decide)]
    exact ⟨_, transfers_precisionScale ht _ _ _⟩
  · have hstring : v.val ∈ [.bigVarChar, .bigChar, .nVarChar, .nChar] := by
      revert ht hplain
      cases v.val <;> decide
    obtain ⟨info, sortId, hwrite⟩ := writeTypeInfoInternal_string hcode hstring
    rw [hwrite]
    exact exists_transfers_string _ _ _ hstring
  · by_cases hvariant : v.val = .ssVariant
    · have hwrite : self.writeTypeInfoInternal column = writeU32Async column.length.toUInt32 := by
        unfold writeTypeInfoInternal
        rw [hcode, hvariant]
        rfl
      rw [hwrite]
      exact ⟨_, transfers_var (transfers_variant hvariant (h.length hvariant)) rfl
        (by rw [hvariant]; decide)⟩
    · have hbinary : v.val ∈ [.bigVarBinary, .bigBinary] := by
        revert ht hplain hvariant
        cases v.val <;> decide
      rw [writeTypeInfoInternal_binary hcode hbinary]
      exact exists_transfers_binary _ hbinary
  · exact absurd hplain (by revert ht; cases v.val <;> decide)
  · have hwrite : self.writeTypeInfoInternal column = (do
        writeU16Async column.length.toUInt32.toUInt16
        writeByteAsync column.scale) := by
      unfold writeTypeInfoInternal
      rw [hcode, ht]
      rfl
    rw [hwrite]
    exact ⟨_, transfers_var (transfers_vector ht _ (h.baseType ht)) rfl (by rw [ht]; decide)⟩

end StreamingBulkLoadWriter

end MssqlTds
