import MssqlTds.Datatypes.PreflightValues

/-!
# What the preflight of a parameter anticipates

`validateForSend` runs on every parameter before the first byte of a request is written, so that
invalid input fails without a half-sent request.  It anticipates the checks of the type description,
the byte limits of narrow strings and the length limit of the legacy large objects; it does not look
at wide strings, at binary data, at the scale of a time, at the elements of a vector or at what the
frame of a `sql_variant` requires.  `SqlType.Sendable` collects these conditions, and
`serialize_ok_iff_sendable` says that a value which passed the preflight is written if and only if
it meets them.
-/

namespace MssqlTds

open Bytes Unicode PacketWriter TdsValueSerializer

namespace SqlType

/-- What the frame of a variant requires of the value inside. -/
def FitsVariant (cs : Codecs) (dbCollation : SqlCollation) (limit : Option ℕ) : SqlType → Prop
  | decimal (some v) | numeric (some v) => 1 ≤ v.precision ∧ v.precision ≤ 38
  | time (some v) => v.scale ≤ 7
  | dateTime2 (some v) => v.time.scale ≤ 7
  | dateTimeOffset (some v) => v.datetime2.time.scale ≤ 7
  | nVarchar (some s) length | varchar (some s) length =>
    s.FitsVariant cs dbCollation limit length.toNat
  | char (some s) length => s.FitsVariant cs dbCollation limit (declaredLength length).toNat
  | nChar (some s) length =>
    s.FitsVariant cs dbCollation limit (declaredWideLength length / 2).toNat
  | binary (some v) _ | varBinary (some v) _ => v.length % 2 ^ 32 ≤ maxVariantDataSize
  | _ => True

/-- What the preflight does not look at. -/
def Sendable (cs : Codecs) (dbCollation : SqlCollation) (limit : Option ℕ) : SqlType → Prop
  | time (some v) => v.scale ≤ 7
  | dateTime2 (some v) => v.time.scale ≤ 7
  | dateTimeOffset (some v) => v.datetime2.time.scale ≤ 7
  | nVarchar (some s) length => s.FitsWide (if length > 4000 then none else some length.toNat)
  | nVarcharMax (some s) => s.FitsWide none
  | nChar (some s) length => s.FitsWide (some (declaredWideLength length / 2).toNat)
  | varchar (some s) _ | varcharMax (some s) | char (some s) _ | text (some s) | nText (some s) =>
    s.Decodes
  | binary (some v) length => v.length ≤ (declaredLength length).toNat
  | varBinary (some v) length => length > varTdsMaxLength ∨ v.length ≤ length.toNat
  | vector (some v) _ _ => vectorConsistent v = true
  | variant inner => inner.FitsVariant cs dbCollation limit
  | _ => True

end SqlType

/-! ### Every type -/

section Types

variable {cs : Codecs} {w : PacketWriter} {limit : Option ℕ} {dbCollation : SqlCollation}

/-- The bytes of a value behind its type description. -/
def wireColumn (cs : Codecs) (value : ColumnValues) (ctx : TdsTypeContext) (limit : Option ℕ) :
    TdsResult (List UInt8) :=
  if ctx.tdsType = TdsDataType.ssVariant.code then wireVariant cs value ctx limit true
  else wireValueInner cs value ctx limit true

variable {ctx : TdsTypeContext}

theorem serializeColumn_ok_iff {value : ColumnValues} (hw : Ready w) :
    (∃ w', serializeValueWithNarrowStringByteLimit cs value ctx limit w = .ok () w') ↔
      Succeeds (wireColumn cs value ctx limit) := by
  unfold serializeValueWithNarrowStringByteLimit wireColumn
  by_cases hvariant : ctx.tdsType = TdsDataType.ssVariant.code
  · rw [if_pos hvariant, if_pos hvariant]
    exact (serializeAsVariant_serializes cs value ctx limit true).ok_iff hw
  · rw [if_neg hvariant, if_neg hvariant]
    cases hfloat : isNullableFloat value ctx with
    | false => exact (serializeValueInner_serializes cs value ctx limit true hfloat).ok_iff hw
    | true =>
      -- a nullable float may run over the end of the packet, but it is written
      cases value with
      | float bits =>
        have hfixed : ctx.isFixedType = false := by simpa [isNullableFloat] using hfloat
        obtain ⟨w', ps, hrun, -⟩ := serializeFloat_steps bits hfixed hw
        exact iff_of_true ⟨w', hrun⟩ (succeeds_ok _)
      | _ => cases hfloat

namespace SqlType

variable {value : SqlType}

theorem typeInfoChecks_of_validated
    (h : value.validateForSend cs dbCollation limit = .ok ()) : value.typeInfoChecks = .ok () := by
  cases value with
  | udt _ _ | vector _ _ _ => simpa only [validateForSend, typeInfoChecks] using h
  | variant inner =>
    obtain ⟨⟨⟩, hinner, -⟩ := EState.result_bind_eq_ok.mp h
    exact hinner
  | _ => rfl

/-- The type has a description in front and a value of the value serializer behind it. -/
def IsPlain : SqlType → Prop
  | json _ => False
  | value => ¬ value.HasOwnFormat

theorem serialize_plain_ok_iff
    (serializeTable : TvpTypeName → Option TvpTableData → WriterM Unit)
    (typeMetadata : Option RpcTypeMetadata) (hplain : value.IsPlain)
    (hchecks : value.typeInfoChecks = .ok ()) (hw : Ready w) :
    (∃ w', value.serializeWithNarrowStringByteLimit cs serializeTable dbCollation typeMetadata limit
        w = .ok () w') ↔
      Succeeds (wireColumn cs (value.toColumnValueAndContext dbCollation).1
        (value.toColumnValueAndContext dbCollation).2 limit) := by
  have hown : ¬ value.HasOwnFormat := by
    cases value <;> first | exact hplain | exact absurd hplain id
  obtain ⟨info, hinfo⟩ := exists_emits_writeTypeInfo cs dbCollation
    (typeMetadata.bind (·.precision)) (typeMetadata.bind (·.scale)) hchecks hown
  obtain ⟨w₁, ps, hrun, hready, -⟩ := hinfo w hw
  rw [← serializeColumn_ok_iff hready]
  have hserialize : value.serializeWithNarrowStringByteLimit cs serializeTable dbCollation
      typeMetadata limit =
        (value.writeTypeInfo cs dbCollation (typeMetadata.bind (·.precision))
          (typeMetadata.bind (·.scale)) >>= fun _ =>
        serializeValueWithNarrowStringByteLimit cs (value.toColumnValueAndContext dbCollation).1
          (value.toColumnValueAndContext dbCollation).2 limit) := by
    cases value <;> first | rfl | exact absurd hplain id | exact absurd trivial hown
  rw [hserialize, EState.bind_ok hrun]

theorem succeeds_wireNull (hfixed : ctx.isFixedType = false) :
    Succeeds (wireNull ctx) := by
  unfold wireNull
  simp only [hfixed, Bool.false_eq_true, if_false]
  split_ifs with _ _ hbit
  · exact succeeds_ok _
  · exact succeeds_ok _
  · rw [TdsTypeContext.isFixedType, hbit] at hfixed
    cases hfixed
  · exact succeeds_ok _
  · exact succeeds_ok _

variable {s : SqlString}

/-- The preflight of a narrow string applies the value's own limit before the serializer does. -/
theorem validateNarrow_limit
    (hnarrow : isNarrowType ctx.tdsType = true)
    (h : validateNarrowStringLength cs (.string s) ctx (effectiveNarrowStringByteLimit s limit) =
      .ok ()) : validateNarrowStringLength cs (.string s) ctx limit = .ok () := by
  rw [validateNarrowStringLength_iff hnarrow] at h ⊢
  rwa [effectiveLimit_idem] at h

theorem validateNarrow_unlimited
    (hnarrow : isNarrowType ctx.tdsType = true) (hplp : ctx.isPlp = true)
    (hnone : effectiveNarrowStringByteLimit s limit = none) :
    validateNarrowStringLength cs (.string s) ctx limit = .ok () := by
  have hmax : narrowStringMaximum ctx none = none := by simp [narrowStringMaximum, hplp]
  rw [validateNarrowStringLength_iff hnarrow, hnone, hmax]
  exact fun m hm => by cases hm

variable {length : UInt16}

theorem declaredLength_of_gt (h : length > varTdsMaxLength) :
    declaredLength length = maxU16Length := if_pos h

theorem declaredLength_of_le (h : ¬ length > varTdsMaxLength) :
    declaredLength length = length ∧ (length == maxU16Length) = false := by
  refine ⟨if_neg h, beq_false_of_ne ?_⟩
  rintro rfl
  exact h (by decide)

theorem succeeds_varchar
    (hvalid : (varchar (some s) length).validateForSend cs dbCollation limit = .ok ()) :
    Succeeds (wireString cs s
      (stringContext .bigVarChar (declaredLength length == maxU16Length)
        (declaredLength length).toNat dbCollation) limit true) ↔ s.Decodes := by
  refine succeeds_wireString_of_validated rfl ?_
  rw [validateForSend] at hvalid
  split at hvalid
  · next hskip =>
    rw [Bool.and_eq_true, decide_eq_true_eq] at hskip
    refine validateNarrow_unlimited rfl ?_ (Option.isNone_iff_eq_none.mp hskip.1)
    rw [declaredLength_of_gt hskip.2]
    rfl
  · obtain ⟨⟨⟩, hnarrow, -⟩ := EState.result_bind_eq_ok.mp hvalid
    exact validateNarrow_limit rfl hnarrow

theorem succeeds_varcharMax
    (hvalid : (varcharMax (some s)).validateForSend cs dbCollation limit = .ok ()) :
    Succeeds (wireString cs s (stringContext .bigVarChar true usizeMax dbCollation) limit true) ↔
      s.Decodes := by
  refine succeeds_wireString_of_validated rfl ?_
  rw [validateForSend] at hvalid
  split at hvalid
  · next hskip => exact validateNarrow_unlimited rfl rfl (Option.isNone_iff_eq_none.mp hskip)
  · obtain ⟨⟨⟩, hnarrow, -⟩ := EState.result_bind_eq_ok.mp hvalid
    exact validateNarrow_limit rfl hnarrow

theorem succeeds_char
    (hvalid : (char (some s) length).validateForSend cs dbCollation limit = .ok ()) :
    Succeeds (wireString cs s
      (stringContext .bigChar false (declaredLength length).toNat dbCollation) limit true) ↔
      s.Decodes := by
  refine succeeds_wireString_of_validated rfl ?_
  obtain ⟨⟨⟩, hnarrow, -⟩ := EState.result_bind_eq_ok.mp hvalid
  exact validateNarrow_limit rfl hnarrow

/-- The length of an `nvarchar` parameter that is not sent in chunks, in units. -/
theorem nvarcharInline_of_le (h : ¬ length > 4000) :
    ((nvarcharInlineMaxBytes length).getD maxU16Length == maxU16Length) = false ∧
      ((nvarcharInlineMaxBytes length).getD maxU16Length / 2).toNat = length.toNat := by
  have hle : length.toNat ≤ 4000 := by simpa [UInt16.lt_iff_toNat_lt] using h
  have hdouble : (length * 2).toNat = length.toNat * 2 := by
    exact Nat.mod_eq_of_lt (by change length.toNat * 2 < 2 ^ 16; omega)
  rw [nvarcharInlineMaxBytes, if_neg h, Option.getD_some]
  constructor
  · refine beq_false_of_ne fun heq => ?_
    have := congrArg UInt16.toNat heq
    rw [hdouble] at this
    change length.toNat * 2 = 65535 at this
    omega
  · rw [UInt16.toNat_div, hdouble]
    exact Nat.mul_div_cancel _ (by decide)

theorem wideMaximum_nVarchar (length : UInt16) :
    wideMaximum (stringContext .nVarChar
      ((nvarcharInlineMaxBytes length).getD maxU16Length == maxU16Length)
      ((nvarcharInlineMaxBytes length).getD maxU16Length / 2).toNat dbCollation) =
        if length > 4000 then none else some length.toNat := by
  by_cases h : length > 4000
  · rw [if_pos h, nvarcharInlineMaxBytes, if_pos h]
    rfl
  · obtain ⟨hplp, hmax⟩ := nvarcharInline_of_le h
    rw [if_neg h, hplp, hmax]
    rfl

/-- A string of at most `n` characters inside a variant. -/
theorem succeeds_variant_stringContext {tdsType : TdsDataType} {isPlp : Bool}
    {maxSize n : ℕ} (hplp : isPlp = false) (hmax : maxSize = n) (hlt : n < 2 ^ 16) :
    Succeeds (wireVariant cs (.string s) { stringContext tdsType isPlp maxSize dbCollation with
        tdsType := TdsDataType.ssVariant.code } limit true) ↔
      s.FitsVariant cs dbCollation limit n := by
  subst hplp hmax
  exact succeeds_variant_string rfl (lt_trans hlt (by decide)) rfl

/-- What a variant requires, by the type of the value inside. -/
theorem succeeds_variant_iff {inner : SqlType}
    (hvalid : validateVariantInner inner = .ok ()) :
    Succeeds (wireVariant cs (inner.toColumnValueAndContext dbCollation).1
      { (inner.toColumnValueAndContext dbCollation).2 with
        tdsType := TdsDataType.ssVariant.code } limit true) ↔
      inner.FitsVariant cs dbCollation limit := by
  have hsupported : inner.unsupportedInVariant = none := by
    unfold validateVariantInner at hvalid
    split at hvalid
    · cases hvalid
    · assumption
  match inner, hsupported with
  | .bit v, _ | .tinyInt v, _ | .smallInt v, _ | .int v, _ | .bigInt v, _ | .real v, _ | .float v, _
  | .money v, _ | .smallMoney v, _ | .date v, _ | .dateTime v, _ | .smallDateTime v, _
  | .uuid v, _ => cases v <;> exact iff_of_true ⟨_, rfl⟩ trivial
  | .decimal none, _ | .numeric none, _ | .time none, _ | .dateTime2 none, _
  | .dateTimeOffset none, _ | .binary none _, _ | .varBinary none _, _ | .nVarchar none _, _
  | .varchar none _, _ | .char none _, _ | .nChar none _, _ =>
    exact iff_of_true ⟨_, rfl⟩ trivial
  | .decimal (some v), _ => exact (succeeds_variant_decimal v _).1
  | .numeric (some v), _ => exact (succeeds_variant_decimal v _).2
  | .time (some v), _ =>
    refine succeeds_variant_temporal (k := 0) (by simp [toColumnValueAndContext, orNull]) rfl rfl
      rfl ?_ (by decide) ⟨_, rfl⟩ rfl succeeds_temporal
    exact (bind_pure _).symm
  | .dateTime2 (some v), _ =>
    exact succeeds_variant_temporal (k := 3) (by simp [toColumnValueAndContext, orNull]) rfl rfl
      rfl rfl (by decide) ⟨_, rfl⟩ rfl succeeds_temporal
  | .dateTimeOffset (some v), _ =>
    exact succeeds_variant_temporal (k := 5) (by simp [toColumnValueAndContext, orNull]) rfl rfl
      rfl rfl (by decide) ⟨_, rfl⟩ rfl succeeds_temporal
  | .binary (some v) _, _ | .varBinary (some v) _, _ => exact succeeds_variant_bytes v _
  | .nVarchar (some s) length, hsupported =>
    have hle : ¬ length > 4000 := by
      intro h
      simp [unsupportedInVariant, nvarcharInlineMaxBytes, h] at hsupported
    obtain ⟨hplp, hmax⟩ := nvarcharInline_of_le hle
    exact succeeds_variant_stringContext hplp hmax length.toNat_lt
  | .varchar (some s) length, hsupported =>
    have hle : ¬ length > varTdsMaxLength := by
      intro h
      simp [unsupportedInVariant, h] at hsupported
    obtain ⟨hlength, hplp⟩ := declaredLength_of_le hle
    exact succeeds_variant_stringContext (hlength.symm ▸ hplp) (by rw [hlength]) length.toNat_lt
  | .char (some s) length, _ =>
    exact succeeds_variant_stringContext rfl rfl (declaredLength length).toNat_lt
  | .nChar (some s) length, _ =>
    exact succeeds_variant_stringContext rfl rfl (declaredWideLength length / 2).toNat_lt

theorem succeeds_wireColumn_null (hfixed : ctx.isFixedType = false) :
    Succeeds (wireColumn cs .null ctx limit) := by
  unfold wireColumn
  split
  · exact ⟨_, rfl⟩
  · exact succeeds_wireNull hfixed

theorem succeeds_wireColumn_iff (hplain : value.IsPlain)
    (hvalid : value.validateForSend cs dbCollation limit = .ok ()) :
    Succeeds (wireColumn cs (value.toColumnValueAndContext dbCollation).1
      (value.toColumnValueAndContext dbCollation).2 limit) ↔
      value.Sendable cs dbCollation limit := by
  match value, hplain, hvalid with
  | .text _, hplain, _ | .nText _, hplain, _ | .image _, hplain, _ | .table _ _, hplain, _ =>
    exact absurd trivial hplain
  | .json _, hplain, _ => exact absurd hplain id
  | .bit v, _, _ | .tinyInt v, _, _ | .smallInt v, _, _ | .int v, _, _ | .bigInt v, _, _
  | .real v, _, _ | .float v, _, _ | .decimal v, _, _ | .numeric v, _, _ | .money v, _, _
  | .smallMoney v, _, _ | .date v, _, _ | .dateTime v, _, _ | .smallDateTime v, _, _
  | .uuid v, _, _ | .varBinaryMax v, _, _ | .xml v, _, _ | .udt _ v, _, _ =>
    cases v <;> exact iff_of_true ⟨_, rfl⟩ trivial
  | .time none, _, _ | .dateTime2 none, _, _ | .dateTimeOffset none, _, _ =>
    exact iff_of_true ⟨_, rfl⟩ trivial
  | .nVarchar none _, _, _ | .nVarcharMax none, _, _ | .nChar none _, _, _ | .varchar none _, _, _
  | .varcharMax none, _, _ | .char none _, _, _ | .binary none _, _, _ | .varBinary none _, _, _
  | .vector none _ _, _, _ => exact iff_of_true (succeeds_wireColumn_null (by rfl)) trivial
  | .time (some _), _, _ | .dateTime2 (some _), _, _ | .dateTimeOffset (some _), _, _ =>
    exact succeeds_temporal
  | .nVarchar (some s) length, _, _ =>
    rw [Sendable, ← @wideMaximum_nVarchar dbCollation]
    exact @succeeds_wireString_wide cs s (stringContext .nVarChar _ _ dbCollation) limit true
      List.mem_cons_self
  | .nVarcharMax (some s), _, _ =>
    exact @succeeds_wireString_wide cs s (stringContext .nVarChar true usizeMax dbCollation) limit
      true List.mem_cons_self
  | .nChar (some s) length, _, _ =>
    exact @succeeds_wireString_wide cs s (stringContext .nChar false _ dbCollation) limit true
      (List.mem_cons_of_mem _ List.mem_cons_self)
  | .varchar (some s) length, _, hvalid => exact succeeds_varchar hvalid
  | .varcharMax (some s), _, hvalid => exact succeeds_varcharMax hvalid
  | .char (some s) length, _, hvalid => exact succeeds_char hvalid
  | .binary (some v) length, _, _ =>
    have himage : (baseContext .bigBinary (declaredLength length).toNat).tdsType ≠
        TdsDataType.image.code := (by decide : TdsDataType.bigBinary.code ≠ _)
    exact (succeeds_wireBytes himage).trans (or_iff_right Bool.false_ne_true)
  | .varBinary (some v) length, _, _ =>
    have himage : ({ baseContext .bigVarBinary (declaredLength length).toNat with
        isPlp := declaredLength length == maxU16Length } : TdsTypeContext).tdsType ≠
        TdsDataType.image.code := (by decide : TdsDataType.bigVarBinary.code ≠ _)
    refine (succeeds_wireBytes himage).trans ?_
    by_cases hlong : length > varTdsMaxLength
    · refine iff_of_true (.inl ?_) (.inl hlong)
      rw [declaredLength_of_gt hlong]
      rfl
    · obtain ⟨hlength, hplp⟩ := declaredLength_of_le hlong
      change (declaredLength length == maxU16Length) = true ∨
        v.length ≤ (declaredLength length).toNat ↔ length > varTdsMaxLength ∨ _
      rw [hlength, hplp]
      simp [hlong]
  | .vector (some v) dimensions baseType, _, hvalid =>
    exact succeeds_wireVector hvalid
  | .variant inner, _, hvalid =>
    have hchecks := typeInfoChecks_of_validated hvalid
    exact succeeds_variant_iff hchecks

theorem serializeJsonParameter_ok (v : Option SqlJson) (hw : Ready w) :
    ∃ w', serializeJsonParameter v w = .ok () w' := by
  have hall : ∃ bs, Emits (serializeJsonParameter v) bs := by
    cases v with
    | none => exact ⟨_, (Emits.byte _).bind (Emits.u64 _)⟩
    | some v =>
      exact ⟨_, (Emits.byte _).bind ((Emits.u64 _).bind
        ((Emits.u32 _).bind ((Emits.slice _).bind (Emits.u32 _))))⟩
  obtain ⟨bs, hbs⟩ := hall
  obtain ⟨w', ps, hrun, -⟩ := hbs w hw
  exact ⟨w', hrun⟩

end SqlType

end Types

/-- **A value that passed the preflight is written if and only if it meets what the preflight does
not look at**, whatever the collation, the limit and the state of a writer whose sends succeed. -/
theorem serialize_ok_iff_sendable (cs : Codecs) (hcs : cs.Regular)
    (serializeTable : TvpTypeName → Option TvpTableData → WriterM Unit)
    (dbCollation : SqlCollation) (typeMetadata : Option SqlType.RpcTypeMetadata) (limit : Option ℕ)
    (value : SqlType) (htable : ∀ typeName data, value ≠ .table typeName data) (w : PacketWriter)
    (hw : Ready w) (hvalid : value.validateForSend cs dbCollation limit = .ok ()) :
    (∃ w', value.serializeWithNarrowStringByteLimit cs serializeTable dbCollation typeMetadata limit
        w = .ok () w') ↔ value.Sendable cs dbCollation limit := by
  by_cases hplain : value.IsPlain
  · rw [SqlType.serialize_plain_ok_iff serializeTable typeMetadata hplain
      (SqlType.typeInfoChecks_of_validated hvalid) hw]
    exact SqlType.succeeds_wireColumn_iff hplain hvalid
  · cases value with
    | table typeName data => exact absurd rfl (htable typeName data)
    | json v => exact iff_of_true (SqlType.serializeJsonParameter_ok v hw) trivial
    | text v =>
      refine (SqlType.serializeLegacyLob_ok_iff hw).trans ?_
      cases v with
      | none => exact iff_of_true ⟨_, rfl⟩ trivial
      | some s => exact SqlType.fittedLob_text hcs hvalid
    | nText v =>
      refine (SqlType.serializeLegacyLob_ok_iff hw).trans ?_
      cases v with
      | none => exact iff_of_true ⟨_, rfl⟩ trivial
      | some s => exact SqlType.fittedLob_nText hcs hvalid
    | image v =>
      refine (SqlType.serializeLegacyLob_ok_iff hw).trans ?_
      cases v with
      | none => exact iff_of_true ⟨_, rfl⟩ trivial
      | some v => exact iff_of_true (SqlType.fittedLob_image hvalid) trivial
    | _ => exact absurd id hplain

theorem Codecs.encodeNarrowWith_latin1 {e : Encoding} (h : e ≠ .utf8) (text : List Char) :
    Codecs.latin1.encodeNarrowWith text (.encodingRs e) = encodeLatin1ForWire text := by
  rw [(stateless_latin1 _).encodeNarrowWith_eq, encodeLatin1ForWire]
  congr 2 <;> funext c <;>
    by_cases hc : c.toNat < 256 <;>
      simp [narrowBytes, isUnmappable, encode_latin1 h, encodeLatin1ForWire, hc]

/-- Three bytes for each unit are enough. -/
theorem Codecs.length_latin1 (e : Encoding) (text : List Char) :
    (Codecs.latin1.encodeNarrowWith text (.encodingRs e)).bytes.length ≤
      3 * (utf16Units text).length := by
  by_cases h : e = .utf8
  · rw [h]
    exact length_asBytes_le text
  · rw [encodeNarrowWith_latin1 h]
    have := length_encodeLatin1 text
    omega

theorem Codecs.latin1_regular : Codecs.latin1.Regular where
  length_utf8 e text := by
    have := length_latin1 e text
    have := length_utf16Units_le text
    omega
  length_utf16 e bytes := by
    have := length_latin1 e (decodeUtf16Lossy bytes)
    have := length_utf16Units_decodeUtf16Lossy bytes
    change (latin1.encodeNarrowWith (decodeUtf16Lossy bytes) _).bytes.length ≤ _
    omega
  units_utf16 := length_utf16Units_decodeUtf16Lossy
  units_narrow e bytes := by
    simp only [latin1]
    split
    · cases htext : fromUtf8 bytes with
      | none => exact Nat.zero_le _
      | some text =>
        rw [Option.getD_some, ← asBytes_of_fromUtf8 htext]
        exact length_utf16Units_le text
    · rw [length_utf16Units_of_lt, List.length_map]
      intro c hc
      obtain ⟨byte, -, rfl⟩ := List.mem_map.mp hc
      rw [CodePage.toNat_ofUInt8]
      exact byte.toNat_lt.trans (by decide)

/-- A writer at the start of a request. -/
def freshRequest : PacketWriter := .new .rpcRequest (readyNetwork 4096) none none

theorem freshRequest_ready : Ready freshRequest :=
  new_ready _ none none (by decide) (by decide) fun _ => SendEnv.ready_succeeds

def twoCharacters (length : UInt16) : SqlType :=
  .nVarchar (some (SqlString.fromUtf8String ['a', 'b'])) length

/-- Two characters are written for an `nvarchar(2)`, and not for an `nvarchar(1)`. -/
theorem serialize_ok_iff_sendable_twoCharacters :
    (∃ w', (twoCharacters 2).serializeWithNarrowStringByteLimit Codecs.latin1
        (fun _ _ => pure ()) .default none none freshRequest = .ok () w') ∧
      ¬ ∃ w', (twoCharacters 1).serializeWithNarrowStringByteLimit Codecs.latin1
        (fun _ _ => pure ()) .default none none freshRequest = .ok () w' := by
  constructor
  · refine (serialize_ok_iff_sendable _ Codecs.latin1_regular _ _ _ _ _
      (by simp [twoCharacters]) _ freshRequest_ready rfl).mpr ⟨rfl, fun m hm => ?_⟩
    cases hm
    decide
  · refine (serialize_ok_iff_sendable _ Codecs.latin1_regular _ _ _ _ _
      (by simp [twoCharacters]) _ freshRequest_ready rfl).not.mpr fun h => ?_
    exact absurd (h.2 1 rfl) (by decide)

/-- Two characters for an `nvarchar(1)` pass the preflight, and fail behind the type description. -/
theorem overlong_passes_preflight :
    (twoCharacters 1).validateForSend Codecs.latin1 .default none = .ok () ∧
      ∃ w', (twoCharacters 1).serializeWithNarrowStringByteLimit Codecs.latin1 (fun _ _ => pure ())
        .default none none freshRequest = .error (stringTooLong 2 1) w' ∧
        w'.buffered = [0xE7, 2, 0, 0, 0, 0, 0, 0] := by
  refine ⟨rfl, _, rfl, rfl⟩

end MssqlTds
