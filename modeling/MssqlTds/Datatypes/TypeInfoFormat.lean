import MssqlTds.Datatypes.SerializerFormat
import MssqlTds.Datatypes.SqlTypes

/-!
# Type descriptions on the wire

A type description is a few bytes that depend on the type alone, apart from the name of a CLR type
and the length of a legacy large object.  Once the checks of the type have passed, writing it cannot
fail (`exists_emits_writeTypeInfo`).
-/

namespace MssqlTds

open Bytes Unicode PacketWriter

/-! ### Names of CLR types -/

/-- A text behind the one-byte count of its units. -/
def wireTypeNamePart (value : Option (List Char)) : List UInt8 :=
  match value.filter (· ≠ []) with
  | some s => UInt8.ofNat (utf16Units s).length :: utf16le s
  | none => [0]

theorem writeTypeNamePart_emits {value : Option (List Char)}
    (h : ∀ s, value = some s → (utf16Units s).length ≤ 255) :
    Emits (writeTypeNamePart value) (wireTypeNamePart value) := by
  unfold writeTypeNamePart wireTypeNamePart
  cases hvalue : value.filter (· ≠ []) with
  | none => exact Emits.byte 0
  | some s =>
    have hle := h s (Option.eq_some_of_filter_eq_some hvalue)
    simp only [if_neg (Nat.not_lt.mpr hle)]
    exact (Emits.byte _).bind (Emits.string s)

theorem writeUdtTypeName_emits {n : UdtTypeName} (h : n.validate = .ok ()) :
    Emits (writeUdtTypeName n) (wireTypeNamePart n.dbName ++ (wireTypeNamePart n.schemaName ++
      wireTypeNamePart (some n.typeName))) := by
  have hparts : ∀ part ∈ [n.dbName, n.schemaName, some n.typeName].filterMap id,
      (utf16Units part).length ≤ 255 := by
    unfold UdtTypeName.validate at h
    split at h
    · cases h
    · intro part hpart
      have := forM_eq_ok_iff.mp h part hpart
      split at this
      · cases this
      · next hle => exact Nat.not_lt.mp hle
  have hpart (value : Option (List Char)) (hmem : value ∈ [n.dbName, n.schemaName, some n.typeName])
      (s : List Char) (hs : value = some s) : (utf16Units s).length ≤ 255 :=
    hparts s (List.mem_filterMap.mpr ⟨value, hmem, hs⟩)
  rw [writeUdtTypeName, h]
  exact (writeTypeNamePart_emits (hpart _ (by simp))).bind
    ((writeTypeNamePart_emits (hpart _ (by simp))).bind
      (writeTypeNamePart_emits (hpart _ (by simp))))

/-! ### All types -/

theorem liftResult_ok_bind {α : Type} (a : α) (f : α → WriterM Unit) :
    (liftResult (.ok a) >>= f) = f a := pure_bind a f

namespace SqlType

/-- The value has a format of its own: a table, or a large object with its length in front. -/
def HasOwnFormat : SqlType → Prop
  | table .. | text _ | nText _ | image _ => True
  | _ => False

theorem writeTypeBytes_emits (tdsType : TdsDataType) (bs : List UInt8) :
    Emits (writeTypeBytes tdsType bs) (tdsType.code :: bs) :=
  Emits.forM_byte _

theorem writeLegacyLobTypeInfo_emits (value : SqlType) (collation : SqlCollation)
    (length : UInt32) : ∃ bs, Emits (writeLegacyLobTypeInfo value collation length) bs := by
  have hcollation := (Emits.u32 collation.info).bind
    (Emits.byte collation.sortId)
  cases value
  case image => exact ⟨_, (Emits.byte _).bind ((Emits.u32 _).bind Emits.pure)⟩
  all_goals exact ⟨_, (Emits.byte _).bind ((Emits.u32 _).bind hcollation)⟩

/-- The checks a type description repeats. -/
def typeInfoChecks : SqlType → TdsResult Unit
  | vector v dimensions baseType => validateVector v dimensions baseType
  | variant inner => validateVariantInner inner
  | udt typeName _ => typeName.validate
  | _ => .ok ()

/-- A type that passes the checks is described by some bytes, whatever the packets. -/
theorem exists_emits_writeTypeInfo (cs : Codecs) (dbCollation : SqlCollation)
    (precision scale : Option UInt8) {value : SqlType} (hvalid : value.typeInfoChecks = .ok ())
    (hown : ¬ value.HasOwnFormat) :
    ∃ bs, Emits (value.writeTypeInfo cs dbCollation precision scale) bs := by
  cases value with
  | text _ | nText _ | image _ | table _ _ => exact absurd trivial hown
  | bit _ | tinyInt _ | smallInt _ | int _ | bigInt _ | real _ | float _ =>
    exact ⟨_, Emits.fixedBytes _⟩
  | nVarchar _ _ | nVarcharMax _ | varchar _ _ | varcharMax _ | char _ _ | nChar _ _ =>
    exact ⟨_, Emits.fixedBytes _⟩
  | decimal _ | numeric _ | money _ | smallMoney _ | dateTime _ | smallDateTime _ | uuid _ | date _
  | time _ | dateTime2 _ | dateTimeOffset _ | xml _ | json _ =>
    exact ⟨_, writeTypeBytes_emits _ _⟩
  | binary _ _ | varBinary _ _ | varBinaryMax _ =>
    exact ⟨_, (Emits.byte _).bind (Emits.u16 _)⟩
  | vector v dimensions baseType =>
    rw [typeInfoChecks] at hvalid
    simp only [writeTypeInfo, hvalid, liftResult_ok_bind]
    exact ⟨_, (Emits.byte _).bind
      ((Emits.u16 _).bind (Emits.byte _))⟩
  | variant inner =>
    rw [typeInfoChecks] at hvalid
    simp only [writeTypeInfo, hvalid, liftResult_ok_bind]
    exact ⟨_, (Emits.byte _).bind (Emits.u32 _)⟩
  | udt typeName _ =>
    exact ⟨_, (Emits.byte _).bind (writeUdtTypeName_emits hvalid)⟩

end SqlType

end MssqlTds
