import MssqlTds.Datatypes.WireFormat
import MssqlTds.Io.PacketStream

/-!
# The serializer writes the wire format

`Serializes m r` connects a writer method to a pure result: from any writer that buffers at most
one packet, the method writes exactly these bytes, or fails with this error.  Each serializer is
connected in this way to its part of `wireValue`, so that the fast path, which writes unchecked,
and the slow path, which may send packets, write the same bytes.

There is one exception, a nullable float: its slow path writes the eight bytes unchecked although
they need not fit.
-/

namespace MssqlTds

open Bytes Unicode PacketWriter TdsValueSerializer List

/-- The method writes the bytes, or fails with the error, that `r` says. -/
def Serializes (m : WriterM Unit) : TdsResult (List UInt8) → Prop
  | .ok bs => Emits m bs
  | .error e => ∀ w, Ready w → ∃ w', m w = .error e w'

/-! ### Rules -/

theorem Serializes.throw (e : Error) : Serializes (throw e) (.error e) := fun w _ => ⟨w, rfl⟩

variable {m₁ m₂ : WriterM Unit}

theorem Serializes.ite {c : Prop} [Decidable c]
    {r₁ r₂ : TdsResult (List UInt8)} (h₁ : c → Serializes m₁ r₁) (h₂ : ¬c → Serializes m₂ r₂) :
    Serializes (if c then m₁ else m₂) (if c then r₁ else r₂) := by
  split
  · exact h₁ ‹_›
  · exact h₂ ‹_›

variable {bs : List UInt8} {r : TdsResult (List UInt8)}

/-- Bytes written in front of a result. -/
theorem Serializes.after {m k : WriterM Unit}
    (hm : Emits m bs) (hk : Serializes k r) :
    Serializes (m >>= fun _ => k) (r >>= fun cs => pure (bs ++ cs)) := by
  cases r with
  | ok cs => exact hm.bind hk
  | error e =>
    intro w hw
    obtain ⟨w₁, ps, hrun, hready, -⟩ := hm w hw
    obtain ⟨w₂, hrun₂⟩ := hk w₁ hready
    exact ⟨w₂, by rw [EState.bind_ok hrun, hrun₂]⟩

theorem Serializes.lift {α : Type} (r : TdsResult α) {f : α → WriterM Unit}
    {g : α → TdsResult (List UInt8)} (h : ∀ a, r = .ok a → Serializes (f a) (g a)) :
    Serializes (liftResult r >>= f) (r >>= g) := by
  cases r with
  | ok a => exact h a rfl
  | error e => exact fun w _ => ⟨w, rfl⟩

theorem emits_of_eq {m : WriterM Unit} {bs cs : List UInt8} (h : Emits m bs) (heq : bs = cs) :
    Emits m cs := heq ▸ h

theorem emits_ite {c : Prop} [Decidable c] {bs₁ bs₂ : List UInt8}
    (h₁ : Emits m₁ bs₁) (h₂ : Emits m₂ bs₂) :
    Emits (if c then m₁ else m₂) (if c then bs₁ else bs₂) := by
  split
  · exact h₁
  · exact h₂

/-! ### Writes -/

theorem leBytes_ofNat16 (n : ℕ) : leBytes 2 (UInt16.ofNat n).toNat = leBytes 2 n := by
  exact leBytes_mod 2 n

theorem leBytes_ofNat32 (n : ℕ) : leBytes 4 (UInt32.ofNat n).toNat = leBytes 4 n := by
  exact leBytes_mod 4 n

theorem Emits.u16 (v : UInt16) : Emits (writeU16Async v) (leBytes 2 v.toNat) :=
  Emits.checked (by simp)

theorem Emits.i32 (v : Int32) : Emits (writeI32Async v) (leBytes 4 v.toUInt32.toNat) :=
  Emits.checked (by simp)

theorem Emits.u32 (v : UInt32) : Emits (writeU32Async v) (leBytes 4 v.toNat) :=
  Emits.checked (by simp)

theorem Emits.i64 (v : Int64) : Emits (writeI64Async v) (leBytes 8 v.toUInt64.toNat) :=
  Emits.checked (by simp)

theorem Emits.u64 (v : UInt64) : Emits (writeU64Async v) (leBytes 8 v.toNat) :=
  Emits.checked (by simp)

/-- A length in two bytes. -/
theorem writeLen16_emits (n : ℕ) : Emits (writeU16Async (UInt16.ofNat n)) (leBytes 2 n) :=
  emits_of_eq (Emits.u16 _) (leBytes_ofNat16 n)

/-- A length in four bytes. -/
theorem writeLen32_emits (n : ℕ) : Emits (writeU32Async (UInt32.ofNat n)) (leBytes 4 n) :=
  emits_of_eq (Emits.u32 _) (leBytes_ofNat32 n)

theorem Emits.forM {α : Type} {f : α → WriterM Unit} {g : α → List UInt8}
    (h : ∀ a, Emits (f a) (g a)) (as : List α) : Emits (as.forM f) (as.flatMap g) := by
  induction as with
  | nil => exact .pure
  | cons a as ih => exact (h a).bind ih

theorem Emits.forM_u16 (us : List UInt16) : Emits (us.forM writeU16Async) (unitsLe us) :=
  Emits.forM Emits.u16 us

theorem noteCodePageConversionLoss_emits (c : Bool) :
    Emits (if c then noteCodePageConversionLoss else pure ()) [] := by
  cases c with
  | false => exact .pure
  | true =>
    intro w hw
    have hsound : Sound { w with codePageConversionLoss := true } :=
      ⟨hw.size_eq, hw.size_ge, hw.size_lt, hw.succeeds, hw.filled⟩
    refine ⟨_, [], rfl, ⟨hsound, hw.fits⟩, ?_⟩
    constructor <;> simp [packetsFrom, buffered]

/-- Noting a loss writes nothing. -/
theorem Serializes.note {m : WriterM Unit} (hm : Serializes m r)
    (c : Bool) :
    Serializes (m >>= fun _ => if c then noteCodePageConversionLoss else pure ()) r := by
  cases r with
  | ok bs => exact emits_of_eq (hm.bind (noteCodePageConversionLoss_emits c)) (append_nil bs)
  | error e =>
    intro w hw
    obtain ⟨w', hrun⟩ := hm w hw
    exact ⟨w', EState.bind_error hrun⟩

/-- Unchecked writes inside the packet against some other way to write the same bytes. -/
theorem writeIfSpace_emits {slow : WriterM Unit} (hslow : Emits slow bs) :
    Emits (writeIfSpace bs slow) bs := by
  intro w hw
  rw [writeIfSpace, EState.bind_ok EState.get_apply, EState.ite_apply]
  by_cases h : w.hasSpace bs.length = true
  · rw [if_pos h]
    obtain ⟨w', hrun, hready, hsteps, -⟩ := writeUnchecked_ready hw bs ((hasSpace_iff hw _).mp h)
    exact ⟨w', [], hrun, hready, hsteps⟩
  · rw [if_neg h]
    exact hslow w hw

variable {parts : List (List UInt8)}

theorem writeParts_emits (hparts : ∀ p ∈ parts, p.length ≤ 8) :
    Emits (writeParts parts) parts.flatten := by
  apply writeIfSpace_emits
  induction parts with
  | nil => exact .pure
  | cons p ps ih =>
    exact (Emits.checked (hparts p mem_cons_self)).bind
      (ih fun q hq => hparts q (mem_cons_of_mem p hq))

theorem serializeScalar_emits (fixed : Bool) {length : UInt8} (hparts : ∀ p ∈ parts, p.length ≤ 8)
    (hbs : parts.flatten = bs)
    (hlength : length = UInt8.ofNat bs.length) :
    Emits (serializeScalar fixed length parts) (wireScalar fixed bs) := by
  subst hbs hlength
  cases fixed with
  | true => exact writeParts_emits hparts
  | false =>
    refine writeParts_emits fun p hp => ?_
    rcases mem_cons.mp hp with rfl | hp
    · simp
    · exact hparts p hp

@[simp] theorem flatten_bytewise (bs : List UInt8) : (bytewise bs).flatten = bs := by
  simp [bytewise, ← flatMap_def]

theorem length_of_mem_bytewise {bs p : List UInt8} (h : p ∈ bytewise bs) : p.length ≤ 8 := by
  obtain ⟨b, -, rfl⟩ := mem_map.mp h
  simp

/-! ### Fixed-size values -/

section Scalars

variable (ctx : TdsTypeContext)

theorem serializeTime_serializes (v : SqlTime) : Serializes (serializeTime v ctx) (do
    let t ← wireTime v
    pure (wireScalar (ctx.isFixedType || ctx.isFixedLength) t)) := by
  rw [wireTime, bind_assoc]
  exact .lift _ fun n _ => serializeScalar_emits _ (fun _ => length_of_mem_bytewise)
    (flatten_bytewise _) (by simp)

theorem serializeDatetime2_serializes (v : SqlDateTime2) : Serializes (serializeDatetime2 v ctx) (do
    let t ← wireTime v.time
    pure (wireScalar (ctx.isFixedType || ctx.isFixedLength) (t ++ leBytes 3 v.days.toNat))) := by
  rw [wireTime, bind_assoc]
  refine .lift _ fun n _ => serializeScalar_emits _ ?_ (by simp) (by simp)
  exact forall_mem_append.mpr
    ⟨fun _ => length_of_mem_bytewise, fun _ => length_of_mem_bytewise⟩

theorem serializeDatetimeoffset_serializes (v : SqlDateTimeOffset) :
    Serializes (serializeDatetimeoffset v ctx) (do
      let t ← wireTime v.datetime2.time
      pure (wireScalar (ctx.isFixedType || ctx.isFixedLength)
        (t ++ leBytes 3 v.datetime2.days.toNat ++ leBytes 2 v.offset.toUInt16.toNat))) := by
  rw [wireTime, bind_assoc]
  refine .lift _ fun n _ => serializeScalar_emits _ ?_ (by simp) ?_
  · simp only [forall_mem_append]
    exact ⟨⟨fun _ => length_of_mem_bytewise, fun _ => length_of_mem_bytewise⟩,
      fun _ => length_of_mem_bytewise⟩
  · simp only [length_append, length_leBytes]

theorem serializeUuid_emits (v : Uuid) :
    Emits (serializeUuid v ctx) (wireScalar ctx.isFixedLength v.toBytesLe) := by
  rw [serializeUuid, wireScalar]
  have hlen : UInt8.ofNat v.toBytesLe.length = 16 := by simp [Uuid.toBytesLe]
  rw [hlen]
  exact emits_ite (writeIfSpace_emits (Emits.slice _))
    (writeIfSpace_emits ((Emits.byte 16).bind (Emits.slice _)))

/-- The words of a decimal are the bytes of its magnitude. -/
theorem flatMap_word (d : DecimalParts) {n : ℕ} (hn : n ≤ 4) :
    ((List.range n).flatMap fun i => leBytes 4 (d.word i).toUInt32.toNat) =
      leBytes (n * 4) d.magnitude.toNat := by
  induction n with
  | zero => rfl
  | succ n ih =>
    have hword : leBytes 4 (d.word n).toUInt32.toNat =
        leBytes 4 (d.magnitude.toNat / 256 ^ (n * 4)) := by
      rw [DecimalParts.word, if_neg (by omega), UInt32.toUInt32_toInt32, leBytes_ofNat32,
        Nat.shiftRight_eq_div_pow]
      congr 2
      rw [show 256 = 2 ^ 8 by rfl, ← pow_mul]
      congr 1
      omega
    rw [range_succ, flatMap_append, ih (by omega), flatMap_singleton, hword,
      ← leBytes_add, Nat.succ_mul]

theorem decimalValueBytes_cases {p : UInt8} {n : ℕ} (h : decimalValueBytes p = some n) :
    n = 4 ∨ n = 8 ∨ n = 12 ∨ n = 16 := by
  unfold decimalValueBytes at h
  split_ifs at h <;> simp_all

theorem serializeDecimal_serializes (v : DecimalParts) :
    Serializes (serializeDecimal v ctx) (wireDecimal v ctx) := by
  rw [serializeDecimal, wireDecimal]
  cases hbytes : decimalValueBytes (ctx.precision.getD 38) with
  | none => exact Serializes.throw _
  | some n =>
    have hwords := Emits.forM (fun i => Emits.i32 (v.word i)) (List.range (n / 4))
    have hn := decimalValueBytes_cases hbytes
    rw [flatMap_word v (by omega), show n / 4 * 4 = n by omega] at hwords
    have hsign := (Emits.byte (if v.isPositive then 1 else 0)).bind hwords
    have hlen : UInt8.ofNat ((if v.isPositive then 1 else 0) ::
        leBytes n v.magnitude.toNat).length = UInt8.ofNat (1 + n) := by
      rw [length_cons, length_leBytes, Nat.add_comm]
    dsimp only [Serializes]
    rw [wireScalar, hlen]
    cases ctx.isFixedLength with
    | true => exact Emits.pure.bind hsign
    | false => exact (Emits.byte _).bind hsign

theorem serializeNull_serializes : Serializes (serializeNull ctx) (wireNull ctx) := by
  refine .ite (fun _ => Emits.byte _) fun _ => ?_
  refine .ite (fun _ => Emits.byte _) fun _ => ?_
  refine .ite (fun _ => .throw _) fun _ => ?_
  refine .ite (fun _ => Emits.u64 _) fun _ => ?_
  exact .ite (fun _ => .throw _) fun _ => Emits.u16 _

end Scalars

/-! ### Variable-size values -/

variable {data : WriterM Unit}

theorem writePlp_emits (hdata : Emits data bs) {n : ℕ}
    (hn : bs.length = n) : Emits (writePlp n data) (wirePlp bs) := by
  have hchunk : Emits (writePlpChunk n data)
      (if bs = [] then [] else leBytes 4 bs.length ++ bs) := by
    rw [writePlpChunk, ← hn]
    by_cases h : bs = []
    · rw [if_pos h, if_neg (by simp [h])]
      exact .pure
    · rw [if_neg h, if_pos (length_pos_iff.mpr h)]
      exact (writeLen32_emits _).bind hdata
  have hall := (Emits.u64 plpUnknownLen).bind
    (hchunk.bind (Emits.u32 plpTerminator))
  rwa [← append_assoc] at hall

theorem writeTextPtr_emits :
    Emits writeTextPtr (0x10 :: List.replicate 16 0xFF ++ List.replicate 8 0xFF) :=
  (Emits.byte _).bind
    ((Emits.forM_byte _).bind (Emits.forM_byte _))

/-- A large object behind its text pointer. -/
theorem writeLob_emits (hdata : Emits data bs) {n : ℕ}
    (hn : bs.length = n) :
    Emits (do writeTextPtr; writeU32Async (UInt32.ofNat n); data) (wireLob bs) := by
  have hall := writeTextPtr_emits.bind ((writeLen32_emits n).bind hdata)
  rw [← hn] at hall ⊢
  rwa [← append_assoc] at hall

theorem writeCounted_emits (hdata : Emits data bs) :
    Emits (do writeU16Async (UInt16.ofNat bs.length); data) (wireCounted bs) :=
  (writeLen16_emits _).bind hdata

theorem serializeBytes_serializes (v : List UInt8) (ctx : TdsTypeContext) :
    Serializes (serializeBytes v ctx) (wireBytes v ctx) := by
  refine .ite (fun _ => .throw _) fun _ => ?_
  refine .ite (fun _ => writeLob_emits (Emits.slice v) rfl) fun _ => ?_
  refine .ite (fun _ => writePlp_emits (Emits.slice v) rfl) fun _ => ?_
  refine .ite (fun _ => ?_) fun _ => writeCounted_emits (Emits.forM_byte v)
  exact (Emits.forM_byte v).bind (Emits.forM_byte _)

theorem serializeJson_serializes (cs : Codecs) (v : SqlJson) :
    Serializes (serializeJson cs v) (wireJson cs v) := by
  rw [serializeJson, wireJson]
  cases fromUtf8 v.bytes with
  | none => exact .throw _
  | some text =>
    exact writePlp_emits (Emits.forM_u16 _) (by rw [length_unitsLe, Nat.mul_comm])

theorem serializeXml_emits (v : SqlXml) : Emits (serializeXml v) (wireXml v) := by
  have hbom : Emits (if !v.hasBom then do writeByteAsync 0xFF; writeByteAsync 0xFE else pure ())
      (if !v.hasBom then [0xFF, 0xFE] else []) :=
    emits_ite ((Emits.byte _).bind (Emits.byte _)) Emits.pure
  refine writePlp_emits (emits_of_eq (hbom.bind (Emits.slice v.bytes)) ?_) ?_
  · cases v.hasBom <;> rfl
  · cases v.hasBom <;> rfl

theorem encodeVectorHeader_emits (n : UInt16) (t : VectorBaseType) :
    Emits (encodeVectorHeader n t) (wireVectorHeader n t) := by
  have hzeros := (Emits.byte 0).bind
    ((Emits.byte 0).bind (Emits.byte 0))
  have hcount := (Emits.u16 n).bind ((Emits.byte t.code).bind hzeros)
  exact (Emits.byte 0xA9).bind ((Emits.byte 0x01).bind hcount)

theorem serializeVector_serializes (cs : Codecs) (v : SqlVector) :
    Serializes (serializeVector cs v) (wireVector cs v) := by
  refine .ite (fun _ => .throw _) fun _ => ?_
  refine .ite (fun _ => .throw _) fun _ => ?_
  refine (writeLen16_emits _).bind ((encodeVectorHeader_emits _ _).bind ?_)
  cases v.data with
  | float32 values =>
    exact Emits.forM (fun f => emits_of_eq (Emits.i32 _) (by simp)) values
  | float16 values => exact Emits.forM (fun f => Emits.u16 _) values

/-! ### Strings -/

section Strings

variable (cs : Codecs) (ctx : TdsTypeContext)

theorem serializeCharVarcharDirect_serializes (bytes : List UInt8) (limit : Option ℕ) (fit : Bool) :
    Serializes (serializeCharVarcharDirect bytes ctx limit fit)
      (wireCharVarchar bytes ctx limit fit) := by
  refine .lift _ fun data _ => ?_
  have hdata := Emits.slice data
  refine emits_ite (writeLob_emits hdata rfl) (emits_ite (writePlp_emits hdata rfl) ?_)
  exact emits_ite (hdata.bind (Emits.forM_byte _)) (writeCounted_emits hdata)

theorem serializeStringUtf16_serializes (text : List Char) :
    Serializes (serializeStringUtf16 text ctx) (wireStringUtf16 text ctx) := by
  have hunits := Emits.forM_u16 (utf16Units text)
  refine .ite (fun _ => .throw _) fun _ => ?_
  refine .ite (fun _ => ?_) fun _ => .ite (fun _ => ?_) fun _ => ?_
  · exact writePlp_emits hunits (by rw [length_unitsLe, Nat.mul_comm])
  · exact hunits.bind (Emits.forM_u16 _)
  · exact (writeLen16_emits _).bind hunits

theorem serializeNtext_serializes (value : SqlString) (bytes : List UInt8) (isUnicode : Bool) :
    Serializes (do writeTextPtr; serializeNtextData cs value bytes isUnicode)
      (wireNtext cs value bytes isUnicode) := by
  cases isUnicode with
  | true => exact writeLob_emits (Emits.slice bytes) rfl
  | false =>
    rw [serializeNtextData, wireNtext, if_neg Bool.false_ne_true, if_neg Bool.false_ne_true]
    cases value.toUtf8String cs with
    | error e =>
      intro w hw
      obtain ⟨w', ps, hrun, -⟩ := writeTextPtr_emits w hw
      exact ⟨w', by rw [EState.bind_ok hrun]; rfl⟩
    | ok text =>
      exact writeLob_emits (Emits.forM_u16 (utf16Units text))
        (by rw [length_unitsLe, Nat.mul_comm])

theorem serializeStringBytes_serializes (value : SqlString) (bytes : List UInt8)
    (isUnicode : Bool) :
    Serializes (serializeStringBytes cs value bytes isUnicode ctx)
      (wireStringBytes cs value bytes isUnicode ctx) := by
  have hbytes := Emits.slice bytes
  refine .ite (fun _ => .throw _) fun _ => ?_
  refine .ite (fun _ => .throw _) fun _ => ?_
  refine .ite (fun _ => serializeNtext_serializes cs value bytes isUnicode) fun _ => ?_
  refine .ite (fun _ => writePlp_emits hbytes rfl) fun _ => ?_
  refine .ite (fun _ => ?_) fun _ => writeCounted_emits hbytes
  exact hbytes.bind (emits_ite (Emits.forM_u16 _) (Emits.forM_byte _))

theorem serializeString_serializes (value : SqlString) (limit : Option ℕ) (fit : Bool) :
    Serializes (serializeString cs value ctx limit fit) (wireString cs value ctx limit fit) := by
  refine .ite (fun _ => ?_) fun _ => .ite (fun _ => ?_) fun _ =>
    Serializes.ite (fun _ => ?_) fun _ => .throw _
  · cases value.asUtf16Bytes with
    | some bytes => exact serializeStringBytes_serializes cs ctx value bytes true
    | none =>
      cases value.asRawWireBytes with
      | some bytes => exact serializeStringBytes_serializes cs ctx value bytes true
      | none => exact .lift _ fun text _ => serializeStringUtf16_serializes ctx text
  · cases value.asUtf16Bytes with
    | some bytes => exact serializeStringBytes_serializes cs ctx value bytes true
    | none => exact serializeStringBytes_serializes cs ctx value value.bytes false
  · exact .lift _ fun encoded _ =>
      (serializeCharVarcharDirect_serializes ctx _ _ fit).note encoded.2

end Strings

/-! ### Whole values -/

section Values

variable (cs : Codecs) (value : ColumnValues) (ctx : TdsTypeContext) (limit : Option ℕ) (fit : Bool)

/-- A nullable float is the one value whose slow path is not checked. -/
def isNullableFloat : Bool :=
  match value with
  | .float _ => !ctx.isFixedType
  | _ => false

theorem serializeFloat_emits_of_fixed (v : UInt64) (h : ctx.isFixedType = true) :
    Emits (serializeFloat v ctx) (wireScalar ctx.isFixedType (leBytes 8 v.toNat)) := by
  rw [serializeFloat, wireScalar, h]
  exact writeIfSpace_emits (emits_of_eq (Emits.i64 _) (by simp))

theorem serializeValueInner_serializes (h : isNullableFloat value ctx = false) :
    Serializes (serializeValueInner cs value ctx limit fit)
      (wireValueInner cs value ctx limit fit) := by
  cases value with
  | null => exact serializeNull_serializes ctx
  | bit v | tinyInt v | smallInt v | int v | bigInt v | real v | smallMoney v | money v
  | dateTime v | smallDateTime v => exact serializeScalar_emits _ (by simp) (by simp) rfl
  | float v => exact serializeFloat_emits_of_fixed ctx v (by simpa [isNullableFloat] using h)
  | decimal v | numeric v => exact serializeDecimal_serializes ctx v
  | date v =>
    exact serializeScalar_emits _ (fun _ => length_of_mem_bytewise) (flatten_bytewise _) rfl
  | time v => exact serializeTime_serializes ctx v
  | dateTime2 v => exact serializeDatetime2_serializes ctx v
  | dateTimeOffset v => exact serializeDatetimeoffset_serializes ctx v
  | bytes v => exact serializeBytes_serializes v ctx
  | json v => exact serializeJson_serializes cs v
  | string v => exact serializeString_serializes cs ctx v limit fit
  | vector v => exact serializeVector_serializes cs v
  | xml v => exact serializeXml_emits v
  | uuid v => exact serializeUuid_emits ctx v

theorem writeTypeInfoBytes_serializes (baseType : TdsDataType)
    (resolved : Option (List UInt8)) :
    Serializes (writeTypeInfoBytes baseType value ctx resolved)
      (wireTypeInfo baseType value ctx resolved) := by
  have hstring : Serializes (writeTypeInfoBytes .nVarChar value ctx resolved)
      (wireTypeInfo .nVarChar value ctx resolved) := by
    dsimp only [Serializes, wireTypeInfo, writeTypeInfoBytes]
    refine (Emits.u32 _).bind ((Emits.byte _).bind ?_)
    rcases resolved with _ | bytes
    · cases value
      case string s => exact writeLen16_emits _
      all_goals exact Emits.u16 _
    · exact writeLen16_emits _
  cases baseType
  case timeN => cases value <;> first | exact Emits.byte _ | exact .pure
  case dateTime2N => cases value <;> first | exact Emits.byte _ | exact .pure
  case dateTimeOffsetN => cases value <;> first | exact Emits.byte _ | exact .pure
  case decimalN =>
    cases value <;>
      first | exact (Emits.byte _).bind (Emits.byte _) | exact .pure
  case numericN =>
    cases value <;>
      first | exact (Emits.byte _).bind (Emits.byte _) | exact .pure
  case bigVarBinary => cases value <;> first | exact writeLen16_emits _ | exact .pure
  case nVarChar => exact hstring
  case bigVarChar => exact hstring
  all_goals first | exact .pure | exact .throw _

variable {inner : TdsTypeContext} {baseType : TdsDataType}

/-- Inside a variant a float has the fixed type. -/
theorem isNullableFloat_inner {resolved : Option (List UInt8)}
    (h : createVariantInnerContext value baseType ctx resolved = .ok inner) :
    isNullableFloat value inner = false := by
  cases value
  case float v => cases h; rfl
  all_goals rfl

theorem writeVariantData_serializes (frame : VariantFrame)
    (h : createVariantInnerContext value baseType ctx frame.resolvedNarrow = .ok inner) :
    Serializes (writeVariantData cs value frame inner) (wireVariantData cs value frame inner) := by
  rw [writeVariantData, wireVariantData]
  cases frame.resolvedNarrow with
  | some bytes => exact serializeCharVarcharDirect_serializes inner bytes none false
  | none =>
    exact serializeValueInner_serializes cs value inner none false
      (isNullableFloat_inner value ctx h)

/-- Results one after the other. -/
theorem Serializes.seq {m k : WriterM Unit} {r r' : TdsResult (List UInt8)}
    (hm : Serializes m r) (hk : Serializes k r') :
    Serializes (m >>= fun _ => k) (do let bs ← r; let cs ← r'; pure (bs ++ cs)) := by
  cases r with
  | ok bs => exact .after hm hk
  | error e =>
    intro w hw
    obtain ⟨w', hrun⟩ := hm w hw
    exact ⟨w', EState.bind_error hrun⟩

theorem serializeAsVariant_serializes :
    Serializes (serializeAsVariant cs value ctx limit fit)
      (wireVariant cs value ctx limit fit) := by
  refine Serializes.ite (fun _ => Emits.u32 0) fun _ => ?_
  refine Serializes.lift _ fun frame _ => ?_
  have htail : Serializes
      (liftResult (createVariantInnerContext value frame.baseType ctx frame.resolvedNarrow) >>=
        fun inner => writeVariantData cs value frame inner >>= fun _ =>
          if frame.narrowHadLoss then noteCodePageConversionLoss else pure ())
      (createVariantInnerContext value frame.baseType ctx frame.resolvedNarrow >>=
        wireVariantData cs value frame) :=
    Serializes.lift _ fun _ h => (writeVariantData_serializes cs value ctx frame h).note _
  have hinfo : Serializes (if frame.propLen > 0 then
      writeTypeInfoBytes frame.baseType value ctx frame.resolvedNarrow else pure ())
      (wireVariantProps value ctx frame) :=
    Serializes.ite (fun _ => writeTypeInfoBytes_serializes value ctx _ _) fun _ => Emits.pure
  have hall := Serializes.after (writeLen32_emits frame.totalLength)
    (Serializes.after (Emits.byte frame.baseType.code)
      (Serializes.after (Emits.byte (UInt8.ofNat frame.propLen)) (hinfo.seq htail)))
  convert hall using 1
  simp only [bind_assoc, pure_bind, append_assoc, cons_append, nil_append]

end Values

end MssqlTds
