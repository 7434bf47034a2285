import MssqlTds.Datatypes.NarrowEncoding
import MssqlTds.Datatypes.PacketBoundary
import MssqlTds.Datatypes.TypeInfoFormat

/-!
# The preflight of narrow strings and large objects

The preflight encodes a narrow string and checks its bytes against the limits; the serializer
encodes it again, on a path of its own.  Both see the same bytes (`narrowStringWireBytes_eq`), so a
string that passed is written if its bytes are text at all (`succeeds_wireString_of_validated`).

The length of a legacy large object is only checked where encoding it could exceed the limit;
`Codecs.Regular` states what this takes for granted, and `succeeds_fitLegacyLob` that it is enough.
-/

namespace MssqlTds

open Bytes Unicode PacketWriter TdsValueSerializer List

/-! ### Results without an error -/

/-- The computation returns a value. -/
def Succeeds {α : Type} (r : TdsResult α) : Prop := ∃ a, r = .ok a

section

variable {α β : Type}

@[simp] theorem succeeds_ok (a : α) : Succeeds (.ok a : TdsResult α) := ⟨a, rfl⟩

@[simp] theorem succeeds_pure (a : α) : Succeeds (pure a : TdsResult α) := ⟨a, rfl⟩

@[simp] theorem not_succeeds_error (e : Error) : ¬ Succeeds (.error e : TdsResult α) := by
  rintro ⟨a, h⟩
  cases h

theorem succeeds_bind {r : TdsResult α} {f : α → TdsResult β} :
    Succeeds (r >>= f) ↔ ∃ a, r = .ok a ∧ Succeeds (f a) := by
  cases r with
  | ok a => simp [Succeeds]
  | error e => simp [Succeeds]

theorem succeeds_ite_error {c : Prop} [Decidable c] {e : Error} {r : TdsResult α} :
    Succeeds (if c then .error e else r) ↔ ¬ c ∧ Succeeds r := by
  by_cases h : c <;> simp [h]

end

theorem Serializes.ok_iff {m : WriterM Unit} {r : TdsResult (List UInt8)} {w : PacketWriter}
    (h : Serializes m r) (hw : Ready w) : (∃ w', m w = .ok () w') ↔ Succeeds r := by
  cases r with
  | ok bs =>
    obtain ⟨w', ps, hrun, -⟩ := h w hw
    exact ⟨fun _ => succeeds_ok bs, fun _ => ⟨w', hrun⟩⟩
  | error e =>
    obtain ⟨w', hrun⟩ := h w hw
    refine ⟨?_, fun hr => absurd hr (not_succeeds_error e)⟩
    rintro ⟨w'', hrun'⟩
    rw [hrun] at hrun'
    cases hrun'

/-! ### Encodings -/

/-- A UTF-8 collation selects UTF-8. -/
theorem Codecs.encodeNarrowForWire_utf8 (cs : Codecs) (text : List Char)
    {collation : SqlCollation} (h : collation.utf8 = true) :
    cs.encodeNarrowForWire text (some collation) = ⟨asBytes text, false⟩ := by
  simp only [encodeNarrowForWire, tryResolveCollation, h, if_true, encodeNarrowWith, encode,
    cs.encodeRs_utf8]
  rfl

/-- What the preflight relies on in the library: encoding a value for a narrow type at most triples
it, and decoding yields at most one UTF-16 unit for each byte. -/
structure Codecs.Regular (cs : Codecs) : Prop where
  length_utf8 : ∀ e text,
    (cs.encodeNarrowWith text (.encodingRs e)).bytes.length ≤ 3 * (asBytes text).length
  length_utf16 : ∀ e bytes,
    (cs.encodeNarrowWith (cs.decodeUtf16 bytes) (.encodingRs e)).bytes.length ≤ 3 * bytes.length
  units_utf16 : ∀ bytes, (utf16Units (cs.decodeUtf16 bytes)).length ≤ bytes.length
  units_narrow : ∀ e bytes, (utf16Units (cs.decodeRs e bytes)).length ≤ bytes.length

theorem Codecs.Regular.length_units_decode {cs : Codecs} (hcs : cs.Regular)
    (encoding : ResolvedEncoding) (bytes : List UInt8) :
    (utf16Units (cs.decode encoding bytes)).length ≤ bytes.length := by
  cases encoding with
  | encodingRs e => exact hcs.units_narrow e bytes
  | oem437 | oem850 => exact (CodePage.length_utf16Units_decode bytes).le

/-- The bytes are text, if they are said to be UTF-8. -/
def SqlString.Decodes (s : SqlString) : Prop :=
  s.encodingType = .utf8 → ∃ text, fromUtf8 s.bytes = some text

/-- Bytes that fit once trailing spaces are dropped. -/
def FitsNarrow (bytes : List UInt8) (maximum : ℕ) : Prop :=
  bytes.length ≤ maximum ∨ ∀ b ∈ bytes.drop maximum, b = 0x20

/-- The string consists of whole UTF-16 units, as many as fit. -/
def SqlString.FitsWide (s : SqlString) (maximum : Option ℕ) : Prop :=
  match s.encodingType with
  | .utf8 => ∃ text, fromUtf8 s.bytes = some text ∧ ∀ m ∈ maximum, (utf16Units text).length ≤ m
  | .utf16 | .lcidBased _ | .delayedSet =>
    s.bytes.length % 2 = 0 ∧ ∀ m ∈ maximum, s.bytes.length / 2 ≤ m

/-! ### Narrow strings -/

section Narrow

variable {cs : Codecs} {s : SqlString} {ctx : TdsTypeContext} {limit : Option ℕ}

theorem succeeds_toUtf8String (hraw : s.asRawWireBytes = none) :
    Succeeds (s.toUtf8String cs) ↔ s.Decodes := by
  obtain ⟨bytes, encoding, own⟩ := s
  cases encoding with
  | utf8 =>
    simp only [SqlString.toUtf8String, Codecs.decodeString, SqlString.Decodes, true_implies]
    cases fromUtf8 bytes <;> simp
  | utf16 => simp [SqlString.toUtf8String, Codecs.decodeString, SqlString.Decodes]
  | lcidBased _ | delayedSet => cases hraw

theorem succeeds_fitNarrow (bytes : List UInt8) (maximum : ℕ) :
    Succeeds (fitNarrowByteLimit bytes maximum) ↔ FitsNarrow bytes maximum := by
  unfold fitNarrowByteLimit FitsNarrow
  split
  · next hle => exact iff_of_true (succeeds_ok _) (.inl hle)
  · next hgt =>
    rw [or_iff_right hgt]
    split
    · next h => exact iff_of_true (succeeds_ok _) (by simpa using h)
    · next h => exact iff_of_false (not_succeeds_error _) (by simpa using h)

theorem FitsNarrow.mono {bytes : List UInt8} {m n : ℕ} (h : FitsNarrow bytes m) (hle : m ≤ n) :
    FitsNarrow bytes n := by
  rcases h with h | h
  · exact .inl (h.trans hle)
  · refine .inr fun b hb => h b ?_
    obtain ⟨k, rfl⟩ := Nat.exists_eq_add_of_le hle
    rw [← drop_drop] at hb
    exact mem_of_mem_drop hb

/-- The bytes of a narrow string, as the preflight computes them. -/
def encodedNarrow (cs : Codecs) (s : SqlString) (collation : Option SqlCollation) :
    TdsResult (List UInt8 × Bool) :=
  match s.asRawWireBytes with
  | some raw => .ok (raw, false)
  | none => do
    let decoded ← s.toUtf8String cs
    let encoded := cs.encodeNarrowForWire decoded collation
    pure (encoded.bytes, encoded.hadLoss)

/-- They do not depend on whether the string is found to be UTF-8 already. -/
theorem narrowStringWireBytes_eq (s : SqlString) (collation : Option SqlCollation) :
    narrowStringWireBytes cs s collation = encodedNarrow cs s collation := by
  unfold narrowStringWireBytes encodedNarrow
  cases hraw : s.asRawWireBytes with
  | some raw => rfl
  | none =>
    obtain ⟨bytes, encoding, own⟩ := s
    cases encoding with
    | lcidBased _ | delayedSet => cases hraw
    | utf16 => rfl
    | utf8 =>
      simp only [SqlString.toUtf8String, Codecs.decodeString]
      cases htext : fromUtf8 bytes with
      | none => rfl
      | some text =>
        cases collation with
        | none => rfl
        | some collation =>
          by_cases hutf8 : collation.utf8 = true
          · simp [hutf8, cs.encodeNarrowForWire_utf8 text hutf8, asBytes_of_fromUtf8 htext]
          · simp [hutf8]

theorem succeeds_encodedNarrow {collation : Option SqlCollation} :
    Succeeds (encodedNarrow cs s collation) ↔ s.Decodes := by
  unfold encodedNarrow
  cases hraw : s.asRawWireBytes with
  | some raw =>
    refine iff_of_true (succeeds_ok _) fun hutf8 => ?_
    rw [SqlString.asRawWireBytes, hutf8] at hraw
    cases hraw
  | none =>
    rw [succeeds_bind, ← succeeds_toUtf8String hraw]
    exact ⟨fun ⟨text, htext, _⟩ => ⟨text, htext⟩, fun ⟨text, htext⟩ => ⟨text, htext, ⟨_, rfl⟩⟩⟩

theorem effectiveLimit_idem :
    effectiveNarrowStringByteLimit s (effectiveNarrowStringByteLimit s limit) =
      effectiveNarrowStringByteLimit s limit := by
  unfold effectiveNarrowStringByteLimit
  cases s.narrowStringByteLimit <;> cases limit <;> simp

theorem narrowMaximum_idem {m : ℕ}
    (h : narrowStringMaximum ctx (effectiveNarrowStringByteLimit s limit) = some m) :
    narrowStringMaximum ctx (effectiveNarrowStringByteLimit s (some m)) = some m := by
  revert h
  unfold effectiveNarrowStringByteLimit narrowStringMaximum
  cases s.narrowStringByteLimit <;> cases limit <;> cases ctx.isPlp <;> simp <;> omega

/-- The bytes within their limits. -/
theorem narrowStringBytes_eq (hnarrow : SqlType.isNarrowType ctx.tdsType = true) :
    SqlType.narrowStringBytes cs (.string s) ctx limit =
      encodedNarrow cs s ctx.collation >>= fun encoded =>
        limitNarrow encoded.1 (narrowStringMaximum ctx (effectiveNarrowStringByteLimit s limit))
          true >>= fun bytes => pure (some (bytes, encoded.2)) := by
  simp only [SqlType.narrowStringBytes, hnarrow, Bool.not_true, Bool.false_eq_true, if_false,
    encodedNarrow]
  cases s.asRawWireBytes with
  | some raw => rfl
  | none => cases s.toUtf8String cs <;> rfl

theorem validateNarrowStringLength_iff (hnarrow : SqlType.isNarrowType ctx.tdsType = true) :
    SqlType.validateNarrowStringLength cs (.string s) ctx limit = .ok () ↔
      ∀ m ∈ narrowStringMaximum ctx (effectiveNarrowStringByteLimit s limit),
        ∃ bytes hadLoss, encodedNarrow cs s ctx.collation = .ok (bytes, hadLoss) ∧
          FitsNarrow bytes m := by
  unfold SqlType.validateNarrowStringLength
  simp only [hnarrow, Bool.not_true, Bool.false_eq_true, if_false]
  cases hmax : narrowStringMaximum ctx (effectiveNarrowStringByteLimit s limit) with
  | none => simp
  | some m =>
    have hunit {α : Type} (r : TdsResult α) : (r >>= fun _ => pure ()) = .ok () ↔ Succeeds r := by
      cases r <;> simp
    simp only [hunit, narrowStringBytes_eq hnarrow, narrowMaximum_idem hmax, Option.mem_def,
      Option.some.injEq, forall_eq']
    rw [succeeds_bind]
    constructor
    · rintro ⟨⟨bytes, hadLoss⟩, hencoded, hfit⟩
      obtain ⟨data, hdata, -⟩ := succeeds_bind.mp hfit
      exact ⟨bytes, hadLoss, hencoded, (succeeds_fitNarrow bytes m).mp ⟨data, hdata⟩⟩
    · rintro ⟨bytes, hadLoss, hencoded, hfit⟩
      obtain ⟨data, hdata⟩ := (succeeds_fitNarrow bytes m).mpr hfit
      exact ⟨_, hencoded, succeeds_bind.mpr ⟨data, hdata, succeeds_pure _⟩⟩

theorem succeeds_limitNarrow (bytes : List UInt8) (maximum : Option ℕ) :
    Succeeds (limitNarrow bytes maximum true) ↔ ∀ m ∈ maximum, FitsNarrow bytes m := by
  cases maximum with
  | none => simp [limitNarrow]
  | some m => simp [limitNarrow, succeeds_fitNarrow]

/-- The bytes of a narrow string in the framing of its column's type. -/
def wireNarrow (ctx : TdsTypeContext) (data : List UInt8) : List UInt8 :=
  if ctx.tdsType = TdsDataType.text.code then wireLob data
  else if ctx.isPlp then wirePlp data
  else if ctx.isFixedLength then data ++ replicate (ctx.maxSize - data.length) 0x20
  else wireCounted data

/-- The serializer writes the bytes that the preflight measures, in the framing of the type. -/
theorem wireString_narrow (hnarrow : SqlType.isNarrowType ctx.tdsType = true) :
    wireString cs s ctx limit true =
      encodedNarrow cs s ctx.collation >>= fun encoded =>
        limitNarrow encoded.1 (narrowStringMaximum ctx (effectiveNarrowStringByteLimit s limit))
          true >>= fun data => pure (wireNarrow ctx data) := by
  have hmem : ctx.tdsType ∈
      [TdsDataType.bigVarChar.code, TdsDataType.bigChar.code, TdsDataType.text.code] := by
    simpa [SqlType.isNarrowType] using hnarrow
  have hwide : ctx.tdsType ∉ [TdsDataType.nVarChar.code, TdsDataType.nChar.code] := by
    intro h
    simp only [mem_cons, not_mem_nil, or_false] at h hmem
    rcases h with h | h <;> rw [h] at hmem <;> exact absurd hmem (by decide)
  have hntext : ctx.tdsType ≠ TdsDataType.nText.code := by
    intro h
    rw [h] at hmem
    exact absurd hmem (by decide)
  simp only [wireString, if_neg hwide, if_neg hntext, if_pos hmem, narrowStringWireBytes_eq]
  rfl

theorem succeeds_wireString_narrow (hnarrow : SqlType.isNarrowType ctx.tdsType = true) :
    Succeeds (wireString cs s ctx limit true) ↔
      ∃ bytes hadLoss, encodedNarrow cs s ctx.collation = .ok (bytes, hadLoss) ∧
        ∀ m ∈ narrowStringMaximum ctx (effectiveNarrowStringByteLimit s limit),
          FitsNarrow bytes m := by
  rw [wireString_narrow hnarrow]
  simp only [succeeds_bind, succeeds_pure, and_true, Prod.exists]
  exact exists₂_congr fun bytes _ => and_congr_right fun _ => succeeds_limitNarrow bytes _

/-- A narrow string that passed the preflight is written if its bytes are text. -/
theorem succeeds_wireString_of_validated
    (hnarrow : SqlType.isNarrowType ctx.tdsType = true)
    (hvalid : SqlType.validateNarrowStringLength cs (.string s) ctx limit = .ok ()) :
    Succeeds (wireString cs s ctx limit true) ↔ s.Decodes := by
  rw [succeeds_wireString_narrow hnarrow]
  rw [validateNarrowStringLength_iff hnarrow] at hvalid
  constructor
  · rintro ⟨bytes, hadLoss, hencoded, -⟩
    exact succeeds_encodedNarrow.mp ⟨_, hencoded⟩
  · intro hdecodes
    obtain ⟨⟨bytes, hadLoss⟩, hencoded⟩ :=
      (@succeeds_encodedNarrow cs s ctx.collation).mpr hdecodes
    refine ⟨bytes, hadLoss, hencoded, fun m hm => ?_⟩
    obtain ⟨bytes', hadLoss', hencoded', hfits⟩ := hvalid m hm
    rw [hencoded] at hencoded'
    cases hencoded'
    exact hfits

theorem length_encodeLatin1 (text : List Char) :
    (encodeLatin1ForWire text).bytes.length ≤ (utf16Units text).length := by
  induction text with
  | nil => exact le_refl 0
  | cons c text ih =>
    have hc : (if c.toNat < 256 then [UInt8.ofNat c.toNat] else substitutes c).length ≤
        (encodeUtf16 c).length := by
      split
      · rcases encodeUtf16_cases c with ⟨u, hu⟩ | ⟨hi, lo, hu⟩ <;> simp [hu]
      · simp [substitutes]
    rw [utf16Units_cons, length_append]
    simp only [encodeLatin1ForWire, flatMap_cons, length_append] at ih ⊢
    exact Nat.add_le_add hc ih

/-- Encoding at most triples a value. -/
theorem length_encodedNarrow (hcs : cs.Regular) {collation : SqlCollation} {bytes : List UInt8}
    {hadLoss : Bool} (h : encodedNarrow cs s (some collation) = .ok (bytes, hadLoss)) :
    bytes.length ≤ 3 * s.bytes.length := by
  -- the fallback and the code pages write at most one byte for each unit
  have hwire (text : List Char) (hunits : (utf16Units text).length ≤ s.bytes.length)
      (hwith : ∀ e, (cs.encodeNarrowWith text (.encodingRs e)).bytes.length ≤ 3 * s.bytes.length) :
      (cs.encodeNarrowForWire text (some collation)).bytes.length ≤ 3 * s.bytes.length := by
    unfold Codecs.encodeNarrowForWire
    dsimp only
    cases tryResolveCollation collation with
    | none =>
      have := length_encodeLatin1 text
      dsimp only
      omega
    | some encoding =>
      cases encoding with
      | encodingRs e => exact hwith e
      | oem437 | oem850 =>
        refine (cs.length_encodeNarrowWith_oem (by simp) text).trans ?_
        omega
  obtain ⟨source, encoding, own⟩ := s
  cases encoding with
  | utf16 =>
    cases h
    exact hwire _ (hcs.units_utf16 source) fun e => hcs.length_utf16 e source
  | utf8 =>
    simp only [encodedNarrow, SqlString.asRawWireBytes, SqlString.toUtf8String,
      Codecs.decodeString] at h
    cases htext : fromUtf8 source with
    | none =>
      rw [htext] at h
      cases h
    | some text =>
      rw [htext] at h
      cases h
      have hbytes := asBytes_of_fromUtf8 htext
      refine hwire text ?_ fun e => ?_
      · rw [← hbytes]
        exact length_utf16Units_le text
      · rw [← hbytes]
        exact hcs.length_utf8 e text
  | lcidBased _ | delayedSet =>
    cases h
    omega

end Narrow

/-! ### Legacy large objects -/

namespace SqlType

variable {cs : Codecs} {dbCollation : SqlCollation} {limit : Option ℕ} {value : SqlType}
  {s : SqlString} {w : PacketWriter}

/-- The bytes of the object within its limits. -/
def fittedLob (cs : Codecs) (dbCollation : SqlCollation) (columnLimit : Option ℕ)
    (value : SqlType) : TdsResult (Option (List UInt8 × UInt32)) := do
  let (encoded, _) ← legacyLobWireBytes cs dbCollation value
  match encoded with
  | some bytes =>
    let fitted ← fitLegacyLob value.isText bytes (value.effectiveLimit columnLimit)
    pure (some fitted)
  | none => pure none

theorem serializeLegacyLob_ok_iff (hw : Ready w) :
    (∃ w', serializeLegacyLob cs dbCollation limit value w = .ok () w') ↔
      Succeeds (fittedLob cs dbCollation limit value) := by
  unfold serializeLegacyLob fittedLob
  cases legacyLobWireBytes cs dbCollation value with
  | error e => simp [liftResult, bind, Except.bind, EStateM.bind]
  | ok result =>
    obtain ⟨encoded, hadLoss⟩ := result
    rw [liftResult_ok_bind]
    cases encoded with
    | none =>
      obtain ⟨info, hinfo⟩ := writeLegacyLobTypeInfo_emits value dbCollation 0
      have hall := hinfo.bind ((Emits.u32 0xFFFFFFFF).bind
        (noteCodePageConversionLoss_emits hadLoss))
      obtain ⟨w', ps, hrun, -⟩ := hall w hw
      exact iff_of_true ⟨w', by simpa using hrun⟩ ⟨none, rfl⟩
    | some bytes =>
      cases hfit : fitLegacyLob value.isText bytes (value.effectiveLimit limit) with
      | error e =>
        simp [hfit, liftResult, bind, Except.bind, EStateM.bind]
      | ok fitted =>
        obtain ⟨info, hinfo⟩ := writeLegacyLobTypeInfo_emits value dbCollation fitted.2
        have hall := hinfo.bind ((Emits.u32 fitted.2).bind
          ((Emits.slice fitted.1).bind (noteCodePageConversionLoss_emits hadLoss)))
        obtain ⟨w', ps, hrun, -⟩ := hall w hw
        refine iff_of_true ⟨w', ?_⟩ ⟨some fitted, by simp [hfit]⟩
        simpa [hfit, liftResult_ok_bind] using hrun

theorem succeeds_legacyLobLength (n : ℕ) :
    Succeeds (legacyLobLength n) ↔ n ≤ legacyLobMaxBytes := by
  unfold legacyLobLength
  split <;> simp [*]

theorem length_fitNarrow {bytes data : List UInt8} {m : ℕ}
    (h : fitNarrowByteLimit bytes m = .ok data) : data.length = min bytes.length m := by
  unfold fitNarrowByteLimit at h
  split at h
  · cases h
    omega
  · split at h
    · cases h
      rw [length_take]
      omega
    · cases h

/-- **An object that passed the check of its length is within the limits**, also where the check
trusts that encoding at most triples a value. -/
theorem succeeds_fitLegacyLob {bytes : List UInt8} {hadLoss : Bool} {n : ℕ}
    (hvalid : validateLegacyLobLength cs value dbCollation limit = .ok ())
    (hsource : value.legacyLobSourceLength = some n)
    (hencoded : legacyLobWireBytes cs dbCollation value = .ok (some bytes, hadLoss))
    (hlength : bytes.length ≤ 3 * n)
    (hnarrow : value.isText = true → ∀ m ∈ limit, FitsNarrow bytes m) :
    Succeeds (fitLegacyLob value.isText bytes limit) := by
  have hthird : n ≤ legacyLobMaxBytes / 3 → bytes.length ≤ legacyLobMaxBytes := by omega
  rw [validateLegacyLobLength, hsource] at hvalid
  dsimp only at hvalid
  split at hvalid
  · next hskip =>
    rw [Bool.or_eq_true, Bool.and_eq_true, decide_eq_true_eq] at hskip
    have hlong {data : List UInt8} (hle : data.length ≤ legacyLobMaxBytes) :
        Succeeds (legacyLobLength data.length >>= fun length => pure (data, length)) := by
      obtain ⟨length, hlen⟩ := (succeeds_legacyLobLength _).mpr hle
      exact succeeds_bind.mpr ⟨length, hlen, succeeds_pure _⟩
    unfold fitLegacyLob
    cases limit with
    | none => exact hlong (hthird (hskip.resolve_left fun h => by simp at h))
    | some m =>
      by_cases htext : value.isText = true
      · obtain ⟨data, hdata⟩ := (succeeds_fitNarrow bytes m).mpr (hnarrow htext m rfl)
        have hdataLength := length_fitNarrow hdata
        simp only [if_pos htext, hdata]
        refine hlong ?_
        rcases hskip with ⟨-, hm⟩ | hn
        · have hm : m ≤ legacyLobMaxBytes := by simpa using hm
          omega
        · have := hthird hn
          omega
      · have hle := hthird (hskip.resolve_left fun h => htext h.1)
        simp only [if_neg htext]
        exact hlong hle
  · rw [hencoded] at hvalid
    cases hfit : fitLegacyLob value.isText bytes limit with
    | ok fitted => exact succeeds_ok fitted
    | error e =>
      simp only [bind, Except.bind, hfit] at hvalid
      cases hvalid

theorem fittedLob_of_encoded {bytes : List UInt8} {hadLoss : Bool}
    (hencoded : legacyLobWireBytes cs dbCollation value = .ok (some bytes, hadLoss)) :
    Succeeds (fittedLob cs dbCollation limit value) ↔
      Succeeds (fitLegacyLob value.isText bytes (value.effectiveLimit limit)) := by
  rw [fittedLob, hencoded]
  change Succeeds (fitLegacyLob _ _ _ >>= fun fitted => pure (some fitted)) ↔ _
  rw [succeeds_bind]
  exact ⟨fun ⟨fitted, h, _⟩ => ⟨fitted, h⟩, fun ⟨fitted, h⟩ => ⟨fitted, h, succeeds_pure _⟩⟩

theorem fittedLob_text (hcs : cs.Regular)
    (hvalid : (text (some s)).validateForSend cs dbCollation limit = .ok ()) :
    Succeeds (fittedLob cs dbCollation limit (text (some s))) ↔ s.Decodes := by
  have hwire : legacyLobWireBytes cs dbCollation (text (some s)) =
      encodedNarrow cs s (some dbCollation) >>=
        fun encoded => pure (some encoded.1, encoded.2) := by
    rw [← narrowStringWireBytes_eq]
    rfl
  constructor
  · intro h
    obtain ⟨encoded, hencoded, -⟩ := succeeds_bind.mp h
    rw [hwire] at hencoded
    obtain ⟨narrow, hnarrow, -⟩ := EState.result_bind_eq_ok.mp hencoded
    exact succeeds_encodedNarrow.mp ⟨narrow, hnarrow⟩
  · intro hdecodes
    obtain ⟨⟨bytes, hadLoss⟩, hnarrow⟩ :=
      (@succeeds_encodedNarrow cs s (some dbCollation)).mpr hdecodes
    rw [hnarrow] at hwire
    rw [fittedLob_of_encoded hwire]
    have hlength := length_encodedNarrow hcs hnarrow
    -- without a limit only the length of the object is checked, with one the narrow string is too
    rw [validateForSend] at hvalid
    split at hvalid
    · next hnone =>
      rw [Option.isNone_iff_eq_none.mp hnone]
      exact succeeds_fitLegacyLob hvalid rfl hwire hlength fun _ m hm => by cases hm
    · obtain ⟨⟨⟩, hfits, hlob⟩ := EState.result_bind_eq_ok.mp hvalid
      have hfits := (@validateNarrowStringLength_iff cs s
        (stringContext .text false usizeMax dbCollation) _ rfl).mp hfits
      refine succeeds_fitLegacyLob hlob rfl hwire hlength fun _ m hm => ?_
      have hmax : narrowStringMaximum (stringContext .text false usizeMax dbCollation)
          (effectiveNarrowStringByteLimit s ((text (some s)).effectiveLimit limit)) =
            some (min m usizeMax) := by
        rw [effectiveLimit, effectiveLimit_idem]
        rw [effectiveLimit, Option.mem_def] at hm
        rw [hm]
        rfl
      obtain ⟨bytes', hadLoss', hnarrow', hfit⟩ := hfits _ hmax
      have heq : encodedNarrow cs s (some dbCollation) = .ok (bytes', hadLoss') := hnarrow'
      rw [hnarrow] at heq
      cases heq
      exact hfit.mono (min_le_left m usizeMax)

theorem fittedLob_nText (hcs : cs.Regular)
    (hvalid : (nText (some s)).validateForSend cs dbCollation limit = .ok ()) :
    Succeeds (fittedLob cs dbCollation limit (nText (some s))) ↔ s.Decodes := by
  obtain ⟨⟨⟩, hntext, hlob⟩ := EState.result_bind_eq_ok.mp hvalid
  obtain ⟨source, encoding, own⟩ := s
  have hsome (bytes : List UInt8) (hwire : legacyLobWireBytes cs dbCollation
      (nText (some ⟨source, encoding, own⟩)) = .ok (some bytes, false))
      (hlength : bytes.length ≤ 3 * source.length) :
      Succeeds (fittedLob cs dbCollation limit (nText (some ⟨source, encoding, own⟩))) := by
    rw [fittedLob_of_encoded hwire]
    exact succeeds_fitLegacyLob hlob rfl hwire hlength fun h => absurd h Bool.false_ne_true
  have hwide (text : List Char) (hunits : (utf16Units text).length ≤ source.length) :
      (utf16le text).length ≤ 3 * source.length := by
    rw [utf16le, length_unitsLe]
    omega
  cases encoding with
  | utf16 | delayedSet =>
    refine iff_of_true (hsome source ?_ (by omega)) fun h => by cases h
    simp [legacyLobWireBytes, hntext]
  | lcidBased collation =>
    have hunits := hcs.length_units_decode (resolveCollation collation) source
    exact iff_of_true (hsome (utf16le (cs.decode (resolveCollation collation) source)) rfl
      (hwide _ hunits)) fun h => by cases h
  | utf8 =>
    cases htext : fromUtf8 source with
    | some text =>
      refine iff_of_true (hsome (utf16le text) ?_ (hwide text ?_)) fun _ => ⟨text, htext⟩
      · simp [legacyLobWireBytes, hntext, SqlString.toUtf8String, Codecs.decodeString, htext]
      · rw [← asBytes_of_fromUtf8 htext]
        exact length_utf16Units_le text
    | none =>
      refine iff_of_false ?_ fun h => ?_
      · intro h
        obtain ⟨encoded, hencoded, -⟩ := succeeds_bind.mp h
        simp [legacyLobWireBytes, hntext, SqlString.toUtf8String, Codecs.decodeString, htext]
          at hencoded
      · obtain ⟨text, htext'⟩ := h rfl
        rw [htext] at htext'
        cases htext'

theorem fittedLob_image {v : List UInt8}
    (hvalid : (image (some v)).validateForSend cs dbCollation limit = .ok ()) :
    Succeeds (fittedLob cs dbCollation limit (image (some v))) := by
  have hwire : legacyLobWireBytes cs dbCollation (image (some v)) = .ok (some v, false) := rfl
  rw [fittedLob_of_encoded hwire]
  exact succeeds_fitLegacyLob hvalid rfl hwire (by omega) fun h => absurd h Bool.false_ne_true

end SqlType

end MssqlTds
