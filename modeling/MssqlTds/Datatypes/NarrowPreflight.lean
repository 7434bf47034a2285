import MssqlTds.Datatypes.SendPreflight

/-!
# The preflight of a narrow string and its send

`validateNarrowStringLength` measures the encoded bytes of a narrow string before anything is
written; `narrowStringBytes` and the serializer encode it again.  All of them come to the same bytes
and the same limit, so the measured bytes are the ones written, in the framing of the type.  Where
there is no limit the preflight looks at nothing, and so accepts a string of a `max` type that is
declared UTF-8 and is none, on which every encoder panics (`narrow_preflight_agrees`).
-/

namespace MssqlTds

open Bytes Unicode PacketWriter TdsValueSerializer SqlType

/-- The preflight accepts the string exactly if it can be encoded within its limits. -/
def PreflightAgrees (cs : Codecs) (s : SqlString) (ctx : TdsTypeContext) (limit : Option ℕ) :
    Prop :=
  validateNarrowStringLength cs (.string s) ctx limit = .ok () ↔
    Succeeds (narrowStringBytes cs (.string s) ctx limit)

section

variable {cs : Codecs} {s : SqlString} {ctx : TdsTypeContext} {limit : Option ℕ}

theorem succeeds_narrowStringBytes (hnarrow : isNarrowType ctx.tdsType = true) :
    Succeeds (narrowStringBytes cs (.string s) ctx limit) ↔
      ∃ bytes hadLoss, encodedNarrow cs s ctx.collation = .ok (bytes, hadLoss) ∧
        ∀ m ∈ narrowStringMaximum ctx (effectiveNarrowStringByteLimit s limit),
          FitsNarrow bytes m := by
  rw [narrowStringBytes_eq hnarrow, succeeds_bind]
  simp only [succeeds_bind, succeeds_pure, and_true, Prod.exists]
  exact exists₂_congr fun bytes _ => and_congr_right fun _ => succeeds_limitNarrow bytes _

/-- **Preflight and encoding agree** unless there is no limit and the bytes are no text. -/
theorem preflightAgrees_iff : PreflightAgrees cs s ctx limit ↔
    (isNarrowType ctx.tdsType = true →
      narrowStringMaximum ctx (effectiveNarrowStringByteLimit s limit) = none → s.Decodes) := by
  unfold PreflightAgrees
  cases hnarrow : isNarrowType ctx.tdsType with
  | false =>
    refine iff_of_true (iff_of_true ?_ ?_) (by simp)
    · simp [validateNarrowStringLength, hnarrow]
    · simp [narrowStringBytes, hnarrow]
  | true =>
    rw [validateNarrowStringLength_iff hnarrow, succeeds_narrowStringBytes hnarrow]
    cases narrowStringMaximum ctx (effectiveNarrowStringByteLimit s limit) with
    | some m => simp
    | none =>
      -- the preflight has nothing to check, and the encoder only the text
      simp only [Option.not_mem_none, false_implies, implies_true, true_iff, and_true,
        forall_const]
      rw [← @succeeds_encodedNarrow cs s ctx.collation]
      constructor
      · rintro ⟨bytes, hadLoss, h⟩
        exact ⟨_, h⟩
      · rintro ⟨⟨bytes, hadLoss⟩, h⟩
        exact ⟨bytes, hadLoss, h⟩

/-- The limit that the preflight measures with is the limit of the send. -/
theorem narrowStringBytes_measured {m : ℕ} (hnarrow : isNarrowType ctx.tdsType = true)
    (h : narrowStringMaximum ctx (effectiveNarrowStringByteLimit s limit) = some m) :
    narrowStringBytes cs (.string s) ctx (some m) =
      narrowStringBytes cs (.string s) ctx limit := by
  rw [narrowStringBytes_eq hnarrow, narrowStringBytes_eq hnarrow, narrowMaximum_idem h, h]

/-- The bytes are written, in the framing of the type. -/
theorem serializeString_emits {data : List UInt8} {hadLoss : Bool}
    (hnarrow : isNarrowType ctx.tdsType = true)
    (h : narrowStringBytes cs (.string s) ctx limit = .ok (some (data, hadLoss))) :
    Emits (serializeString cs s ctx limit true) (wireNarrow ctx data) := by
  have hwire : wireString cs s ctx limit true = .ok (wireNarrow ctx data) := by
    rw [narrowStringBytes_eq hnarrow] at h
    rw [wireString_narrow hnarrow]
    cases hencoded : encodedNarrow cs s ctx.collation with
    | error e =>
      rw [hencoded] at h
      cases h
    | ok encoded =>
      rw [hencoded] at h
      obtain ⟨bytes, loss⟩ := encoded
      change limitNarrow bytes _ true >>= _ = _ at h
      change limitNarrow bytes _ true >>= _ = _
      generalize limitNarrow bytes _ true = fitted at h ⊢
      cases fitted with
      | error e => cases h
      | ok data' =>
        cases h
        rfl
  have hserializes := serializeString_serializes cs ctx s limit true
  rw [hwire] at hserializes
  exact hserializes

end

/-- **Preflight, encoding and send of a narrow string.**  The preflight agrees with the encoding
unless there is no limit and the bytes are declared UTF-8 and are none.  The serializer succeeds
exactly if the encoding does, and writes its bytes, which are those the preflight measured.  An
encoded text has the bytes of its characters in order, one question mark for each UTF-16 unit of a
character that the encoding lacks, and a loss is reported exactly if there is such a character. -/
theorem narrow_preflight_agrees (cs : Codecs)
    (hstateless : ∀ e, e ≠ .utf8 → cs.Stateless (.encodingRs e)) :
    (∀ s ctx limit, PreflightAgrees cs s ctx limit ↔
      (isNarrowType ctx.tdsType = true →
        narrowStringMaximum ctx (effectiveNarrowStringByteLimit s limit) = none → s.Decodes)) ∧
    (∀ s ctx limit, isNarrowType ctx.tdsType = true → ∀ w, Ready w →
      ((∃ w', serializeString cs s ctx limit true w = .ok () w') ↔
        Succeeds (narrowStringBytes cs (.string s) ctx limit))) ∧
    (∀ s ctx limit data hadLoss, isNarrowType ctx.tdsType = true →
      narrowStringBytes cs (.string s) ctx limit = .ok (some (data, hadLoss)) →
        Emits (serializeString cs s ctx limit true) (wireNarrow ctx data) ∧
        ∀ m ∈ narrowStringMaximum ctx (effectiveNarrowStringByteLimit s limit),
          narrowStringBytes cs (.string s) ctx (some m) = .ok (some (data, hadLoss))) ∧
    ∀ text collation, cs.encodeNarrow text collation =
      { bytes := text.flatMap fun c =>
          if cs.isUnmappable (resolveCollation collation) c then
            List.replicate (encodeUtf16 c).length narrowSubstituteByte
          else (cs.encode (resolveCollation collation) [c]).1
        hadLoss := text.any (cs.isUnmappable (resolveCollation collation)) } := by
  refine ⟨fun _ _ _ => preflightAgrees_iff, ?_, ?_, ?_⟩
  · intro s ctx limit hnarrow w hw
    rw [(serializeString_serializes cs ctx s limit true).ok_iff hw,
      succeeds_wireString_narrow hnarrow, succeeds_narrowStringBytes hnarrow]
  · intro s ctx limit data hadLoss hnarrow hbytes
    refine ⟨serializeString_emits hnarrow hbytes, ?_⟩
    intro m hm
    rw [narrowStringBytes_measured hnarrow hm, hbytes]
  · intro text collation
    refine (Codecs.stateless_of_library fun e hother he => ?_).encodeNarrowWith_eq text
    rw [he]
    exact hstateless e hother

/-! ### Text and stray bytes -/

/-- A character of Latin-1 and one that it lacks, from UTF-16. -/
def mixedText : SqlString := .fromUtf8String ['é', '日']

theorem narrow_preflight_agrees_mixed :
    PreflightAgrees .latin1 mixedText
      ((varchar (some mixedText) 2).toColumnValueAndContext .default).2 none ∧
    Codecs.latin1.encodeNarrow ['é', '日'] .default = ⟨[0xE9, 0x3F], true⟩ := by
  have h := narrow_preflight_agrees .latin1 fun e _ => Codecs.stateless_latin1 _
  refine ⟨(h.1 _ _ _).mpr fun _ hmax => ?_, ?_⟩
  · cases hmax
  · rw [h.2.2.2]
    decide

/-- A byte that is declared UTF-8 and is none. -/
def strayByte : SqlString := .new [0x80] .utf8

/-- As a `varchar(max)` it passes the preflight, and neither the encoding nor the serializer gets
past it. -/
theorem stray_byte_passes_preflight :
    let ctx := ((varcharMax (some strayByte)).toColumnValueAndContext .default).2
    validateNarrowStringLength .latin1 (.string strayByte) ctx none = .ok () ∧
    ¬ Succeeds (narrowStringBytes .latin1 (.string strayByte) ctx none) ∧
    ¬ ∃ w', serializeString .latin1 strayByte ctx none true freshRequest = .ok () w' := by
  intro ctx
  have hinvalid : ¬ strayByte.Decodes := by
    intro h
    obtain ⟨text, htext⟩ := h rfl
    have hnone : fromUtf8 strayByte.bytes = none := by decide
    cases htext
  have hbytes : ¬ Succeeds (encodedNarrow .latin1 strayByte ctx.collation) :=
    fun h => hinvalid (succeeds_encodedNarrow.mp h)
  refine ⟨rfl, ?_, ?_⟩
  · rw [succeeds_narrowStringBytes rfl]
    rintro ⟨bytes, hadLoss, hencoded, -⟩
    exact hbytes ⟨_, hencoded⟩
  · rw [(serializeString_serializes _ ctx strayByte none true).ok_iff freshRequest_ready,
      succeeds_wireString_narrow rfl]
    rintro ⟨bytes, hadLoss, hencoded, -⟩
    exact hbytes ⟨_, hencoded⟩

end MssqlTds
