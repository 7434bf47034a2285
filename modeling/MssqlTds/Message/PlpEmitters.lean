import MssqlTds.Datatypes.PacketBoundary
import MssqlTds.Datatypes.PlpBuffered
import MssqlTds.Datatypes.WireDecoding
import MssqlTds.Message.RpcParameters

/-!
# What is written as a PLP value can be read as one

Six methods write partially length-prefixed values: those of the value serializer for binary values,
strings, XML and JSON, the one for a JSON parameter, and the one for the ciphertext of an encrypted
parameter.  All of them write the whole value as one chunk.  `plp_emitters_readable` says that
`readPlpBytes` reads back the bytes of the value, as the emitter has transcoded them, and nothing is
left over.

The reader takes chunks of 16 MiB at most, so a larger value, which the emitters write, is not read
back. The JSON parameter is the one emitter that does not leave out the chunk of an empty value: its
length is taken for the terminator, and four bytes are left (`plp_emitters_unreadable`).
-/

namespace MssqlTds

open Bytes Unicode Reader GenericDecoder PacketWriter TdsValueSerializer

/-! ### The emitters -/

/-- A method that writes PLP values, with what it is given. -/
inductive PlpEmitter where
  | bytes (value : List UInt8) (ctx : TdsTypeContext)
  | string (value : SqlString) (ctx : TdsTypeContext) (limit : Option ℕ) (fit : Bool)
  | xml (value : SqlXml)
  | json (value : SqlJson)
  | jsonParameter (value : SqlJson)
  | encrypted (ciphertext : List UInt8)

namespace PlpEmitter

def write (cs : Codecs) : PlpEmitter → WriterM Unit
  | bytes value ctx => serializeBytes value ctx
  | string value ctx limit fit => serializeString cs value ctx limit fit
  | xml value => serializeXml value
  | json value => serializeJson cs value
  | jsonParameter value => SqlType.serializeJsonParameter (some value)
  | encrypted ciphertext => writeEncryptedValue (some ciphertext)

/-- The context is one of a PLP type.  A ciphertext goes out as a PLP value if it is too long for a
length of two bytes. -/
def InPlpContext : PlpEmitter → Prop
  | bytes _ ctx => ctx.isPlp = true ∧ ctx.tdsType ≠ TdsDataType.image.code
  | string _ ctx _ _ => ctx.isPlp = true ∧ ctx.tdsType ≠ TdsDataType.text.code ∧
      ctx.tdsType ≠ TdsDataType.nText.code
  | encrypted ciphertext => shortVartypeMaxBytes < ciphertext.length
  | _ => True

/-- What is written of the type ahead of the value. -/
def opening : PlpEmitter → List UInt8
  | jsonParameter _ => [TdsDataType.json.code]
  | encrypted _ => [0xFF, 0xFF]
  | _ => []

/-- The bytes of a string in the encoding of its column. -/
def transcodedString (cs : Codecs) (value : SqlString) (ctx : TdsTypeContext) (limit : Option ℕ)
    (fit : Bool) : TdsResult (List UInt8) :=
  if ctx.tdsType ∈ [TdsDataType.nVarChar.code, TdsDataType.nChar.code] then
    match value.asUtf16Bytes, value.asRawWireBytes with
    | some units, _ => .ok units
    | none, some units => .ok units
    | none, none => utf16le <$> value.toUtf8String cs
  else do
    let (encoded, _) ← narrowStringWireBytes cs value ctx.collation
    limitNarrow encoded (narrowStringMaximum ctx (effectiveNarrowStringByteLimit value limit)) fit

/-- The bytes of the value, in the encoding they are sent in. -/
def transcoded (cs : Codecs) : PlpEmitter → TdsResult (List UInt8)
  | bytes value _ => .ok value
  | string value ctx limit fit => transcodedString cs value ctx limit fit
  | xml value => .ok (if value.hasBom then value.bytes else 0xFF :: 0xFE :: value.bytes)
  | json value => match fromUtf8 value.bytes with
    | none => .error (invalidJson (cs.utf8Error value.bytes))
    | some text => .ok (utf16le text)
  | jsonParameter value => .ok value.bytes
  | encrypted ciphertext => .ok ciphertext

def IsEmptyJsonParameter : PlpEmitter → Prop
  | jsonParameter value => value.bytes = []
  | _ => False

end PlpEmitter

/-! ### The bytes they write -/

/-- A value of a known length in one chunk. -/
def wirePlpKnown (bs : List UInt8) : List UInt8 :=
  leBytes 8 bs.length ++ (leBytes 4 bs.length ++ (bs ++ leBytes 4 0))

/-- A value of unknown length in one chunk, which is there even if it is empty. -/
def wirePlpChunk (bs : List UInt8) : List UInt8 :=
  leBytes 8 plpUnknownLen.toNat ++ (leBytes 4 bs.length ++ (bs ++ leBytes 4 0))

/-- The value behind the opening. -/
def PlpEmitter.wire : PlpEmitter → List UInt8 → List UInt8
  | .jsonParameter _, bs => wirePlpChunk bs
  | .encrypted _, bs => wirePlpKnown bs
  | _, bs => wirePlp bs

variable {cs : Codecs} {ctx : TdsTypeContext} {bs value : List UInt8}

theorem wireStringBytes_plp {s : SqlString} (hplp : ctx.isPlp = true)
    (hntext : ctx.tdsType ≠ TdsDataType.nText.code)
    (h : wireStringBytes cs s value true ctx = .ok bs) : bs = wirePlp value := by
  unfold wireStringBytes at h
  simp only [hplp, Bool.true_and, Bool.not_true, Bool.false_and, Bool.false_eq_true, if_false,
    if_neg hntext, if_true] at h
  split at h
  · cases h
  · exact (Except.ok.inj h).symm

theorem wireStringUtf16_plp {text : List Char} (hplp : ctx.isPlp = true)
    (h : wireStringUtf16 text ctx = .ok bs) : bs = wirePlp (utf16le text) := by
  unfold wireStringUtf16 at h
  simp only [hplp, Bool.not_true, Bool.false_and, Bool.false_eq_true, if_false, if_true] at h
  exact (Except.ok.inj h).symm

theorem wireString_plp {s : SqlString} {limit : Option ℕ} {fit : Bool} (hplp : ctx.isPlp = true)
    (htext : ctx.tdsType ≠ TdsDataType.text.code) (hntext : ctx.tdsType ≠ TdsDataType.nText.code)
    (h : wireString cs s ctx limit fit = .ok bs) :
    ∃ value, PlpEmitter.transcodedString cs s ctx limit fit = .ok value ∧ bs = wirePlp value := by
  unfold wireString at h
  unfold PlpEmitter.transcodedString
  by_cases hwide : ctx.tdsType ∈ [TdsDataType.nVarChar.code, TdsDataType.nChar.code]
  · rw [if_pos hwide] at h ⊢
    cases hutf16 : s.asUtf16Bytes with
    | some bytes =>
      simp only [hutf16] at h
      exact ⟨bytes, rfl, wireStringBytes_plp hplp hntext h⟩
    | none =>
      cases hraw : s.asRawWireBytes with
      | some bytes =>
        simp only [hutf16, hraw] at h
        exact ⟨bytes, rfl, wireStringBytes_plp hplp hntext h⟩
      | none =>
        simp only [hutf16, hraw] at h
        obtain ⟨text, htext', h⟩ := EState.result_bind_eq_ok.mp h
        exact ⟨_, by rw [htext']; rfl, wireStringUtf16_plp hplp h⟩
  · rw [if_neg hwide, if_neg hntext] at h
    rw [if_neg hwide]
    split at h
    · obtain ⟨⟨bytes, loss⟩, hbytes, h⟩ := EState.result_bind_eq_ok.mp h
      obtain ⟨data, hdata, h⟩ := EState.result_bind_eq_ok.mp h
      rw [if_neg htext, if_pos hplp] at h
      refine ⟨data, ?_, (Except.ok.inj h).symm⟩
      rw [hbytes]
      exact hdata
    · cases h

theorem jsonParameter_emits (v : SqlJson) :
    Emits (SqlType.serializeJsonParameter (some v))
      (TdsDataType.json.code :: wirePlpChunk v.bytes) :=
  (Emits.byte _).bind ((Emits.u64 _).bind ((writeLen32_emits _).bind
    ((Emits.slice _).bind (Emits.u32 0))))

theorem encrypted_emits {c : List UInt8} (hlong : shortVartypeMaxBytes < c.length)
    (hfits : c.length ≤ 0xFFFFFFFF) :
    Emits (writeEncryptedValue (some c)) (0xFF :: 0xFF :: wirePlpKnown c) := by
  have hlen : leBytes 8 (UInt64.ofNat c.length).toNat = leBytes 8 c.length := by
    rw [UInt64.toNat_ofNat', Nat.mod_eq_of_lt (by omega)]
  unfold writeEncryptedValue
  simp only [Option.getD_some, if_neg (Nat.not_le.mpr hlong), if_neg (Nat.not_lt.mpr hfits)]
  have hvalue := (Emits.u64 (UInt64.ofNat c.length)).bind
    ((writeLen32_emits c.length).bind ((Emits.slice c).bind (Emits.u32 0)))
  rw [hlen] at hvalue
  exact (Emits.u16 0xFFFF).bind hvalue

/-- A ciphertext that is too long for a chunk length is rejected. -/
theorem encrypted_rejects {c : List UInt8} (hlong : shortVartypeMaxBytes < c.length)
    (hfits : ¬ c.length ≤ 0xFFFFFFFF) {w : PacketWriter} (hw : Ready w) :
    ∃ e w', writeEncryptedValue (some c) w = .error e w' := by
  unfold writeEncryptedValue
  simp only [Option.getD_some, if_neg (Nat.not_le.mpr hlong), if_pos (Nat.not_le.mp hfits)]
  exact ⟨_, Serializes.after (Emits.u16 _) (Serializes.throw _) w hw⟩

/-- What a method that has returned has written. -/
theorem Serializes.sent {m : WriterM Unit} {r : TdsResult (List UInt8)} {w w' : PacketWriter}
    (hm : Serializes m r) (hw : Ready w) (hrun : m w = .ok () w') :
    ∃ bs, r = .ok bs ∧ Emits m bs := by
  cases r with
  | ok bs => exact ⟨bs, rfl, hm⟩
  | error e =>
    obtain ⟨w'', herr⟩ := hm w hw
    rw [herr] at hrun
    cases hrun

/-- An emitter that accepts a value writes it, as it has transcoded it, behind the opening. -/
theorem PlpEmitter.emits {e : PlpEmitter} {w w' : PacketWriter} (hctx : e.InPlpContext)
    (hw : Ready w) (hrun : e.write cs w = .ok () w') :
    ∃ value, e.transcoded cs = .ok value ∧ Emits (e.write cs) (e.opening ++ e.wire value) := by
  cases e with
  | bytes v ctx =>
    obtain ⟨hplp, himage⟩ := hctx
    obtain ⟨bs, hwire, hemits⟩ := (serializeBytes_serializes v ctx).sent hw hrun
    unfold wireBytes at hwire
    simp only [hplp, Bool.not_true, Bool.false_and, Bool.false_eq_true, if_false, if_neg himage,
      if_true] at hwire
    obtain rfl := Except.ok.inj hwire
    exact ⟨v, rfl, hemits⟩
  | string v ctx limit fit =>
    obtain ⟨hplp, htext, hntext⟩ := hctx
    obtain ⟨bs, hwire, hemits⟩ := (serializeString_serializes cs ctx v limit fit).sent hw hrun
    obtain ⟨value, hvalue, rfl⟩ := wireString_plp hplp htext hntext hwire
    exact ⟨value, hvalue, hemits⟩
  | xml v => exact ⟨_, rfl, serializeXml_emits v⟩
  | json v =>
    obtain ⟨bs, hwire, hemits⟩ := (serializeJson_serializes cs v).sent hw hrun
    unfold wireJson at hwire
    cases htext : fromUtf8 v.bytes with
    | none =>
      rw [htext] at hwire
      cases hwire
    | some text =>
      rw [htext] at hwire
      obtain rfl := Except.ok.inj hwire
      refine ⟨utf16le text, ?_, hemits⟩
      rw [transcoded, htext]
  | jsonParameter v => exact ⟨_, rfl, jsonParameter_emits v⟩
  | encrypted c =>
    by_cases hfits : c.length ≤ 0xFFFFFFFF
    · exact ⟨c, rfl, encrypted_emits hctx hfits⟩
    · obtain ⟨e, w₁, herr⟩ := encrypted_rejects hctx hfits hw
      rw [show write cs (.encrypted c) w = .error e w₁ from herr] at hrun
      cases hrun

/-! ### Reading them back -/

theorem reads_wirePlpKnown (hlen : bs.length ≤ maxPlpChunkSize) (hne : bs ≠ []) :
    Reads readPlpBytes (wirePlpKnown bs) (some bs) := by
  intro rest
  have hpos : 0 < bs.length := List.length_pos_iff.mpr hne
  have hsmall : bs.length ≤ maxPlpSize := by
    simp only [maxPlpChunkSize, maxPlpSize] at *
    omega
  have hnat : (Int64.ofNat bs.length).toUInt64.toNat = bs.length := by
    simp only [maxPlpSize] at hsmall
    show (UInt64.ofNat bs.length).toNat = bs.length
    rw [UInt64.toNat_ofNat', Nat.mod_eq_of_lt (by omega)]
  have hread := reads_readInt64 (Int64.ofNat bs.length)
    ((leBytes 4 bs.length ++ (bs ++ leBytes 4 0)) ++ rest)
  rw [hnat, ← List.append_assoc] at hread
  refine (readPlpBytes_known (by rw [hnat]; exact hsmall) hread).mpr ⟨bs, ?_, ?_⟩
  · rw [hnat, zeroFilled, Nat.sub_self, List.replicate_zero, List.append_nil]
  · rw [hnat]
    have hstream := @PlpChunkStreamReader.chunkStream_wireChunks bs.length 0 [bs] rest
      (by simpa using hpos) (by simpa using hlen) (by simp)
    simpa [PlpChunkStreamReader.wireChunks] using hstream

theorem wirePlpChunk_eq (hne : bs ≠ []) : wirePlpChunk bs = wirePlp bs := by
  rw [wirePlpChunk, wirePlp, if_neg hne, List.append_assoc, List.append_assoc]
  rfl

theorem PlpEmitter.reads_wire {e : PlpEmitter} (hctx : e.InPlpContext)
    (hvalue : e.transcoded cs = .ok value) (hlen : value.length ≤ maxPlpChunkSize)
    (hne : ¬ e.IsEmptyJsonParameter) : Reads readPlpBytes (e.wire value) (some value) := by
  cases e with
  | jsonParameter v =>
    cases hvalue
    rw [wire, wirePlpChunk_eq hne]
    exact reads_wirePlp hlen
  | encrypted c =>
    cases hvalue
    refine reads_wirePlpKnown hlen ?_
    rintro rfl
    exact absurd hctx (Nat.not_lt_zero _)
  | _ => exact reads_wirePlp hlen

/-- **PLP emitters write what `readPlpBytes` reads.**  The bytes of the value come back as the
emitter transcoded them, nothing is left over, and an empty value is no exception, up to 16 MiB;
nothing is said about an empty JSON parameter. -/
theorem plp_emitters_readable (cs : Codecs) (e : PlpEmitter) (w w' : PacketWriter) (hw : Ready w)
    (hctx : e.InPlpContext) (hrun : e.write cs w = .ok () w') :
    ∃ value bs w'', e.transcoded cs = .ok value ∧ finalize w' = .ok () w'' ∧
      w''.sentPayload = w.sentPayload ++ w.buffered ++ (e.opening ++ bs) ∧
      (value.length ≤ maxPlpChunkSize → ¬ e.IsEmptyJsonParameter →
        Reads readPlpBytes bs (some value)) := by
  obtain ⟨value, hvalue, hemits⟩ := e.emits hctx hw hrun
  obtain ⟨w'', hfin, hsent⟩ := hemits.sent hw hrun
  exact ⟨value, e.wire value, w'', hvalue, hfin, hsent, e.reads_wire hctx hvalue⟩

/-- The context of a `varbinary(max)` column. -/
def varBinaryMax : TdsTypeContext where
  tdsType := TdsDataType.bigVarBinary.code
  maxSize := 0xFFFF
  isPlp := true
  isFixedLength := false
  precision := none
  scale := none
  collation := none
  isNullable := true

theorem plp_emitters_readable_empty :
    ∃ bs, Reads readPlpBytes bs (some []) ∧
      ∃ w' w'', (PlpEmitter.bytes [] varBinaryMax).write .latin1
          (PacketWriter.new .rpcRequest (readyNetwork 32) none none) = .ok () w' ∧
        finalize w' = .ok () w'' ∧ w''.sentPayload = bs := by
  obtain ⟨value, bs, w'', hvalue, hfin, hsent, hreads⟩ := plp_emitters_readable .latin1
    (.bytes [] varBinaryMax) (PacketWriter.new .rpcRequest (readyNetwork 32) none none) _
    (new_ready _ _ _ (by decide) (by decide) fun _ => SendEnv.ready_succeeds) ⟨rfl, by decide⟩ rfl
  cases hvalue
  exact ⟨bs, hreads (Nat.zero_le _) not_false, _, w'', rfl, hfin, hsent⟩

/-- A binary value of more than 16 MiB is written and not read back, and an empty JSON parameter
leaves four bytes over. -/
theorem plp_emitters_unreadable :
    (∃ bs,
      Emits ((PlpEmitter.bytes (List.replicate (2 ^ 24 + 1) 0) varBinaryMax).write .latin1) bs ∧
      ∀ r, readPlpBytes bs ≠ .ok r) ∧
    ∃ bs, Emits ((PlpEmitter.jsonParameter ⟨[]⟩).write .latin1) (TdsDataType.json.code :: bs) ∧
      readPlpBytes bs = .ok (some [], [0, 0, 0, 0]) := by
  constructor
  · obtain ⟨v, hv⟩ : ∃ v : List UInt8, v = List.replicate (2 ^ 24 + 1) 0 := ⟨_, rfl⟩
    have hlen : v.length = 2 ^ 24 + 1 := by rw [hv, List.length_replicate]
    rw [← hv]
    have hne : v ≠ [] := List.ne_nil_of_length_pos (by rw [hlen]; decide)
    refine ⟨wirePlp v, serializeBytes_serializes v varBinaryMax, ?_⟩
    rw [← wirePlpChunk_eq hne]
    exact readPlpBytes_oversized (by rw [hlen]; decide) (by rw [hlen]; decide)
  · exact ⟨wirePlpChunk [], jsonParameter_emits ⟨[]⟩, rfl⟩

end MssqlTds
