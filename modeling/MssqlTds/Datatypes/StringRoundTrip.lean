import MssqlTds.Datatypes.ValueRoundTrip

/-!
# Unicode strings survive the wire

A string in UTF-16 or UTF-8 goes to a Unicode column as UTF-16: its own bytes, or its text converted
(`SqlString.wideBytes`).  `wideString_roundTrip` says that the decoder of the column reads the text
back and takes exactly the bytes written, for every value in one chunk and for every UTF-16 string
behind its length.

Two kinds of values do not come back.  A fixed-length context has no length in front of the value,
which is filled up with spaces.  And where a UTF-8 string is converted, its length counts UTF-16
units although the decoder takes it for a count of bytes.
-/

namespace MssqlTds

open Bytes Unicode Reader GenericDecoder PacketWriter TdsValueSerializer SqlString TdsDataType List

variable {cs : Codecs} {s : SqlString} {ctx : TdsTypeContext} {metadata : ColumnMetadata}
  {bytes : List UInt8}

/-- The text of a string in UTF-16, if the string is UTF-16 or valid UTF-8. -/
def SqlString.wideBytes (s : SqlString) : Option (List UInt8) :=
  match s.encodingType with
  | .utf16 => some s.bytes
  | .utf8 => (fromUtf8 s.bytes).map utf16le
  | _ => none

/-- What the length in front of a string's UTF-16 counts: bytes, but units if it was converted. -/
def SqlString.wideCount (s : SqlString) (bytes : List UInt8) : ℕ :=
  match s.encodingType with
  | .utf16 => bytes.length
  | _ => bytes.length / 2

/-- The UTF-16 spaces a fixed-length column is filled up with. -/
def wideSpaces (n : ℕ) : List UInt8 := unitsLe (List.replicate n 0x0020)

/-- The bytes of a string in a Unicode column. -/
def wireWide (s : SqlString) (bytes : List UInt8) (ctx : TdsTypeContext) : List UInt8 :=
  if ctx.isPlp then wirePlp bytes
  else if ctx.isFixedLength then bytes ++ wideSpaces (ctx.maxSize - bytes.length / 2)
  else leBytes 2 (s.wideCount bytes) ++ bytes

/-- A context of `NVARCHAR(n)`, `NCHAR(n)` or `NVARCHAR(MAX)`. -/
def WideContext (ctx : TdsTypeContext) : Prop :=
  ∃ t ∈ [nVarChar, .nChar], t.code = ctx.tdsType

/-- Both forms of a string have the same text. -/
theorem toUtf8String_wideBytes (cs : Codecs) (h : s.wideBytes = some bytes) :
    ∃ text, s.toUtf8String cs = .ok text ∧
      (new bytes .utf16).toUtf8String cs = .ok text := by
  obtain ⟨sbytes, encoding, limit⟩ := s
  cases encoding with
  | utf16 =>
    obtain rfl := Option.some.inj h
    exact ⟨_, rfl, rfl⟩
  | utf8 =>
    obtain ⟨text, htext, rfl⟩ := Option.map_eq_some_iff.mp h
    refine ⟨text, ?_, congrArg Except.ok (cs.decodeUtf16_utf16le text)⟩
    show cs.decodeString sbytes .utf8 = _
    rw [Codecs.decodeString, htext]
  | lcidBased _ | delayedSet => cases h

variable {bs : List UInt8}

theorem wireStringBytes_wide {value : SqlString}
    (htype : ctx.tdsType ≠ nText.code) (hencoding : s.encodingType = .utf16)
    (h : wireStringBytes cs value bytes true ctx = .ok bs) :
    (ctx.isPlp = false → bytes.length ≤ 2 * ctx.maxSize) ∧ bytes.length % 2 = 0 ∧
      bs = wireWide s bytes ctx := by
  simp only [wireStringBytes, Bool.true_and, if_true, if_neg htype] at h
  split at h
  · cases h
  rename_i heven
  split at h
  · cases h
  rename_i hfits
  refine ⟨fun hplp => ?_, by simpa using heven, ?_⟩
  · simp [hplp] at hfits heven
    omega
  · rw [wireWide, wideCount, hencoding]
    simp only [← apply_ite Except.ok] at h
    exact (Except.ok.inj h).symm

theorem wireStringUtf16_wide {text : List Char} (hencoding : s.encodingType = .utf8)
    (h : wireStringUtf16 text ctx = .ok bs) :
    (ctx.isPlp = false → (utf16le text).length ≤ 2 * ctx.maxSize) ∧
      bs = wireWide s (utf16le text) ctx := by
  have hlength : (utf16le text).length = 2 * (utf16Units text).length := length_unitsLe _
  rw [wireStringUtf16] at h
  split at h
  · cases h
  rename_i hfits
  refine ⟨fun hplp => ?_, ?_⟩
  · simp [hplp] at hfits
    omega
  · rw [wireWide, wideCount, hencoding]
    simp only [hlength, Nat.mul_div_cancel_left _ Nat.two_pos]
    simp only [← apply_ite Except.ok] at h
    exact (Except.ok.inj h).symm

/-- Either form of a string reaches a Unicode column as its UTF-16. -/
theorem wireString_wide {limit : Option ℕ} {fit : Bool} (hctx : WideContext ctx)
    (hencoding : s.encodingType = .utf16 ∨ s.encodingType = .utf8)
    (h : wireString cs s ctx limit fit = .ok bs) :
    ∃ bytes, s.wideBytes = some bytes ∧ (ctx.isPlp = false → bytes.length ≤ 2 * ctx.maxSize) ∧
      bytes.length % 2 = 0 ∧ bs = wireWide s bytes ctx := by
  obtain ⟨t, ht, hcode⟩ := hctx
  have hmem : ctx.tdsType ∈ [nVarChar.code, nChar.code] := by
    simp only [mem_cons, not_mem_nil, or_false] at ht
    rcases ht with rfl | rfl <;> simp [← hcode]
  have hntext : ctx.tdsType ≠ nText.code := by
    simp only [mem_cons, not_mem_nil, or_false] at ht
    rcases ht with rfl | rfl <;> rw [← hcode] <;> decide
  rw [wireString] at h
  simp only [if_pos hmem, asUtf16Bytes, asRawWireBytes] at h
  rcases hencoding with hutf16 | hutf8
  · rw [hutf16] at h
    exact ⟨s.bytes, by rw [wideBytes, hutf16], wireStringBytes_wide hntext hutf16 h⟩
  · rw [hutf8] at h
    obtain ⟨text, htext, h⟩ := EState.result_bind_eq_ok.mp h
    have hbytes : fromUtf8 s.bytes = some text := by
      rw [toUtf8String, hutf8, Codecs.decodeString] at htext
      split at htext
      · rename_i hsome
        rw [hsome, Except.ok.inj htext]
      · cases htext
    obtain ⟨hfits, hbs⟩ := wireStringUtf16_wide hutf8 h
    refine ⟨utf16le text, by rw [wideBytes, hutf8, hbytes]; rfl, hfits, ?_, hbs⟩
    rw [utf16le, length_unitsLe]
    exact Nat.mul_mod_right 2 _

/-! ### Reading back -/

/-- What the decoder makes of the bytes of a Unicode column. -/
def wideValue (bytes : List UInt8) : ColumnValues := .string (.new bytes .utf16)

/-- The decoder of a Unicode column whose values come behind their length. -/
def readWide : TdsReader ColumnValues := do
  let length ← readUint16
  if length = 0xFFFF then pure .null
  else do
    let bytes ← readBytes length.toNat
    pure (wideValue bytes)

theorem decode_wide {value : ColumnValues} {t : TdsDataType} (ht : t ∈ [nVarChar, .nChar])
    (hd : Describes metadata ctx value t) :
    decode cs metadata = if ctx.isPlp then plpValue wideValue else readWide := by
  have hdata := hd.dataType
  have hencoding : metadata.getEncodingType = .ok .utf16 := by
    simp only [mem_cons, not_mem_nil, or_false] at ht
    rcases ht with rfl | rfl <;> rw [ColumnMetadata.getEncodingType, hdata] <;> rfl
  have hdecode : decode cs metadata = StringDecoder.decode metadata ∧
      StringDecoder.isLongLenType metadata.dataType = false := by
    rw [decode, decodeWith, hdata]
    simp only [mem_cons, not_mem_nil, or_false] at ht
    rcases ht with rfl | rfl <;> exact ⟨rfl, rfl⟩
  rw [hdecode.1, StringDecoder.decode, hencoding, hdecode.2, hd.isPlp]
  rfl

/-- As many bytes are read as the length says, whatever it counts. -/
theorem reads_readWide {n : ℕ} (hn : n < 65535) (hlen : bytes.length = n) :
    Reads readWide (leBytes 2 n ++ bytes) (wideValue bytes) := by
  have htoNat : (UInt16.ofNat n).toNat = n := by
    rw [UInt16.toNat_ofNat', Nat.mod_eq_of_lt (by omega)]
  have hnull : UInt16.ofNat n ≠ 0xFFFF := by
    intro h
    rw [h] at htoNat
    simp at htoNat
    omega
  refine (reads_readUint16 n).bind ?_
  rw [if_neg hnull, htoNat]
  exact (reads_readBytes hlen).bind_pure rfl

/-- The decoder accepts the UTF-16 of a string in one piece and finds its end. -/
def WideReadable (s : SqlString) (bytes : List UInt8) (ctx : TdsTypeContext) : Prop :=
  if ctx.isPlp then bytes.length ≤ maxPlpChunkSize
  else ctx.isFixedLength = false ∧ s.encodingType = .utf16 ∧ bytes.length < 65535

theorem reads_wireWide {value : ColumnValues} {t : TdsDataType}
    (ht : t ∈ [nVarChar, .nChar]) (hd : Describes metadata ctx value t)
    (h : WideReadable s bytes ctx) :
    Reads (decode cs metadata) (wireWide s bytes ctx) (wideValue bytes) := by
  rw [decode_wide ht hd, wireWide]
  unfold WideReadable at h
  split at h
  · rw [if_pos ‹_›, if_pos ‹_›]
    exact reads_plpValue _ h
  · obtain ⟨hfixed, hencoding, hlen⟩ := h
    rw [if_neg ‹_›, if_neg ‹_›, hfixed, wideCount, hencoding]
    exact reads_readWide hlen rfl

/-- **Unicode strings survive the wire.**  A UTF-16 or UTF-8 string that a Unicode context accepts
is sent as its UTF-16.  What the decoder of the context's column accepts of it, it reads back as the
same text, taking exactly the bytes written; the length in front of a UTF-16 string is the number of
bytes that follow, modulo 2^16; and in a fixed-length context the value is filled up with spaces to
the size of the column, with no length. -/
theorem wideString_roundTrip (cs : Codecs) (s : SqlString) (ctx : TdsTypeContext)
    (metadata : ColumnMetadata) (w w' : PacketWriter) (hw : Ready w)
    (hrun : serializeValue cs (.string s) ctx w = .ok () w') (hctx : WideContext ctx)
    (hencoding : s.encodingType = .utf16 ∨ s.encodingType = .utf8)
    (hmetadata : ctx.columnMetadata (.string s) = .ok metadata) :
    ∃ bytes bs w'', s.wideBytes = some bytes ∧ finalize w' = .ok () w'' ∧
      w''.sentPayload = w.sentPayload ++ w.buffered ++ bs ∧
      (WideReadable s bytes ctx → ∃ v text, Reads (decode cs metadata) bs (.string v) ∧
        s.toUtf8String cs = .ok text ∧ v.toUtf8String cs = .ok text) ∧
      (ctx.isPlp = false → ctx.isFixedLength = false → s.encodingType = .utf16 →
        bs = leBytes 2 bytes.length ++ bytes) ∧
      (ctx.isPlp = false → ctx.isFixedLength = true → bs.length = 2 * ctx.maxSize ∧
        bs = bytes ++ wideSpaces (ctx.maxSize - bytes.length / 2)) := by
  obtain ⟨t, ht, hcode⟩ := id hctx
  have hne : t ≠ .none ∧ t ≠ .ssVariant := by
    simp only [mem_cons, not_mem_nil, or_false] at ht
    rcases ht with rfl | rfl <;> decide
  have hvariant : ctx.tdsType ≠ ssVariant.code := by
    rw [← hcode]
    exact fun h => hne.2 (code_injective h hne.1 (by decide))
  have hd := describes_of_columnMetadata hne.1 hcode hmetadata
  obtain ⟨-, bs, w'', hwire, hfin, hsent⟩ :=
    transparent_of_not_straddles hw hrun fun h => Bool.noConfusion h.2.1
  rw [wireValue, if_neg hvariant] at hwire
  obtain ⟨bytes, hbytes, hfits, heven, rfl⟩ := wireString_wide hctx hencoding hwire
  refine ⟨bytes, _, w'', hbytes, hfin, hsent, fun hreadable => ?_, fun hplp hfixed hutf16 => ?_,
    fun hplp hfixed => ⟨?_, ?_⟩⟩
  · obtain ⟨text, htext, hwide⟩ := toUtf8String_wideBytes cs hbytes
    exact ⟨_, text, reads_wireWide ht hd hreadable, htext, hwide⟩
  · rw [wireWide, hplp, hfixed, wideCount, hutf16]
    rfl
  · have := hfits hplp
    rw [wireWide, hplp, hfixed]
    simp [wideSpaces]
    omega
  · rw [wireWide, hplp, hfixed]
    rfl

/-- An emoji, a surrogate pair in UTF-16, comes back from `NVARCHAR(MAX)` although it was UTF-8. -/
theorem wideString_roundTrip_emoji :
    ∃ w' metadata bs w'' v, serializeValue .latin1 (.string (.new [0xF0, 0x9F, 0x98, 0x80] .utf8))
        { nullableContext .nVarChar 0 with isPlp := true }
        (PacketWriter.new .rpcRequest (readyNetwork 32) none none) = .ok () w' ∧
      { nullableContext .nVarChar 0 with isPlp := true }.columnMetadata
        (.string (.new [0xF0, 0x9F, 0x98, 0x80] .utf8)) = .ok metadata ∧
      finalize w' = .ok () w'' ∧ w''.sentPayload = bs ∧
      Reads (decode .latin1 metadata) bs (.string v) ∧ v.toUtf8String .latin1 = .ok ['😀'] := by
  obtain ⟨bytes, bs, w'', hbytes, hfin, hsent, hreads, -⟩ := wideString_roundTrip .latin1
    (.new [0xF0, 0x9F, 0x98, 0x80] .utf8) { nullableContext .nVarChar 0 with isPlp := true } _
    (PacketWriter.new .rpcRequest (readyNetwork 32) none none) _
    (new_ready _ _ _ (by decide) (by decide) fun _ => SendEnv.ready_succeeds) rfl
    ⟨.nVarChar, by decide, rfl⟩ (.inr rfl) rfl
  obtain rfl : [0x3D, 0xD8, 0x00, 0xDE] = bytes := Option.some.inj hbytes
  obtain ⟨v, text, hread, htext, hv⟩ := hreads (by decide : 4 ≤ maxPlpChunkSize)
  obtain rfl : ['😀'] = text := Except.ok.inj htext
  exact ⟨_, _, bs, w'', v, rfl, rfl, hfin, hsent, hread, hv⟩

/-- The only letter of an `NCHAR(2)` is sent with a space and no length, and the decoder, which
takes the letter for a length, runs past the end. -/
theorem nChar_unreadable :
    ∃ w' metadata w'', serializeValue .latin1 (.string (.new [0x61, 0x00] .utf16))
        { nullableContext .nChar 2 with isFixedLength := true }
        (PacketWriter.new .rpcRequest (readyNetwork 32) none none) = .ok () w' ∧
      { nullableContext .nChar 2 with isFixedLength := true }.columnMetadata
        (.string (.new [0x61, 0x00] .utf16)) = .ok metadata ∧
      finalize w' = .ok () w'' ∧ w''.sentPayload = [0x61, 0x00, 0x20, 0x00] ∧
      decode .latin1 metadata w''.sentPayload = .error (pastEndOfMessageError 97 2) :=
  ⟨_, _, _, rfl, rfl, rfl, rfl, rfl⟩

end MssqlTds
