import MssqlTds.Datatypes.Decoder

/-!
# The length a value declares and the bytes its decoder takes

A value of a nullable type comes behind its length: one byte, or four bytes in front of a
`sql_variant`.  The decoder should take as many bytes as the length says, or the next value is read
from the wrong place.  The readers of integers, amounts, uuids and decimals check the length.  The
others only pick a format by it: any length but 0 and 4 is a double or a `datetime`, any but 0 is a
bit or a date, and what is no time of three or four bytes is one of five.  A variant of a
fixed-length base type is decoded without a look at its length, and for the other base types only
its low byte is looked at.

`bytesTaken` and `variantTaken` say how many bytes the decoder takes for a length.  They are the
declared length exactly where it is one of the type's lengths (`declared_length_discipline`).
-/

namespace MssqlTds

open Bytes Reader List

namespace GenericDecoder

/-! ### Reads of a fixed size -/

theorem takes_readByte : Takes readByte 1 := (takes_take.map _).map _

theorem takes_readInt16 : Takes readInt16 2 := ((takes_take.map _).map _).map _

theorem takes_readUint16 : Takes readUint16 2 := (takes_take.map _).map _

theorem takes_readUint24 : Takes readUint24 3 := (takes_take.map _).map _

theorem takes_readInt32 : Takes readInt32 4 := ((takes_take.map _).map _).map _

theorem takes_readUint32 : Takes readUint32 4 := (takes_take.map _).map _

theorem takes_readUint40 : Takes readUint40 5 := (takes_take.map _).map _

theorem takes_readInt64 : Takes readInt64 8 := ((takes_take.map _).map _).map _

theorem takes_readFloat32 : Takes readFloat32 4 := (takes_take.map _).map _

theorem takes_readFloat64 : Takes readFloat64 8 := (takes_take.map _).map _

theorem takes_readDate : Takes readDate 3 := takes_readUint24.map _

theorem takes_readDatetime : Takes readDatetime 8 :=
  takes_readInt32.bind fun _ => takes_readUint32.bind fun _ => takes_pure _

theorem takes_readSmallDatetime : Takes readSmallDatetime 4 :=
  takes_readUint16.bind fun _ => takes_readUint16.bind fun _ => takes_pure _

theorem takes_readMoney4 : Takes readMoney4 4 := takes_readInt32.map _

theorem takes_readMoney8 : Takes readMoney8 8 :=
  takes_readInt32.bind fun _ => takes_readInt32.bind fun _ => takes_pure _

theorem takes_liftReader {α : Type} (x : TdsResult α) : Takes (liftReader x) 0 := by
  cases x with
  | ok a => exact takes_pure a
  | error e => exact takes_throw e

/-! ### Reads that go by a length -/

/-- What is no time of three or four bytes is read as one of five. -/
def timeTaken (byteLen : UInt8) : ℕ := if byteLen = 3 then 3 else if byteLen = 4 then 4 else 5

theorem takes_readTime (byteLen scale : UInt8) :
    Takes (readTime byteLen scale) (timeTaken byteLen) := by
  refine .map ?_ _
  unfold readScaledTime
  split
  · exact takes_readUint24.map _
  · exact takes_readUint32.map _
  · next h3 h4 =>
    rw [timeTaken, if_neg h3, if_neg h4]
    exact takes_readUint40

theorem takes_readDatetime2 (byteLen scale : UInt8) :
    Takes (readDatetime2 byteLen scale) (timeTaken (byteLen - 3) + 3) := by
  unfold readDatetime2
  split
  · exact takes_throw _
  · exact (takes_readTime _ _).bind fun _ => takes_readDate.bind fun _ => takes_pure _

theorem takes_readDatetimeOffset (byteLen scale : UInt8) :
    Takes (readDatetimeOffset byteLen scale) (timeTaken (byteLen - 2 - 3) + 3 + 2) := by
  unfold readDatetimeOffset
  split
  · exact takes_throw _
  · exact (takes_readDatetime2 _ _).bind fun _ => takes_readInt16.bind fun _ => takes_pure _

theorem takes_readDaten (length : UInt8) :
    Takes (readDaten length) (if length = 0 then 0 else 3) := by
  unfold readDaten
  split
  · exact takes_pure _
  · exact takes_readDate.map _

/-! ### Reads that check their length -/

theorem takes_readIntn (byteLen : UInt8) : Takes (readIntn byteLen) byteLen.toNat := by
  unfold readIntn
  split
  · exact takes_readByte.map _
  · exact takes_readInt16.map _
  · exact takes_readInt32.map _
  · exact takes_readInt64.map _
  · exact takes_pure _
  · exact takes_throw _

theorem takes_readGuid (length : UInt8) : Takes (readGuid length) length.toNat := by
  unfold readGuid
  split
  · split
    · exact takes_throw _
    · exact takes_take.bind fun _ => (takes_liftReader _).bind fun _ => takes_pure _
  · next h =>
    obtain rfl : length = 0 := by simpa using h
    exact takes_pure _

theorem takes_readDecimalData (length precision scale : UInt8) :
    Takes (readDecimalData length precision scale) length.toNat := by
  unfold readDecimalData
  split
  · exact takes_throw _
  split
  · next h =>
    subst h
    exact takes_pure _
  · next h =>
    have hlength : length.toNat = 1 + (length - 1).toNat := by
      have hpos : (1 : UInt8).toNat ≤ length.toNat :=
        Nat.pos_of_ne_zero fun h0 => h (UInt8.toNat_inj.mp h0)
      rw [UInt8.toNat_sub_of_le _ _ (UInt8.le_iff_toNat_le.mpr hpos)]
      exact (Nat.add_sub_cancel' hpos).symm
    rw [hlength]
    refine takes_readByte.bind fun sign => ?_
    dsimp only
    split
    · exact takes_throw _
    · exact takes_take.bind fun _ => takes_pure _

/-! ### Values behind their length -/

/-- The bytes that are taken behind a length of one byte, when the value is accepted. -/
def bytesTaken (t : TdsDataType) (length : UInt8) : ℕ :=
  match t with
  | .bitN => if length > 0 then 1 else 0
  | .fltN | .dateTimeN => if length = 0 then 0 else if length = 4 then 4 else 8
  | .dateN => if length = 0 then 0 else 3
  | .timeN => if length = 0 then 0 else timeTaken length
  | .dateTime2N => if length = 0 then 0 else timeTaken (length - 3) + 3
  | .dateTimeOffsetN => if length = 0 then 0 else timeTaken (length - 2 - 3) + 3 + 2
  | _ => length.toNat

/-- The types whose values come behind one byte of length. -/
def byteLenTypes : List TdsDataType :=
  [.intN, .fltN, .bitN, .moneyN, .dateTimeN, .dateN, .timeN, .dateTime2N, .dateTimeOffsetN,
    .decimalN, .numericN, .guid]

/-- The lengths a value of a type can have; 0 is `NULL`.  A decimal of any number of magnitude
bytes is accepted, with the missing ones taken for zero. -/
def legalLengths : TdsDataType → List ℕ
  | .intN => [0, 1, 2, 4, 8]
  | .fltN | .moneyN | .dateTimeN => [0, 4, 8]
  | .bitN => [0, 1]
  | .dateN => [0, 3]
  | .timeN => [0, 3, 4, 5]
  | .dateTime2N => [0, 6, 7, 8]
  | .dateTimeOffsetN => [0, 8, 9, 10]
  | .decimalN | .numericN => List.range 18
  | .guid => [0, 16]
  | _ => []

/-- The types whose readers reject other lengths. -/
def checkedTypes : List TdsDataType := [.intN, .moneyN, .decimalN, .numericN, .guid]

/-- A reader of a length and the value behind it. -/
def Framed {α : Type} (t : TdsDataType) (m : TdsReader α) : Prop :=
  ∀ q v r, m q = .ok (v, r) → ∃ length bs, q = length :: (bs ++ r) ∧
    bs.length = bytesTaken t length ∧ (t ∈ checkedTypes → length.toNat ∈ legalLengths t)

variable {q r : List UInt8}

theorem readByte_eq_ok {b : UInt8} (h : readByte q = .ok (b, r)) :
    q = b :: r := by
  obtain ⟨bs, rfl, hlen⟩ := takes_readByte q b r h
  obtain ⟨c, rfl⟩ := length_eq_one_iff.mp hlen
  have hread := reads_readByte c r
  rw [h] at hread
  cases hread
  rfl

section Framed

variable {α β : Type} {t : TdsDataType} {f : UInt8 → TdsReader α}

theorem framed_bind (hf : ∀ b, Takes (f b) (bytesTaken t b))
    (hchecked : t ∈ checkedTypes → ∀ b q v r, f b q = .ok (v, r) → b.toNat ∈ legalLengths t) :
    Framed t (readByte >>= f) := by
  intro q v r h
  obtain ⟨b, q', hb, hv⟩ := bind_eq_ok.mp h
  obtain ⟨bs, rfl, hlen⟩ := hf b q' v r hv
  exact ⟨b, bs, readByte_eq_ok hb, hlen, fun ht => hchecked ht b _ v r hv⟩

theorem framed_unchecked (ht : t ∉ checkedTypes)
    (hf : ∀ b, Takes (f b) (bytesTaken t b)) : Framed t (readByte >>= f) :=
  framed_bind hf fun h => absurd h ht

theorem Framed.map {m : TdsReader α} (hm : Framed t m) (f : α → β) : Framed t (f <$> m) := by
  intro q v r h
  obtain ⟨a, ha, -⟩ := map_eq_ok.mp h
  exact hm q a r ha

end Framed

/-! ### One lemma per type -/

variable {v : ColumnValues}

theorem readIntn_checked {byteLen : UInt8}
    (h : readIntn byteLen q = .ok (v, r)) : byteLen.toNat ∈ legalLengths .intN := by
  unfold readIntn at h
  split at h
  all_goals first | decide | cases h

theorem readGuid_checked {length : UInt8}
    (h : readGuid length q = .ok (v, r)) : length.toNat ∈ legalLengths .guid := by
  unfold readGuid at h
  split at h
  · split at h
    · cases h
    · next hlen =>
      rw [not_not.mp hlen]
      decide
  · next hzero =>
    obtain rfl : length = 0 := by simpa using hzero
    decide

theorem readDecimalData_checked {length precision scale : UInt8}
    {v : Option DecimalParts} (h : readDecimalData length precision scale q = .ok (v, r)) :
    length.toNat < 18 := by
  unfold readDecimalData at h
  split at h
  · cases h
  split at h
  · next hzero =>
    subst hzero
    decide
  · obtain ⟨sign, q', -, hbody⟩ := bind_eq_ok.mp h
    split at hbody
    · cases hbody
    · next hparts =>
      have hsub : (length - 1).toNat = (256 - 1 + length.toNat) % 256 := UInt8.toNat_sub length 1
      have hlt := length.toNat_lt
      omega

theorem framed_intN : Framed .intN (readByte >>= readIntn) :=
  framed_bind takes_readIntn fun _ _ _ _ _ h => readIntn_checked h

theorem framed_guid : Framed .guid (readByte >>= readGuid) :=
  framed_bind takes_readGuid fun _ _ _ _ _ h => readGuid_checked h

theorem framed_decodeMoneyN : Framed .moneyN decodeMoneyN := by
  refine framed_bind ?_ ?_
  · intro b
    split
    · exact takes_readMoney4.map _
    · exact takes_readMoney8.map _
    · exact takes_pure _
    · exact takes_throw _
  · intro _ b q v r h
    split at h
    all_goals first | decide | cases h

variable {t : TdsDataType}

theorem framed_readDecimal (ht : t = .decimalN ∨ t = .numericN)
    (metadata : ColumnMetadata) : Framed t (readDecimal metadata) := by
  have htaken (b : UInt8) : bytesTaken t b = b.toNat := by
    rcases ht with rfl | rfl <;> rfl
  have hlegal : legalLengths t = List.range 18 := by
    rcases ht with rfl | rfl <;> rfl
  refine framed_bind ?_ ?_
  · intro b
    rw [htaken]
    split
    · exact takes_readDecimalData _ _ _
    · exact takes_throw _
  · intro _ b q v r h
    rw [hlegal, mem_range]
    generalize metadata.typeInfo.typeInfoVariant = variant at h
    cases variant with
    | varLenPrecisionScale t length precision scale => exact readDecimalData_checked h
    | _ => cases h

theorem framed_decodeBitN : Framed .bitN decodeBitN := by
  refine framed_unchecked (by decide) ?_
  intro b
  show Takes _ (if b > 0 then 1 else 0)
  split
  · exact takes_readByte.map _
  · exact takes_pure _

/-- Zero bytes, four, or else eight. -/
theorem takes_fourOrEight {α : Type} {b : UInt8} {x y z : TdsReader α} (hx : Takes x 0)
    (hy : Takes y 4) (hz : Takes z 8) :
    Takes (if b = 0 then x else if b = 4 then y else z)
      (if b = 0 then 0 else if b = 4 then 4 else 8) := by
  split
  · exact hx
  split
  · exact hy
  · exact hz

theorem framed_decodeFltN : Framed .fltN decodeFltN :=
  framed_unchecked (by decide) fun _ => takes_fourOrEight (takes_pure _) (takes_readFloat32.map _)
    (takes_readFloat64.map _)

theorem framed_decodeDateTimeN : Framed .dateTimeN decodeDateTimeN :=
  framed_unchecked (by decide) fun _ => takes_fourOrEight (takes_pure _)
    (takes_readSmallDatetime.map _) (takes_readDatetime.map _)

theorem framed_dateN : Framed .dateN (readByte >>= readDaten) :=
  framed_unchecked (by decide) takes_readDaten

theorem takes_requireScale (metadata : ColumnMetadata) : Takes (requireScale metadata) 0 := by
  unfold requireScale
  split
  · exact takes_pure _
  · exact takes_throw _

variable {metadata : ColumnMetadata}

theorem framed_decodeTemporal
    {read : UInt8 → UInt8 → TdsReader ColumnValues} {taken : UInt8 → ℕ}
    (hread : ∀ length scale, Takes (read length scale) (taken length))
    (htaken : ∀ length, bytesTaken t length = if length = 0 then 0 else taken length)
    (ht : t ∉ checkedTypes) : Framed t (decodeTemporal metadata read) := by
  refine framed_unchecked ht ?_
  intro b
  rw [htaken]
  split
  · exact takes_pure _
  · have htake := (takes_requireScale metadata).bind fun scale => hread b scale
    rwa [Nat.zero_add] at htake

/-- **What a decoder takes behind a length of one byte.** -/
theorem decode_framed (cs : Codecs)
    (h : metadata.dataType ∈ byteLenTypes) :
    Framed metadata.dataType (decode cs metadata) := by
  unfold decode decodeWith
  simp only [byteLenTypes, mem_cons, not_mem_nil, or_false] at h
  rcases h with h | h | h | h | h | h | h | h | h | h | h | h <;> rw [h]
  · exact framed_intN
  · exact framed_decodeFltN
  · exact framed_decodeBitN
  · exact framed_decodeMoneyN
  · exact framed_decodeDateTimeN
  · exact framed_dateN
  · exact framed_decodeTemporal (fun _ _ => (takes_readTime _ _).map _) (fun _ => rfl) (by decide)
  · exact framed_decodeTemporal (fun _ _ => (takes_readDatetime2 _ _).map _) (fun _ => rfl)
      (by decide)
  · exact framed_decodeTemporal (fun _ _ => (takes_readDatetimeOffset _ _).map _) (fun _ => rfl)
      (by decide)
  · exact (framed_readDecimal (.inl rfl) metadata).map _
  · exact (framed_readDecimal (.inr rfl) metadata).map _
  · exact framed_guid

/-- The types that go by their length without a check take it only if it is one of theirs. -/
theorem bytesTaken_unchecked : ∀ t ∈ byteLenTypes, t ∉ checkedTypes → ∀ n < 256,
    bytesTaken t (UInt8.ofNat n) = n ↔ n ∈ legalLengths t := by
  decide +kernel

theorem bytesTaken_checked : ∀ t ∈ checkedTypes, ∀ b, bytesTaken t b = b.toNat := by
  intro t ht b
  simp only [checkedTypes, mem_cons, not_mem_nil, or_false] at ht
  rcases ht with rfl | rfl | rfl | rfl | rfl <;> rfl

theorem bytesTaken_eq_iff {b : UInt8} (ht : t ∈ byteLenTypes)
    (hchecked : t ∈ checkedTypes → b.toNat ∈ legalLengths t) :
    bytesTaken t b = b.toNat ↔ b.toNat ∈ legalLengths t := by
  by_cases hmem : t ∈ checkedTypes
  · exact iff_of_true (bytesTaken_checked t hmem b) (hchecked hmem)
  · have h := bytesTaken_unchecked t ht hmem b.toNat b.toNat_lt
    rwa [UInt8.ofNat_toNat] at h

/-! ### Variants -/

/-- The bytes taken for a variant without properties; a uuid and a date are read by the low byte of
the length. -/
def zeroPropbyteTaken (t : TdsDataType) (dataLength : ℕ) : ℕ :=
  match (TypesIn.tryFrom t : TdsResult FixedLengthTypes) with
  | .ok t => FixedLengthTypes.getLen t
  | .error _ =>
    if t = .guid then (UInt8.ofNat dataLength).toNat
    else if UInt8.ofNat dataLength = 0 then 0
    else 3

/-- The bytes taken behind the scale of a temporal variant, by the low byte of the length. -/
def oneByteTaken (t : TdsDataType) (low : UInt8) : ℕ :=
  match t with
  | .timeN => timeTaken low
  | .dateTime2N => timeTaken (low - 3) + 3
  | _ => timeTaken (low - 2 - 3) + 3 + 2

/-- The bytes taken behind two properties; a decimal is read by the low byte of the length. -/
def twoPropbyteTaken (t : TdsDataType) (dataLength : ℕ) : ℕ :=
  match t with
  | .numericN | .decimalN => (UInt8.ofNat dataLength).toNat
  | _ => dataLength

/-- The bytes taken behind the type and the number of property bytes of a variant. -/
def variantTaken (t : TdsDataType) (propBytes : UInt8) (dataLength : ℕ) : ℕ :=
  match propBytes with
  | 0 => zeroPropbyteTaken t dataLength
  | 1 => 1 + oneByteTaken t (UInt8.ofNat dataLength)
  | 2 => 2 + twoPropbyteTaken t dataLength
  | _ => 7 + dataLength

/-- Lengths of the data of a variant without properties. -/
def LegalZeroPropbyte (t : TdsDataType) (dataLength : ℕ) : Prop :=
  match (TypesIn.tryFrom t : TdsResult FixedLengthTypes) with
  | .ok t => dataLength = FixedLengthTypes.getLen t
  | .error _ => dataLength ∈ legalLengths t

/-- Lengths of the data behind two properties. -/
def LegalTwoPropbyte (t : TdsDataType) (dataLength : ℕ) : Prop :=
  match t with
  | .numericN | .decimalN => dataLength ∈ legalLengths t
  | _ => True

/-- The length of the data is one that the base type can have.  A temporal value is not `NULL`. -/
def LegalVariant (t : TdsDataType) (propBytes : UInt8) (dataLength : ℕ) : Prop :=
  match propBytes with
  | 0 => LegalZeroPropbyte t dataLength
  | 1 => dataLength ≠ 0 ∧ dataLength ∈ legalLengths t
  | 2 => LegalTwoPropbyte t dataLength
  | _ => True

theorem takes_fixed (cs : Codecs) (t : FixedLengthTypes) (dataLength : ℕ) :
    Takes (decodeWith cs (throw .outOfFuel) (fixedMetadata t dataLength))
      (FixedLengthTypes.getLen t) := by
  obtain ⟨t, ht⟩ := t
  simp only [mem_cons, not_mem_nil, or_false] at ht
  rcases ht with rfl | rfl | rfl | rfl | rfl | rfl | rfl | rfl | rfl | rfl | rfl
  · exact takes_readByte.map _
  · exact takes_readByte.map _
  · exact takes_readInt16.map _
  · exact takes_readInt32.map _
  · exact takes_readSmallDatetime.map _
  · exact takes_readFloat32.map _
  · exact takes_readMoney4.map _
  · exact takes_readMoney8.map _
  · exact takes_readDatetime.map _
  · exact takes_readFloat64.map _
  · exact takes_readInt64.map _

theorem takes_zeroPropbyteVariant (cs : Codecs) (t : TdsDataType) (dataLength : ℕ) :
    Takes (decodeZeroPropbyteVariant cs t dataLength) (zeroPropbyteTaken t dataLength) := by
  unfold decodeZeroPropbyteVariant zeroPropbyteTaken
  generalize (TypesIn.tryFrom t : TdsResult FixedLengthTypes) = fixed
  cases fixed with
  | ok fixed => exact takes_fixed cs fixed dataLength
  | error e =>
    dsimp only
    split
    · exact takes_readGuid _
    · exact takes_readDaten _
    · exact takes_throw _

theorem takes_oneByteVariant (t : TdsDataType) (dataLength : ℕ) :
    Takes (decodeOneByteVariant t dataLength)
      (1 + oneByteTaken t (UInt8.ofNat dataLength)) := by
  refine takes_readByte.bind fun scale => ?_
  split
  · exact (takes_readTime _ _).map _
  · exact (takes_readDatetime2 _ _).map _
  · exact (takes_readDatetimeOffset _ _).map _
  · exact takes_throw _

theorem takes_variantBytes (what : String) (dataLength : ℕ) :
    Takes (variantBytes what dataLength) dataLength := by
  unfold variantBytes
  split
  · exact takes_throw _
  · exact takes_take

theorem takes_twoPropbyteVariant (variantBaseType : UInt8) (t : TdsDataType) (dataLength : ℕ) :
    Takes (decodeTwoPropbyteVariant variantBaseType t dataLength)
      (2 + twoPropbyteTaken t dataLength) := by
  have hdecimal (wrap : DecimalParts → ColumnValues) (length : UInt8) :
      Takes (do
        let precision ← readByte
        let scale ← readByte
        decimalValue wrap <$> readDecimalData length precision scale) (2 + length.toNat) := by
    have h := takes_readByte.bind fun precision => takes_readByte.bind fun scale =>
      (takes_readDecimalData length precision scale).map (decimalValue wrap)
    rwa [← Nat.add_assoc] at h
  unfold decodeTwoPropbyteVariant
  split
  · exact takes_readUint16.bind fun _ => (takes_variantBytes _ _).map _
  · exact takes_readUint16.bind fun _ => (takes_variantBytes _ _).map _
  · exact hdecimal _ _
  · exact hdecimal _ _
  · exact takes_throw _

theorem takes_sevenPropbyteVariant (t : TdsDataType) (dataLength : ℕ) :
    Takes (decodeSevenPropbyteVariant t dataLength) (7 + dataLength) := by
  unfold decodeSevenPropbyteVariant
  split
  · exact takes_throw _
  · have h : Takes (readBytes 5) 5 := takes_take
    have h := h.bind fun collation => takes_readUint16.bind fun _ =>
      (takes_liftReader (SqlCollation.tryFrom collation)).bind fun info =>
        (takes_variantBytes "string" dataLength).bind fun buffer =>
          takes_pure (ColumnValues.string (.new buffer (variantEncoding t info)))
    rwa [show 5 + (2 + (0 + (dataLength + 0))) = 7 + dataLength by omega] at h

/-- **What a decoder takes behind the header of a variant.** -/
theorem takes_decodeVariantBody (cs : Codecs) (variantBaseType : UInt8) (t : TdsDataType)
    (propBytes : UInt8) (dataLength : ℕ) :
    Takes (decodeVariantBody cs variantBaseType t propBytes dataLength)
      (variantTaken t propBytes dataLength) := by
  unfold decodeVariantBody
  split
  · exact takes_zeroPropbyteVariant cs t dataLength
  · exact takes_oneByteVariant t dataLength
  · exact takes_twoPropbyteVariant variantBaseType t dataLength
  · exact takes_sevenPropbyteVariant t dataLength
  · exact takes_throw _

/-! ### Variants whose length is exact -/

/-- A reader that is given the low byte takes the whole length only if that is the length. -/
theorem taken_low_iff {taken : UInt8 → ℕ} {legal : List ℕ} (htaken : ∀ b, taken b < 256)
    (hlegal : ∀ k ∈ legal, k < 256) (h : ∀ k < 256, taken (UInt8.ofNat k) = k ↔ k ∈ legal)
    (n : ℕ) : taken (UInt8.ofNat n) = n ↔ n ∈ legal := by
  by_cases hn : n < 256
  · exact h n hn
  · refine iff_of_false ?_ fun hmem => hn (hlegal n hmem)
    intro heq
    exact hn (heq ▸ htaken (UInt8.ofNat n))

theorem timeTaken_le (b : UInt8) : timeTaken b ≤ 5 := by
  unfold timeTaken
  split_ifs <;> decide

section

variable {cs : Codecs} {t : TdsDataType} {n : ℕ} {q r : List UInt8} {v : ColumnValues}

theorem zeroPropbyteVariant_exact (h : decodeZeroPropbyteVariant cs t n q = .ok (v, r)) :
    zeroPropbyteTaken t n = n ↔ LegalZeroPropbyte t n := by
  unfold decodeZeroPropbyteVariant at h
  unfold zeroPropbyteTaken LegalZeroPropbyte
  generalize (TypesIn.tryFrom t : TdsResult FixedLengthTypes) = fixed at h ⊢
  cases fixed with
  | ok fixed => exact eq_comm
  | error e =>
    dsimp only at h ⊢
    split at h
    · have hlow := readGuid_checked h
      have hmod : (UInt8.ofNat n).toNat = n % 256 := UInt8.toNat_ofNat'
      rw [if_pos rfl]
      simp only [legalLengths, mem_cons, not_mem_nil, or_false] at hlow ⊢
      omega
    · rw [if_neg (by decide)]
      exact @taken_low_iff (fun b => if b = 0 then 0 else 3) (legalLengths .dateN)
        (by intro b; split_ifs <;> decide) (by decide) (by decide +kernel) n
    · cases h

theorem oneByteTaken_exact : ∀ t ∈ [TdsDataType.timeN, .dateTime2N, .dateTimeOffsetN], ∀ k < 256,
    oneByteTaken t (UInt8.ofNat k) = k ↔ k ∈ (legalLengths t).filter (· ≠ 0) := by
  decide +kernel

theorem oneByteVariant_exact (h : decodeOneByteVariant t n q = .ok (v, r)) :
    oneByteTaken t (UInt8.ofNat n) = n ↔ n ≠ 0 ∧ n ∈ legalLengths t := by
  have ht : t ∈ [TdsDataType.timeN, .dateTime2N, .dateTimeOffsetN] := by
    obtain ⟨scale, q', -, h⟩ := bind_eq_ok.mp h
    split at h
    · simp
    · simp
    · simp
    · cases h
  have hle (b : UInt8) : oneByteTaken t b < 256 := by
    have h0 := timeTaken_le b
    have h1 := timeTaken_le (b - 3)
    have h2 := timeTaken_le (b - 2 - 3)
    unfold oneByteTaken
    split <;> omega
  have hlegal : ∀ k ∈ (legalLengths t).filter (· ≠ 0), k < 256 := by
    simp only [mem_cons, not_mem_nil, or_false] at ht
    rcases ht with rfl | rfl | rfl <;> decide
  rw [taken_low_iff hle hlegal (oneByteTaken_exact t ht) n, mem_filter, decide_eq_true_iff,
    and_comm]

theorem twoPropbyteVariant_exact {variantBaseType : UInt8}
    (h : decodeTwoPropbyteVariant variantBaseType t n q = .ok (v, r)) :
    twoPropbyteTaken t n = n ↔ LegalTwoPropbyte t n := by
  have hdecimal {wrap : DecimalParts → ColumnValues} (h : (do
      let precision ← readByte
      let scale ← readByte
      decimalValue wrap <$> readDecimalData (UInt8.ofNat n) precision scale) q = .ok (v, r)) :
      (UInt8.ofNat n).toNat = n ↔ n ∈ List.range 18 := by
    obtain ⟨precision, q₁, -, h⟩ := bind_eq_ok.mp h
    obtain ⟨scale, q₂, -, h⟩ := bind_eq_ok.mp h
    obtain ⟨parts, h, -⟩ := map_eq_ok.mp h
    have hlow := readDecimalData_checked h
    have hmod : (UInt8.ofNat n).toNat = n % 256 := UInt8.toNat_ofNat'
    rw [mem_range]
    omega
  unfold decodeTwoPropbyteVariant at h
  split at h
  · exact iff_of_true rfl trivial
  · exact iff_of_true rfl trivial
  · exact hdecimal h
  · exact hdecimal h
  · cases h

/-- **The data of a variant is as long as declared exactly if its base type can be so long.** -/
theorem decodeVariantBody_exact {variantBaseType propBytes : UInt8}
    (h : decodeVariantBody cs variantBaseType t propBytes n q = .ok (v, r)) :
    variantTaken t propBytes n = propBytes.toNat + n ↔ LegalVariant t propBytes n := by
  unfold decodeVariantBody at h
  split at h
  · rw [show (0 : UInt8).toNat + n = n from Nat.zero_add n]
    exact zeroPropbyteVariant_exact h
  · exact Nat.add_left_cancel_iff.trans (oneByteVariant_exact h)
  · exact Nat.add_left_cancel_iff.trans (twoPropbyteVariant_exact h)
  · exact iff_of_true rfl trivial
  · cases h

end

/-! ### All length-prefixed types -/

/-- The types whose values come behind their length. -/
def lengthPrefixedTypes : List TdsDataType := .ssVariant :: byteLenTypes

/-- The bytes of the length in front of a value. -/
def prefixSize (t : TdsDataType) : ℕ := if t = .ssVariant then 4 else 1

/-- The length in front of a value. -/
def declaredLength (t : TdsDataType) (q : List UInt8) : ℕ := ofLe (q.take (prefixSize t))

/-- The length in front of a value is one that its type can have. -/
def LegalLength (t : TdsDataType) (q : List UInt8) : Prop :=
  if t = .ssVariant then
    declaredLength t q = 0 ∨ ∃ base, TdsDataType.tryFrom (q.getD 4 0) = .ok base ∧
      LegalVariant base (q.getD 5 0) (declaredLength t q - 2 - (q.getD 5 0).toNat)
  else declaredLength t q ∈ legalLengths t

/-- A decoder that left `r` of `q` took the length and as many bytes as it says. -/
def TookDeclared (t : TdsDataType) (q r : List UInt8) : Prop :=
  ∃ bs, q = bs ++ r ∧ bs.length = prefixSize t + declaredLength t q

theorem tookDeclared_iff {bs r : List UInt8} :
    TookDeclared t (bs ++ r) r ↔ bs.length = prefixSize t + declaredLength t (bs ++ r) := by
  constructor
  · rintro ⟨bs', heq, hlen⟩
    obtain rfl := append_cancel_right heq
    exact hlen
  · intro hlen
    exact ⟨bs, rfl, hlen⟩

variable {cs : Codecs}

theorem byteLen_exact (ht : metadata.dataType ∈ byteLenTypes)
    (h : decode cs metadata q = .ok (v, r)) :
    (TookDeclared metadata.dataType q r ↔ LegalLength metadata.dataType q) ∧
      (metadata.dataType ∈ checkedTypes → LegalLength metadata.dataType q) := by
  obtain ⟨length, bs, rfl, hlen, hchecked⟩ := decode_framed cs ht q v r h
  generalize metadata.dataType = t at *
  have hne : t ≠ .ssVariant := by
    rintro rfl
    revert ht
    decide
  have hsize : prefixSize t = 1 := if_neg hne
  have hdeclared : declaredLength t (length :: (bs ++ r)) = length.toNat := by
    rw [declaredLength, hsize]
    simp [ofLe]
  have hlegal : LegalLength t (length :: (bs ++ r)) ↔ length.toNat ∈ legalLengths t := by
    rw [LegalLength, if_neg hne, hdeclared]
  refine ⟨?_, fun hmem => hlegal.mpr (hchecked hmem)⟩
  rw [hlegal, ← bytesTaken_eq_iff ht hchecked, ← hlen]
  refine (@tookDeclared_iff t (length :: bs) r).trans ?_
  rw [cons_append, hsize, hdeclared, length_cons, Nat.add_comm, Nat.add_left_cancel_iff]

/-- What a variant consists of when it is read: nothing but its length, or a header and the data. -/
theorem readSqlVariant_cases
    (h : readSqlVariant cs q = .ok (v, r)) :
    ∃ length : UInt32, (length = 0 ∧ q = leBytes 4 length.toNat ++ r) ∨
      ∃ base propBytes t q', q = leBytes 4 length.toNat ++ base :: propBytes :: q' ∧
        TdsDataType.tryFrom base = .ok t ∧ length ≠ 0 ∧ 2 + propBytes.toNat ≤ length.toNat ∧
        decodeVariantBody cs base t propBytes (length.toNat - 2 - propBytes.toNat) q' =
          .ok (v, r) := by
  obtain ⟨⟨named, v'⟩, hread, hv⟩ := map_eq_ok.mp h
  obtain ⟨length, q₁, hlength, h⟩ := bind_eq_ok.mp hread
  rw [readUint32_eq_ok] at hlength
  refine ⟨length, ?_⟩
  split at h
  · next hzero =>
    cases h
    exact .inl ⟨hzero, hlength⟩
  · next hne =>
    obtain ⟨base, q₂, hbase, h⟩ := bind_eq_ok.mp h
    obtain ⟨t, q₃, ht, h⟩ := bind_eq_ok.mp h
    obtain ⟨propBytes, q₄, hprop, h⟩ := bind_eq_ok.mp h
    split at h
    · cases h
    next hle =>
    obtain ⟨v'', q₅, hbody, h⟩ := bind_eq_ok.mp h
    cases h
    cases hv
    cases htype : TdsDataType.tryFrom base with
    | error e =>
      rw [htype] at ht
      cases ht
    | ok t' =>
      rw [htype] at ht
      cases ht
      refine .inr ⟨base, propBytes, t, q₄, ?_, htype, hne, Nat.le_of_not_lt hle, hbody⟩
      rw [hlength, readByte_eq_ok hbase, readByte_eq_ok hprop]

theorem variant_exact
    (h : readSqlVariant cs q = .ok (v, r)) :
    TookDeclared .ssVariant q r ↔ LegalLength .ssVariant q := by
  have hdeclared (length : UInt32) (q' : List UInt8) :
      declaredLength .ssVariant (leBytes 4 length.toNat ++ q') = length.toNat := by
    rw [declaredLength, show prefixSize .ssVariant = 4 from rfl,
      take_left' (length_leBytes 4 _), ofLe_leBytes_of_lt length.toNat_lt]
  obtain ⟨length, ⟨rfl, rfl⟩ | ⟨base, propBytes, t, q', rfl, ht, hne, hle, hbody⟩⟩ :=
    readSqlVariant_cases h
  · refine iff_of_true ?_ (.inl (hdeclared 0 r))
    rw [tookDeclared_iff, hdeclared]
    rfl
  · obtain ⟨bs, rfl, hlen⟩ := takes_decodeVariantBody cs base t propBytes _ q' v r hbody
    have hpos : length.toNat ≠ 0 := fun h0 => hne (UInt32.toNat_inj.mp h0)
    have hexact := decodeVariantBody_exact hbody
    -- the header is found again in the bytes of the message
    have hbase : (leBytes 4 length.toNat ++ base :: propBytes :: (bs ++ r)).getD 4 0 = base := by
      simp [getD_eq_getElem?_getD, length_leBytes]
    have hprop : (leBytes 4 length.toNat ++ base :: propBytes :: (bs ++ r)).getD 5 0 =
        propBytes := by
      simp [getD_eq_getElem?_getD, length_leBytes, List.getElem?_append_right]
    have hlegal : LegalLength .ssVariant
        (leBytes 4 length.toNat ++ base :: propBytes :: (bs ++ r)) ↔
        LegalVariant t propBytes (length.toNat - 2 - propBytes.toNat) := by
      rw [LegalLength, if_pos rfl, hdeclared, hbase, hprop, ht]
      simp [hpos]
    rw [hlegal, ← hexact]
    have happ : leBytes 4 length.toNat ++ base :: propBytes :: (bs ++ r) =
        (leBytes 4 length.toNat ++ base :: propBytes :: bs) ++ r := by simp
    rw [happ, tookDeclared_iff, ← happ, hdeclared]
    simp only [prefixSize, if_true, length_append, length_leBytes, length_cons]
    omega

/-- **Declared length and bytes taken.**  When a value of a length-prefixed type is decoded, the
decoder has taken the length and as many bytes as it says exactly if the length is one that the
type can have.  Only the readers of integers, amounts, decimals and uuids reject the others. -/
theorem declared_length_discipline (cs : Codecs) (metadata : ColumnMetadata)
    (ht : metadata.dataType ∈ lengthPrefixedTypes) (q r : List UInt8) (v : ColumnValues)
    (h : decode cs metadata q = .ok (v, r)) :
    (TookDeclared metadata.dataType q r ↔ LegalLength metadata.dataType q) ∧
      (metadata.dataType ∈ checkedTypes → LegalLength metadata.dataType q) := by
  rcases mem_cons.mp ht with hvariant | ht
  · have hread : readSqlVariant cs q = .ok (v, r) := by
      rw [← h, decode, decodeWith, hvariant]
    rw [hvariant]
    exact ⟨variant_exact hread, fun hmem => absurd hmem (by decide)⟩
  · exact byteLen_exact ht h

def nullableColumn (t : VariableLengthTypes) (length : ℕ) : ColumnMetadata where
  typeInfo := ⟨t.val, length, .varLen t length⟩
  dataType := t.val
  columnName := "c"
  cryptoMetadata := none

theorem declared_length_discipline_real :
    decode .latin1 (nullableColumn ⟨.fltN, by decide⟩ 4) [4, 0, 0, 128, 63, 209] =
      .ok (.real 0x3F800000, [209]) ∧
    TookDeclared .fltN [4, 0, 0, 128, 63, 209] [209] := by
  have hdecode : decode .latin1 (nullableColumn ⟨.fltN, by decide⟩ 4) [4, 0, 0, 128, 63, 209] =
      .ok (.real 0x3F800000, [209]) := by rfl
  refine ⟨hdecode, ?_⟩
  have hlegal : LegalLength .fltN [4, 0, 0, 128, 63, 209] := by
    rw [LegalLength, if_neg (by decide)]
    decide
  exact (declared_length_discipline .latin1 (nullableColumn ⟨.fltN, by decide⟩ 4)
    (by decide) _ _ _ hdecode).1.mpr hlegal

/-- A float of five bytes is read as one of eight, into what comes behind it; a bit of two bytes
leaves one of them behind; so does a variant that declares more bytes than its integer has. -/
theorem declared_length_ignored :
    (decode .latin1 (nullableColumn ⟨.fltN, by decide⟩ 8) [5, 0, 0, 0, 0, 0, 209, 209, 209, 1] =
        .ok (.float 0xD1D1D10000000000, [1]) ∧
      ¬ TookDeclared .fltN [5, 0, 0, 0, 0, 0, 209, 209, 209, 1] [1]) ∧
    (decode .latin1 (nullableColumn ⟨.bitN, by decide⟩ 1) [2, 1, 0] = .ok (.bit true, [0]) ∧
      ¬ TookDeclared .bitN [2, 1, 0] [0]) ∧
    (decode .latin1 (nullableColumn ⟨.ssVariant, by decide⟩ 8009)
        [7, 0, 0, 0, 0x38, 0, 1, 0, 0, 0, 9] = .ok (.int 1, [9]) ∧
      ¬ TookDeclared .ssVariant [7, 0, 0, 0, 0x38, 0, 1, 0, 0, 0, 9] [9]) := by
  have hnot {t : TdsDataType} {bs r : List UInt8}
      (h : bs.length ≠ prefixSize t + declaredLength t (bs ++ r)) : ¬ TookDeclared t (bs ++ r) r :=
    fun htook => h (tookDeclared_iff.mp htook)
  refine ⟨⟨by rfl, ?_⟩, ⟨by rfl, ?_⟩, by rfl, ?_⟩
  · exact @hnot .fltN [5, 0, 0, 0, 0, 0, 209, 209, 209] _ (by decide)
  · exact @hnot .bitN [2, 1] _ (by decide)
  · exact @hnot .ssVariant [7, 0, 0, 0, 0x38, 0, 1, 0, 0, 0] _ (by decide)

end GenericDecoder

end MssqlTds
