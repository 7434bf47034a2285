import Mathlib.Tactic.IntervalCases
import MssqlTds.Datatypes.Decoder
import MssqlTds.Datatypes.PlpAgreement
import MssqlTds.Datatypes.WireFormat

/-!
# The decoder reads the wire format

One lemma for each piece of the wire format: the reader the decoder uses for it takes exactly the
bytes of the piece off the message and returns what was written.  Where the format has less room
than the value, the lemma says what comes back instead, or bounds the value.
-/

namespace MssqlTds

open Bytes Reader GenericDecoder List

/-! ### Partially length-prefixed values -/

theorem reads_plpFraming_null : Reads readPlpFraming (leBytes 8 plpNull.toNat) .null :=
  (reads_readInt64 plpNull.toInt64).bind_pure (by rw [if_pos (by decide)])

theorem reads_wirePlp {bs : List UInt8} (hlen : bs.length ≤ maxPlpChunkSize) :
    Reads readPlpBytes (wirePlp bs) (some bs) := by
  intro rest
  rw [wirePlp, append_assoc, append_assoc]
  by_cases hnil : bs = []
  · rw [if_pos hnil, hnil]
    exact @readPlpBytes_wireChunks rest [] (by simp) (by simp) (by simp)
  · rw [if_neg hnil]
    have hread := @readPlpBytes_wireChunks rest [bs] (by simpa [length_pos_iff] using hnil)
      (by simpa using hlen) (by simpa using hlen.trans (by decide))
    simp only [PlpChunkStreamReader.wireChunks, append_assoc, flatten_singleton] at hread
    exact hread

theorem reads_plpNull : Reads readPlpBytes (leBytes 8 plpNull.toNat) none :=
  reads_plpFraming_null.bind_pure rfl

section

variable (what : String) (wrap : List UInt8 → ColumnValues) {bs : List UInt8}

theorem reads_plpValue (hlen : bs.length ≤ maxPlpChunkSize) :
    Reads (plpValue wrap) (wirePlp bs) (wrap bs) :=
  (reads_wirePlp hlen).bind_pure rfl

theorem reads_plpValue_null : Reads (plpValue wrap) (leBytes 8 plpNull.toNat) .null :=
  reads_plpNull.bind_pure rfl

/-! ### Counted values -/

theorem reads_wireCounted (hlen : bs.length < 65535) :
    Reads (readUshortLen what wrap) (wireCounted bs) (wrap bs) := by
  have htoNat : (UInt16.ofNat bs.length).toNat = bs.length := by
    rw [UInt16.toNat_ofNat', Nat.mod_eq_of_lt (by omega)]
  have hnull : UInt16.ofNat bs.length ≠ 0xFFFF := by
    intro h
    rw [h] at htoNat
    simp at htoNat
    omega
  refine (reads_readUint16 bs.length).bind ?_
  rw [if_neg hnull, htoNat, if_neg (by simp only [maxAllocSize]; omega)]
  exact (reads_readBytes rfl).bind_pure rfl

theorem reads_ushortNull : Reads (readUshortLen what wrap) (leBytes 2 varNull.toNat) .null :=
  (reads_readUint16 varNull.toNat).bind_pure (by rw [if_pos (by decide)])

theorem reads_wireLob (hlen : bs.length ≤ maxAllocSize) :
    Reads (readLongLen what wrap) (wireLob bs) (wrap bs) := by
  have htoNat : (UInt32.ofNat bs.length).toNat = bs.length := by
    rw [UInt32.toNat_ofNat', Nat.mod_eq_of_lt]
    simp only [maxAllocSize] at hlen
    omega
  have hsplit : wireLob bs = [0x10] ++ (List.replicate 16 0xFF ++ (List.replicate 8 0xFF ++
      (leBytes 4 bs.length ++ bs))) := by
    simp [wireLob]
  have hpointer : Reads (skipBytes (0x10 : UInt8).toNat) (List.replicate 16 0xFF) () :=
    reads_skipBytes rfl
  have htimestamp : Reads (skipBytes 8) (List.replicate 8 0xFF) () := reads_skipBytes rfl
  refine (reads_readByte 0x10).bind ?_
  refine hpointer.bind (htimestamp.bind ((reads_readUint32 _).bind ?_))
  rw [htoNat, if_neg (by omega)]
  exact (reads_readBytes rfl).bind_pure rfl

theorem reads_lobNull : Reads (readLongLen what wrap) [0] .null :=
  (reads_readByte 0).bind_pure (by rw [if_pos rfl])

end

/-! ### Dates and times -/

/-- The 100-nanosecond ticks in a unit of a scale. -/
def scaleUnit (scale : UInt8) : ℕ := 10 ^ (7 - scale.toNat)

variable {scale : UInt8}

theorem scaleUnit_of_large (h : 7 ≤ scale.toNat) : scaleUnit scale = 1 := by
  rw [scaleUnit, Nat.sub_eq_zero_of_le h, pow_zero]

/-- A scale without an entry of its own in the tables is 7 or invalid. -/
theorem scale_ge_seven (h0 : scale ≠ 0) (h1 : scale ≠ 1) (h2 : scale ≠ 2)
    (h3 : scale ≠ 3) (h4 : scale ≠ 4) (h5 : scale ≠ 5) (h6 : scale ≠ 6) : 7 ≤ scale.toNat := by
  by_contra hlt
  have hcases : scale.toNat = 0 ∨ scale.toNat = 1 ∨ scale.toNat = 2 ∨ scale.toNat = 3 ∨
      scale.toNat = 4 ∨ scale.toNat = 5 ∨ scale.toNat = 6 := by omega
  rcases hcases with h | h | h | h | h | h | h
  exacts [h0 (UInt8.toNat_inj.mp h), h1 (UInt8.toNat_inj.mp h), h2 (UInt8.toNat_inj.mp h),
    h3 (UInt8.toNat_inj.mp h), h4 (UInt8.toNat_inj.mp h), h5 (UInt8.toNat_inj.mp h),
    h6 (UInt8.toNat_inj.mp h)]

theorem timeValue_eq (t : SqlTime) :
    t.timeValue = t.timeNanoseconds.toNat / scaleUnit t.scale := by
  unfold SqlTime.timeValue
  split <;> rename_i h <;> first
    | rw [h]; rfl
    | rw [scaleUnit_of_large (scale_ge_seven ‹_› ‹_› ‹_› ‹_› ‹_› ‹_› ‹_›)]

theorem scaleTimeValue_eq (value : UInt64) (scale : UInt8) :
    scaleTimeValue value scale = value * UInt64.ofNat (scaleUnit scale) := by
  unfold scaleTimeValue
  split <;> rename_i h <;> first
    | rfl
    | rw [scaleUnit_of_large (scale_ge_seven ‹_› ‹_› ‹_› ‹_› ‹_› ‹_› ‹_›)]; rfl

variable {n : ℕ}

/-- The bytes of a time, and the scales that have them. -/
theorem timeLength_cases (h : getTimeLengthFromScale scale = .ok n) :
    n = 3 ∧ scale.toNat ≤ 2 ∨ n = 4 ∧ 3 ≤ scale.toNat ∧ scale.toNat ≤ 4 ∨
      n = 5 ∧ 5 ≤ scale.toNat ∧ scale.toNat ≤ 7 := by
  simp only [getTimeLengthFromScale, UInt8.le_iff_toNat_le, UInt8.reduceToNat] at h
  split at h
  · exact .inl ⟨(Except.ok.inj h).symm, ‹_›⟩
  · split at h
    · exact .inr (.inl ⟨(Except.ok.inj h).symm, by omega, ‹_›⟩)
    · split at h
      · exact .inr (.inr ⟨(Except.ok.inj h).symm, by omega, ‹_›⟩)
      · cases h

/-- A time that fits the bytes its scale has on the wire. -/
def SqlTime.Fits (t : SqlTime) : Prop :=
  ∀ n, getTimeLengthFromScale t.scale = .ok n → t.timeValue < 256 ^ n

/-- A time with what its scale cannot express cut off. -/
def SqlTime.truncated (t : SqlTime) : SqlTime where
  timeNanoseconds := UInt64.ofNat (t.timeValue * scaleUnit t.scale)
  scale := t.scale

/-- Every time of day fits. -/
theorem SqlTime.fits_of_lt {t : SqlTime} (h : t.timeNanoseconds.toNat < 24 * 60 * 60 * 10 ^ 7) :
    t.Fits := by
  intro n hn
  rw [timeValue_eq, scaleUnit]
  have hcases := timeLength_cases hn
  generalize t.scale.toNat = scale at *
  obtain ⟨rfl, hle⟩ | ⟨rfl, hge, hle⟩ | ⟨rfl, hge, hle⟩ := hcases <;> interval_cases scale <;> omega

theorem reads_readScaledTime (h : getTimeLengthFromScale scale = .ok n)
    (v : ℕ) :
    Reads (readScaledTime (UInt8.ofNat n)) (leBytes n v) (UInt64.ofNat (v % 256 ^ n)) := by
  obtain ⟨rfl, -⟩ | ⟨rfl, -⟩ | ⟨rfl, -⟩ := timeLength_cases h
  · have hvalue : (UInt24.ofNat v).val.toUInt64 = UInt64.ofNat (v % 256 ^ 3) := by
      apply UInt64.toNat_inj.mp
      rw [UInt32.toNat_toUInt64, UInt64.toNat_ofNat', UInt24.ofNat, UInt32.toNat_ofNat']
      omega
    rw [← hvalue]
    exact (reads_readUint24 v).map _
  · have hvalue : (UInt32.ofNat v).toUInt64 = UInt64.ofNat (v % 256 ^ 4) := by
      apply UInt64.toNat_inj.mp
      rw [UInt32.toNat_toUInt64, UInt64.toNat_ofNat', UInt32.toNat_ofNat']
      omega
    rw [← hvalue]
    exact (reads_readUint32 v).map _
  · exact reads_readUint40 v

theorem reads_readTime {t : SqlTime} (h : getTimeLengthFromScale t.scale = .ok n)
    (hfits : t.Fits) :
    Reads (readTime (UInt8.ofNat n) t.scale) (leBytes n t.timeValue) t.truncated := by
  have hread := (reads_readScaledTime h t.timeValue).map
    fun v => (⟨scaleTimeValue v t.scale, t.scale⟩ : SqlTime)
  rw [Nat.mod_eq_of_lt (hfits n h), scaleTimeValue_eq, ← UInt64.ofNat_mul] at hread
  exact hread

theorem reads_readDate {days : UInt32} (h : days.toNat < 2 ^ 24) :
    Reads readDate (leBytes 3 days.toNat) ⟨days, h⟩ := by
  have hread := (reads_readUint24 days.toNat).map fun d => (⟨d.val, d.property⟩ : SqlDate)
  rwa [UInt24.ofNat_toNat ⟨days, h⟩] at hread

theorem reads_readDatetime2 {v : SqlDateTime2}
    (h : getTimeLengthFromScale v.time.scale = .ok n) (hfits : v.time.Fits)
    (hdays : v.days.toNat < 2 ^ 24) :
    Reads (readDatetime2 (UInt8.ofNat (n + 3)) v.time.scale)
      (leBytes n v.time.timeValue ++ leBytes 3 v.days.toNat) ⟨v.days, v.time.truncated⟩ := by
  have hlen : ¬ UInt8.ofNat (n + 3) < 3 ∧ UInt8.ofNat (n + 3) - 3 = UInt8.ofNat n := by
    obtain ⟨rfl, -⟩ | ⟨rfl, -⟩ | ⟨rfl, -⟩ := timeLength_cases h <;> decide
  rw [readDatetime2, if_neg hlen.1, hlen.2]
  exact (reads_readTime h hfits).bind ((reads_readDate hdays).bind_pure rfl)

theorem reads_readDatetimeOffset {v : SqlDateTimeOffset}
    (h : getTimeLengthFromScale v.datetime2.time.scale = .ok n) (hfits : v.datetime2.time.Fits)
    (hdays : v.datetime2.days.toNat < 2 ^ 24) :
    Reads (readDatetimeOffset (UInt8.ofNat (n + 3 + 2)) v.datetime2.time.scale)
      (leBytes n v.datetime2.time.timeValue ++ leBytes 3 v.datetime2.days.toNat ++
        leBytes 2 v.offset.toUInt16.toNat)
      ⟨⟨v.datetime2.days, v.datetime2.time.truncated⟩, v.offset⟩ := by
  have hlen : ¬ UInt8.ofNat (n + 3 + 2) < 2 ∧
      UInt8.ofNat (n + 3 + 2) - 2 = UInt8.ofNat (n + 3) := by
    obtain ⟨rfl, -⟩ | ⟨rfl, -⟩ | ⟨rfl, -⟩ := timeLength_cases h <;> decide
  rw [readDatetimeOffset, if_neg hlen.1, hlen.2]
  exact (reads_readDatetime2 h hfits hdays).bind ((reads_readInt16 v.offset).bind_pure rfl)

/-! ### Other values -/

theorem reads_readDatetime (v : SqlDateTime) :
    Reads readDatetime (leBytes 4 v.days.toUInt32.toNat ++ leBytes 4 v.time.toNat) v :=
  (reads_readInt32 v.days).bind ((reads_readUint32 v.time.toNat).bind_pure (by simp))

theorem reads_readSmallDatetime (v : SqlSmallDateTime) :
    Reads readSmallDatetime (leBytes 2 v.days.toNat ++ leBytes 2 v.time.toNat) v :=
  (reads_readUint16 v.days.toNat).bind ((reads_readUint16 v.time.toNat).bind_pure (by simp))

theorem reads_readMoney8 (v : SqlMoney) :
    Reads readMoney8 (leBytes 4 v.msbPart.toUInt32.toNat ++ leBytes 4 v.lsbPart.toUInt32.toNat) v :=
  (reads_readInt32 v.msbPart).bind ((reads_readInt32 v.lsbPart).bind_pure rfl)

theorem Uuid.length_toBytesLe (u : Uuid) : u.toBytesLe.length = 16 := by
  simp [toBytesLe]

theorem Uuid.fromSliceLe_toBytesLe (u : Uuid) : Uuid.fromSliceLe u.toBytesLe = .ok u := by
  have h1 : u.toBytesLe.take 4 = leBytes 4 u.d1.toNat := by
    rw [toBytesLe, append_assoc, append_assoc, take_left' (length_leBytes 4 _)]
  have h2 : (u.toBytesLe.drop 4).take 2 = leBytes 2 u.d2.toNat := by
    rw [toBytesLe, append_assoc, append_assoc, drop_left' (length_leBytes 4 _),
      take_left' (length_leBytes 2 _)]
  have h3 : (u.toBytesLe.drop 6).take 2 = leBytes 2 u.d3.toNat := by
    rw [toBytesLe, append_assoc, drop_left' (by simp),
      take_left' (length_leBytes 2 _)]
  have h4 : u.toBytesLe.drop 8 = u.d4.toList := by
    rw [toBytesLe, drop_left' (by simp)]
  have hd1 : UInt32.ofNat (ofLe (leBytes 4 u.d1.toNat)) = u.d1 := by
    rw [ofLe_leBytes_of_lt u.d1.toNat_lt, UInt32.ofNat_toNat]
  have hd2 : UInt16.ofNat (ofLe (leBytes 2 u.d2.toNat)) = u.d2 := by
    rw [ofLe_leBytes_of_lt u.d2.toNat_lt, UInt16.ofNat_toNat]
  have hd3 : UInt16.ofNat (ofLe (leBytes 2 u.d3.toNat)) = u.d3 := by
    rw [ofLe_leBytes_of_lt u.d3.toNat_lt, UInt16.ofNat_toNat]
  rw [fromSliceLe, dif_pos u.length_toBytesLe]
  simp only [h1, h2, h3, h4, hd1, hd2, hd3]
  rfl

theorem reads_readGuid (u : Uuid) : Reads (readGuid 16) u.toBytesLe (.uuid u) := by
  refine (reads_readBytes (u.length_toBytesLe.trans rfl)).bind_pure ?_
  rw [Uuid.fromSliceLe_toBytesLe]
  rfl

end MssqlTds
