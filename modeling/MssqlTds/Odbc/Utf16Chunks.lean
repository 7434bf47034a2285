import MssqlTds.Lib.Unicode

/-!
# The chunked UTF-16 decoders

`SQLGetData` reads a UTF-16 value in chunks that may end inside a code unit or a surrogate pair.
`appendTypedUtf16` decodes it byte by byte for typed targets and `utf16leChunkToUtf8` a chunk at a
time for character targets.  Both carry half a unit and a leading surrogate over to the next chunk.

The carry is a function of the bytes so far (`Utf16Carry.of`), and so is the text that is settled by
them, for both decoders alike (`Tracks`).  So the output is that of decoding the value at once,
however it was split (`utf16_decoders_agree`).

`readUtf16Long` reads the text arguments of the API in chunks of units, those of ASCII units alone
by narrowing them (`readUtf16Long_eq`).
-/

namespace MssqlTds.Odbc

open Unicode List

/-- What is carried to the next chunk: the low half of a unit, and a leading surrogate. -/
structure Utf16Carry where
  pendingByte : Option UInt8
  pendingHigh : Option UInt16
  deriving DecidableEq, Repr

/-- A decoder, given a chunk, whether the value ends with it, and the carry. -/
abbrev Utf16Decoder := List UInt8 → Bool → Utf16Carry → List UInt8 × Utf16Carry

/-! ### Byte by byte -/

/-- The character of a code point, if it is one. -/
def charFromU32 (n : ℕ) : Option Char := if n.isValidChar then some (Char.ofNat n) else none

/-- One more unit behind the surrogate that is carried; gives the characters and the new carry. -/
def decodeUnit (pendingHigh : Option UInt16) (unit : UInt16) : List Char × Option UInt16 :=
  let alone : List Char × Option UInt16 :=
    if isLead unit then ([], some unit)
    else ([(charFromU32 unit.toNat).getD replacement], none)
  match pendingHigh with
  | some high =>
    if 0xDC00 ≤ unit.toNat ∧ unit.toNat ≤ 0xDFFF then
      let scalar := 0x10000 + (high.toNat - 0xD800) <<< 10 + unit.toNat - 0xDC00
      ([(charFromU32 scalar).getD replacement], none)
    else (replacement :: alone.1, alone.2)
  | none => alone

def decodeByte (carry : Utf16Carry) (byte : UInt8) : List Char × Utf16Carry :=
  match carry.pendingByte with
  | none => ([], { carry with pendingByte := some byte })
  | some low =>
    let (chars, high) := decodeUnit carry.pendingHigh (UInt16.ofNat (low.toNat + 256 * byte.toNat))
    (chars, ⟨none, high⟩)

def decodeBytes : List UInt8 → Utf16Carry → List Char × Utf16Carry
  | [], carry => ([], carry)
  | byte :: payload, carry =>
    let (chars, carry) := decodeByte carry byte
    let (more, carry) := decodeBytes payload carry
    (chars ++ more, carry)

/-- The bytes appended to the output. -/
def appendTypedUtf16 : Utf16Decoder := fun payload reachedEnd carry =>
  let (chars, carry) := decodeBytes payload carry
  if reachedEnd then
    (asBytes (chars ++ (carry.pendingHigh.toList.map (fun _ => replacement) ++
      carry.pendingByte.toList.map fun _ => replacement)), ⟨none, none⟩)
  else (asBytes chars, carry)

/-! ### Chunk by chunk -/

def utf16leChunkToUtf8 (newBytes : List UInt8) (reachedEnd : Bool) (carry : Utf16Carry) :
    List Char × Utf16Carry :=
  let (units, odd) := ofUnitsLe (carry.pendingByte.toList ++ newBytes)
  let units := carry.pendingHigh.toList ++ units
  -- a surrogate is held back only if there is more to come
  let held := if reachedEnd then none else heldUnit units
  let out := decodeUnits (if held.isSome then units.dropLast else units)
  if reachedEnd then
    (out ++ (if odd.head?.isSome || held.isSome then [replacement] else []), ⟨none, none⟩)
  else (out, ⟨odd.head?, held⟩)

def chunkDecoder : Utf16Decoder := fun newBytes reachedEnd carry =>
  let (out, carry) := utf16leChunkToUtf8 newBytes reachedEnd carry
  (asBytes out, carry)

/-- The chunks of a value, which ends with the last one. -/
def decodeChunks (decoder : Utf16Decoder) :
    List (List UInt8) → List UInt8 → Utf16Carry → List UInt8 × Utf16Carry
  | [], last, carry => decoder last true carry
  | chunk :: chunks, last, carry =>
    let (out, carry) := decoder chunk false carry
    let (more, carry) := decodeChunks decoder chunks last carry
    (out ++ more, carry)

/-! ### The carry is a function of the bytes so far -/

/-- Behind units and half a unit a decoder carries that half, and a leading surrogate at the end of
the units.  It outputs what a chunk adds to the text of the units in front of that surrogate, and at
the end all the text, with what is left over replaced. -/
structure Tracks (decoder : Utf16Decoder) : Prop where
  more (us : List UInt16) (odd : Option UInt8) (chunk : List UInt8) :
    let (vs, rest) := ofUnitsLe (odd.toList ++ chunk)
    ∃ chars, decoder chunk false ⟨odd, heldUnit us⟩
        = (asBytes chars, ⟨rest.head?, heldUnit (us ++ vs)⟩) ∧
      decodeUnits (settledUnits us) ++ chars = decodeUnits (settledUnits (us ++ vs))
  last (us : List UInt16) (odd : Option UInt8) (chunk : List UInt8) :
    let (vs, rest) := ofUnitsLe (odd.toList ++ chunk)
    ∃ chars, decoder chunk true ⟨odd, heldUnit us⟩ = (asBytes chars, ⟨none, none⟩) ∧
      decodeUnits (settledUnits us) ++ chars
        = decodeUnits (us ++ vs) ++ rest.map fun _ => replacement

/-- Chunk after chunk, the text of the whole value comes out. -/
theorem decodeChunks_eq {decoder : Utf16Decoder} (h : Tracks decoder) (chunks : List (List UInt8))
    (last : List UInt8) (us : List UInt16) (odd : Option UInt8) :
    let (vs, rest) := ofUnitsLe (odd.toList ++ (chunks.flatten ++ last))
    ∃ chars, decodeChunks decoder chunks last ⟨odd, heldUnit us⟩ = (asBytes chars, ⟨none, none⟩) ∧
      decodeUnits (settledUnits us) ++ chars
        = decodeUnits (us ++ vs) ++ rest.map fun _ => replacement := by
  induction chunks generalizing us odd with
  | nil => exact h.last us odd last
  | cons chunk chunks ih =>
    obtain ⟨chars, hrun, hchars⟩ := h.more us odd chunk
    obtain ⟨more, hrest, hmore⟩ := ih (us ++ (ofUnitsLe (odd.toList ++ chunk)).1)
      (ofUnitsLe (odd.toList ++ chunk)).2.head?
    rw [flatten_cons, append_assoc, ← append_assoc, ofUnitsLe_append,
      ← ofUnitsLe_rest (odd.toList ++ chunk)]
    refine ⟨chars ++ more, ?_, ?_⟩
    · simp [decodeChunks, hrun, hrest, asBytes]
    · rw [← append_assoc, hchars, hmore, append_assoc]

/-! ### The byte loop -/

theorem charFromU32_eq {u : UInt16} (h : isLead u = false) :
    (charFromU32 u.toNat).getD replacement = scalar u := by
  have hlt := u.toNat_lt
  rw [scalar, h, Bool.false_or, charFromU32]
  simp only [isLead, isTrail, Nat.isValidChar, Bool.and_eq_false_iff, decide_eq_false_iff_not,
    Bool.and_eq_true, decide_eq_true_iff] at h ⊢
  split_ifs <;> first | rfl | omega

theorem charFromU32_pair {high u : UInt16} (h : (isLead high && isTrail u) = true) :
    (charFromU32 (0x10000 + (high.toNat - 0xD800) <<< 10 + u.toNat - 0xDC00)).getD replacement
      = Char.ofNat (0x10000 + (high.toNat - 0xD800) * 0x400 + (u.toNat - 0xDC00)) := by
  simp only [isLead, isTrail, Bool.and_eq_true, decide_eq_true_iff] at h
  have hscalar : 0x10000 + (high.toNat - 0xD800) <<< 10 + u.toNat - 0xDC00
      = 0x10000 + (high.toNat - 0xD800) * 0x400 + (u.toNat - 0xDC00) := by
    omega
  rw [hscalar]
  generalize hn : 0x10000 + (high.toNat - 0xD800) * 0x400 + (u.toNat - 0xDC00) = n
  have hvalid : n.isValidChar := .inr (by omega)
  rw [charFromU32, if_pos hvalid, Option.getD_some]

/-- A unit settles the surrogate in front of it, and itself unless it is one. -/
theorem decodeUnit_tracks (us : List UInt16) (u : UInt16) :
    ∃ chars, decodeUnit (heldUnit us) u = (chars, heldUnit (us ++ [u])) ∧
      decodeUnits (settledUnits us) ++ chars = decodeUnits (settledUnits (us ++ [u])) := by
  have htrail : (0xDC00 ≤ u.toNat ∧ u.toNat ≤ 0xDFFF) ↔ isTrail u = true := by
    simp only [isTrail, Bool.and_eq_true, decide_eq_true_iff]
    omega
  have hboth : isLead u = true → isTrail u = false := by
    simp only [isLead, isTrail, Bool.and_eq_true, Bool.and_eq_false_iff, decide_eq_true_iff,
      decide_eq_false_iff_not]
    omega
  unfold decodeUnit
  rw [settledUnits_concat, heldUnit_concat]
  simp only [htrail]
  by_cases hlead : isLead u = true
  · have hsettled := decodeUnits_settled us []
    rw [append_nil, append_nil] at hsettled
    simp only [hlead, if_true, hboth hlead, Bool.false_eq_true, if_false, hsettled]
    cases hheld : heldUnit us with
    | none => exact ⟨[], rfl, rfl⟩
    | some high =>
      have hhigh := isLead_of_mem_heldUnit (Option.mem_def.mpr hheld)
      exact ⟨[replacement], rfl, by rw [← scalar_of_isLead hhigh]; rfl⟩
  · simp only [hlead, Bool.false_eq_true, if_false, charFromU32_eq (Bool.eq_false_iff.mpr hlead),
      decodeUnits_settled us [u]]
    cases hheld : heldUnit us with
    | none => exact ⟨[scalar u], rfl, rfl⟩
    | some high =>
      have hhigh := isLead_of_mem_heldUnit (Option.mem_def.mpr hheld)
      refine ⟨decodeUnits [high, u], ?_, rfl⟩
      by_cases hpair : isTrail u = true
      · have hchar := charFromU32_pair
          (by rw [hhigh, hpair]; rfl : (isLead high && isTrail u) = true)
        simp only [decodeUnits, hhigh, hpair, Bool.and_self, if_true, hchar]
      · simp [decodeUnits, hpair, scalar_of_isLead hhigh]

theorem decodeBytes_tracks (payload : List UInt8) (us : List UInt16) (odd : Option UInt8) :
    let (vs, rest) := ofUnitsLe (odd.toList ++ payload)
    ∃ chars, decodeBytes payload ⟨odd, heldUnit us⟩ = (chars, ⟨rest.head?, heldUnit (us ++ vs)⟩) ∧
      decodeUnits (settledUnits us) ++ chars = decodeUnits (settledUnits (us ++ vs)) := by
  induction payload generalizing us odd with
  | nil => cases odd <;> exact ⟨[], by simp [decodeBytes], by simp⟩
  | cons byte payload ih =>
    cases odd with
    | none =>
      obtain ⟨chars, hrun, hchars⟩ := ih us (some byte)
      exact ⟨chars, by simpa [decodeBytes, decodeByte] using hrun, hchars⟩
    | some low =>
      obtain ⟨chars, hunit, hchars⟩ :=
        decodeUnit_tracks us (UInt16.ofNat (low.toNat + 256 * byte.toNat))
      obtain ⟨more, hrun, hmore⟩ := ih (us ++ [UInt16.ofNat (low.toNat + 256 * byte.toNat)]) none
      rw [append_assoc] at hrun hmore
      refine ⟨chars ++ more, ?_, ?_⟩
      · simp only [decodeBytes, decodeByte, hunit, hrun]
        rfl
      · rw [← append_assoc, hchars, hmore]
        rfl

/-- At the end a surrogate that is left over is replaced. -/
theorem decodeUnits_heldUnit (us : List UInt16) :
    decodeUnits (settledUnits us) ++ (heldUnit us).toList.map (fun _ => replacement)
      = decodeUnits us := by
  have hsettled := decodeUnits_settled us []
  rw [append_nil, append_nil] at hsettled
  rw [hsettled]
  cases hheld : heldUnit us with
  | none => rfl
  | some high =>
    rw [← scalar_of_isLead (isLead_of_mem_heldUnit (Option.mem_def.mpr hheld))]
    rfl

theorem appendTypedUtf16_tracks : Tracks appendTypedUtf16 where
  more us odd chunk := by
    obtain ⟨chars, hrun, hchars⟩ := decodeBytes_tracks chunk us odd
    exact ⟨chars, by simp [appendTypedUtf16, hrun], hchars⟩
  last us odd chunk := by
    obtain ⟨chars, hrun, hchars⟩ := decodeBytes_tracks chunk us odd
    refine ⟨chars ++ _, by simp only [appendTypedUtf16, hrun, if_true]; rfl, ?_⟩
    rw [ofUnitsLe_rest, ← append_assoc, hchars, ← append_assoc, decodeUnits_heldUnit]

/-! ### The chunks -/

theorem chunkDecoder_tracks : Tracks chunkDecoder where
  more us odd chunk := by
    obtain ⟨hheld, hchars⟩ := heldUnit_append us (ofUnitsLe (odd.toList ++ chunk)).1
    refine ⟨decodeUnits (settledUnits ((heldUnit us).toList ++
      (ofUnitsLe (odd.toList ++ chunk)).1)), ?_, hchars⟩
    simp only [chunkDecoder, utf16leChunkToUtf8, Bool.false_eq_true, if_false, ← hheld]
    rfl
  last us odd chunk := by
    refine ⟨decodeUnits ((heldUnit us).toList ++ (ofUnitsLe (odd.toList ++ chunk)).1) ++
      (ofUnitsLe (odd.toList ++ chunk)).2.map fun _ => replacement, ?_, ?_⟩
    · rw [← ofUnitsLe_rest]
      simp only [chunkDecoder, utf16leChunkToUtf8, if_true, Option.isSome_none, Bool.or_false]
      cases (ofUnitsLe (odd.toList ++ chunk)).2.head? <;> simp
    · rw [← append_assoc, ← decodeUnits_settled]

/-- **The two decoders agree.**  Over every two splits of a value the output is the UTF-8 form of
the value decoded at once, with one replacement character for each unpaired surrogate and one for an
odd byte at the end, and nothing is carried on. -/
theorem utf16_decoders_agree (w : List UInt8) (chunks chunks' : List (List UInt8))
    (last last' : List UInt8) (h : chunks.flatten ++ last = w) (h' : chunks'.flatten ++ last' = w) :
    decodeChunks appendTypedUtf16 chunks last ⟨none, none⟩
        = decodeChunks chunkDecoder chunks' last' ⟨none, none⟩ ∧
      decodeChunks appendTypedUtf16 chunks last ⟨none, none⟩
        = (asBytes (decodeUtf16Lossy w), ⟨none, none⟩) := by
  obtain ⟨chars, hrun, hchars⟩ := decodeChunks_eq appendTypedUtf16_tracks chunks last [] none
  obtain ⟨chars', hrun', hchars'⟩ := decodeChunks_eq chunkDecoder_tracks chunks' last' [] none
  rw [Option.toList_none, nil_append, h] at hchars
  rw [Option.toList_none, nil_append, h'] at hchars'
  have htext : chars = decodeUtf16Lossy w := hchars
  have htext' : chars' = decodeUtf16Lossy w := hchars'
  exact ⟨hrun.trans (htext.trans htext'.symm ▸ hrun'.symm), htext ▸ hrun⟩

/-- A pair that is cut in its middle, behind a lone surrogate and in front of an odd byte. -/
theorem utf16_decoders_agree_cut :
    decodeChunks appendTypedUtf16 [[0x3D], [0xD8, 0x3D, 0xD8], []] [0x00, 0xDE, 0x41] ⟨none, none⟩
      = decodeChunks chunkDecoder [[0x3D, 0xD8, 0x3D], [0xD8, 0x00]] [0xDE, 0x41] ⟨none, none⟩ :=
  (utf16_decoders_agree [0x3D, 0xD8, 0x3D, 0xD8, 0x00, 0xDE, 0x41] _ _ _ _ rfl rfl).1

/-! ### A text read at once -/

def utf16ReadChunkUnits : ℕ := 64

/-- The length argument of a text that ends with a zero unit. -/
def sqlNts : ℤ := -3

/-- The units of a chunk to decode; a surrogate at its end is left for the next chunk, if any. -/
def decodedUnits (units rest : List UInt16) : List UInt16 :=
  if rest ≠ [] then settledUnits units else units

/-- A chunk that is not the last holds more than the surrogate that is left. -/
theorem decodedUnits_ne_nil {input : List UInt16} (h : input ≠ []) :
    decodedUnits (input.take utf16ReadChunkUnits) (input.drop utf16ReadChunkUnits) ≠ [] := by
  match input, h with
  | [u], _ => simp [decodedUnits, utf16ReadChunkUnits]
  | u :: v :: input, _ =>
    rw [decodedUnits, settledUnits]
    split_ifs <;> simp [utf16ReadChunkUnits]

/-- The loop over the units that are left. -/
def readChunks (input : List UInt16) : List Char :=
  if h : input = [] then []
  else
    let units := input.take utf16ReadChunkUnits
    let rest := input.drop utf16ReadChunkUnits
    if units.foldl (· ||| ·) 0 < 0x80 then
      (fromUtf8 (units.map (UInt8.ofNat ·.toNat))).getD [] ++ readChunks rest
    else
      let decoded := decodedUnits units rest
      decodeUnits decoded ++ readChunks (input.drop decoded.length)
termination_by input.length
decreasing_by
  · have := length_pos_iff.mpr h
    simp only [length_drop, utf16ReadChunkUnits]
    omega
  · have := length_pos_iff.mpr h
    have := length_pos_iff.mpr (decodedUnits_ne_nil h)
    rw [length_drop]
    omega

/-- The text at a pointer, given the units that can be read there. -/
def readUtf16Long (ptr : Option (List UInt16)) (length : ℤ) : List Char :=
  match ptr with
  | none => []
  | some units =>
    if length = sqlNts then readChunks (units.takeWhile (· ≠ 0))
    else if length ≤ 0 then [] else readChunks (units.take length.toNat)

/-- The same, decoded scalar by scalar. -/
def readUtf16LongReference (ptr : Option (List UInt16)) (length : ℤ) : List Char :=
  match ptr with
  | none => []
  | some units =>
    if length = sqlNts then decodeUnits (units.takeWhile (· ≠ 0))
    else if length ≤ 0 then [] else decodeUnits (units.take length.toNat)

/-- The bits of all units together bound each of them. -/
theorem le_foldl_or (units : List UInt16) (any : UInt16) :
    any ≤ units.foldl (· ||| ·) any ∧ ∀ u ∈ units, u ≤ units.foldl (· ||| ·) any := by
  induction units generalizing any with
  | nil => exact ⟨UInt16.le_refl _, by simp⟩
  | cons u units ih =>
    obtain ⟨hany, hunits⟩ := ih (any ||| u)
    have hleft : any ≤ any ||| u := by
      exact Nat.left_le_or
    have hright : u ≤ any ||| u := by
      exact Nat.right_le_or
    refine ⟨UInt16.le_trans hleft hany, fun v hv => ?_⟩
    rcases mem_cons.mp hv with rfl | hv
    · exact UInt16.le_trans hright hany
    · exact hunits v hv

/-- Units that are all ASCII are narrowed to their text, whatever follows. -/
theorem decodeUnits_ascii {units : List UInt16} (h : ∀ u ∈ units, u < 0x80) (rest : List UInt16) :
    decodeUnits (units ++ rest)
      = (fromUtf8 (units.map (UInt8.ofNat ·.toNat))).getD [] ++ decodeUnits rest := by
  have htext : asBytes (units.map (Char.ofNat ·.toNat)) = units.map (UInt8.ofNat ·.toNat) ∧
      decodeUnits (units ++ rest) = units.map (Char.ofNat ·.toNat) ++ decodeUnits rest := by
    induction units with
    | nil => exact ⟨rfl, rfl⟩
    | cons u units ih =>
      obtain ⟨hu, hunits⟩ := forall_mem_cons.mp h
      obtain ⟨hbytes, hchars⟩ := ih hunits
      have hlt : u.toNat < 128 := UInt16.lt_iff_toNat_lt.mp hu
      have hvalid : u.toNat.isValidChar := .inl (by omega)
      have hchar : (Char.ofNat u.toNat).toNat = u.toNat := by
        rw [Char.ofNat, dif_pos hvalid]
        rfl
      have h16 : encodeUtf16 (Char.ofNat u.toNat) = [u] := by
        rw [encodeUtf16, hchar, if_pos (by omega), UInt16.ofNat_toNat]
      obtain ⟨h8, -⟩ := encode_of_lt (hchar.trans_lt hlt)
      have hcons := decodeUnits_encodeUtf16 (Char.ofNat u.toNat) (units ++ rest)
      rw [h16, hchars] at hcons
      rw [map_cons, asBytes_cons, hbytes, h8, hchar]
      exact ⟨rfl, hcons⟩
  rw [htext.2, ← htext.1, fromUtf8_asBytes, Option.getD_some]

theorem readChunks_eq (input : List UInt16) : readChunks input = decodeUnits input := by
  fun_induction readChunks input with
  | case1 => rfl
  | case2 input hne units rest hascii ih =>
    have hall : ∀ u ∈ units, u < 0x80 := fun u hu =>
      UInt16.lt_of_le_of_lt ((le_foldl_or units 0).2 u hu) hascii
    rw [ih, ← decodeUnits_ascii hall, take_append_drop]
  | case3 input hne units rest hascii decoded ih =>
    rw [ih]
    have hinput : units ++ rest = input := take_append_drop ..
    by_cases hrest : rest = []
    · have hdecoded : decoded = input := by
        simpa [decoded, decodedUnits, hrest] using hinput
      rw [hdecoded, drop_length]
      exact append_nil _
    · -- the surrogate that is held back is the first of the units that are left
      have hdecoded : decoded = settledUnits units := if_pos hrest
      have hsplit : decoded ++ ((heldUnit units).toList ++ rest) = input := by
        rw [hdecoded, ← append_assoc, settledUnits_append_heldUnit, hinput]
      conv_lhs => rw [← hsplit]
      rw [drop_left, hdecoded, ← decodeUnits_settled, hinput]

/-- **The chunks do not show.**  Every text is read as its units are decoded at once, with one
replacement character for each unpaired surrogate. -/
theorem readUtf16Long_eq (ptr : Option (List UInt16)) (length : ℤ) :
    readUtf16Long ptr length = readUtf16LongReference ptr length ∧
      ∀ units : List UInt16, readUtf16Long (some units) units.length = decodeUnits units := by
  constructor
  · simp only [readUtf16Long, readUtf16LongReference, readChunks_eq]
  · intro units
    have hnts : (units.length : ℤ) ≠ sqlNts := by rw [sqlNts]; omega
    rw [readUtf16Long, if_neg hnts, readChunks_eq, Int.toNat_natCast, take_length]
    split
    · next h =>
      have hnil : units = [] := eq_nil_of_length_eq_zero (by omega)
      rw [hnil, decodeUnits]
    · rfl

end MssqlTds.Odbc
