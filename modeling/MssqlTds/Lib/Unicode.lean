import MssqlTds.Lib.Bytes

/-!
# UTF-16 and UTF-8 encodings of text

Text is a list of Unicode scalar values.  `encodeUtf16` gives the one or two 16-bit units of a
character, `utf16le` the little-endian bytes of a whole text, and `asBytes` its UTF-8 bytes.

`fromUtf8` reads well-formed UTF-8 back, and `decodeUtf16Lossy` any UTF-16, putting replacement
characters where it is malformed.
-/

namespace Unicode

open List Option

/-- A 16-bit unit as two bytes, low byte first. -/
def unitLe (u : UInt16) : List UInt8 := Bytes.leBytes 2 u.toNat

/-- The UTF-16 units of a character: itself, or a surrogate pair. -/
def encodeUtf16 (c : Char) : List UInt16 :=
  if c.toNat < 0x10000 then [UInt16.ofNat c.toNat]
  else
    let v := c.toNat - 0x10000
    [UInt16.ofNat (0xD800 + v / 0x400), UInt16.ofNat (0xDC00 + v % 0x400)]

def utf16Units (t : List Char) : List UInt16 := t.flatMap encodeUtf16

/-- Units as little-endian bytes. -/
def unitsLe (us : List UInt16) : List UInt8 := us.flatMap unitLe

/-- The little-endian UTF-16 bytes of a text. -/
def utf16le (t : List Char) : List UInt8 := unitsLe (utf16Units t)

/-- The UTF-8 bytes of a text. -/
def asBytes (t : List Char) : List UInt8 := t.flatMap String.utf8EncodeChar

/-- A byte below 128. -/
def isAscii (b : UInt8) : Bool := b < 128

@[simp] theorem length_unitLe (u : UInt16) : (unitLe u).length = 2 := by simp [unitLe]

@[simp] theorem unitsLe_nil : unitsLe [] = [] := rfl

@[simp] theorem unitsLe_cons (u : UInt16) (us : List UInt16) :
    unitsLe (u :: us) = unitLe u ++ unitsLe us := rfl

@[simp] theorem unitsLe_append (us vs : List UInt16) :
    unitsLe (us ++ vs) = unitsLe us ++ unitsLe vs := by simp [unitsLe]

@[simp] theorem length_unitsLe (us : List UInt16) : (unitsLe us).length = 2 * us.length := by
  induction us with
  | nil => rfl
  | cons u us ih =>
    simp only [unitsLe_cons, length_append, length_unitLe, ih, length_cons]
    omega

@[simp] theorem utf16Units_nil : utf16Units [] = [] := rfl

@[simp] theorem utf16Units_cons (c : Char) (t : List Char) :
    utf16Units (c :: t) = encodeUtf16 c ++ utf16Units t := rfl

theorem encodeUtf16_cases (c : Char) :
    (∃ u, encodeUtf16 c = [u]) ∨ ∃ hi lo, encodeUtf16 c = [hi, lo] := by
  unfold encodeUtf16
  split
  · exact .inl ⟨_, rfl⟩
  · exact .inr ⟨_, _, rfl⟩

variable {c : Char}

/-- An ASCII character is one byte of UTF-8 and one unit of UTF-16, both its code. -/
theorem encode_of_lt (h : c.toNat < 128) :
    String.utf8EncodeChar c = [UInt8.ofNat c.toNat] ∧
      ∃ u, encodeUtf16 c = [u] ∧ unitLe u = [UInt8.ofNat c.toNat, 0] := by
  have h8 : c.val.toNat ≤ 127 := Nat.le_of_lt_succ h
  have h16 : c.toNat < 0x10000 := by omega
  refine ⟨if_pos h8, UInt16.ofNat c.toNat, if_pos h16, ?_⟩
  have hmod : c.toNat % 2 ^ 16 = c.toNat := Nat.mod_eq_of_lt h16
  have hdiv : c.toNat / 256 = 0 := by omega
  simp only [unitLe, UInt16.toNat_ofNat', hmod, Bytes.leBytes, hdiv]
  rfl

theorem utf8EncodeChar_ne_nil (c : Char) : String.utf8EncodeChar c ≠ [] := by
  rw [← length_pos_iff, String.length_utf8EncodeChar]
  exact c.utf8Size_pos

/-- No byte of a character beyond ASCII is an ASCII byte. -/
theorem not_isAscii_of_mem (h : 128 ≤ c.toNat) {b : UInt8}
    (hb : b ∈ String.utf8EncodeChar c) : isAscii b = false := by
  have h8 : ¬ c.val.toNat ≤ 127 := Nat.not_le.mpr h
  have big (k n : ℕ) (hk : 128 ≤ k) (hlt : n + k < 256) :
      isAscii (UInt8.ofNat (n + k)) = false := by
    simp only [isAscii, decide_eq_false_iff_not, UInt8.not_lt, UInt8.le_iff_toNat_le,
      UInt8.toNat_ofNat', Nat.mod_eq_of_lt hlt]
    exact Nat.le_trans hk (Nat.le_add_left _ _)
  simp only [String.utf8EncodeChar, h8, if_false] at hb
  split at hb
  · rcases mem_cons.mp hb with rfl | hb
    · exact big _ _ (by omega) (by omega)
    · rw [mem_singleton.mp hb]
      exact big _ _ (by omega) (by omega)
  · split at hb
    · simp only [mem_cons, not_mem_nil, or_false] at hb
      rcases hb with rfl | rfl | rfl <;> exact big _ _ (by omega) (by omega)
    · simp only [mem_cons, not_mem_nil, or_false] at hb
      rcases hb with rfl | rfl | rfl | rfl <;> exact big _ _ (by omega) (by omega)

/-- The first UTF-8 byte of a character beyond ASCII is not an ASCII byte. -/
theorem head_of_ge (h : 128 ≤ c.toNat) :
    ∃ b bs, String.utf8EncodeChar c = b :: bs ∧ isAscii b = false := by
  obtain ⟨b, bs, hbs⟩ := exists_cons_of_ne_nil (utf8EncodeChar_ne_nil c)
  exact ⟨b, bs, hbs, not_isAscii_of_mem h (by simp [hbs])⟩

@[simp] theorem asBytes_nil : asBytes [] = [] := rfl

@[simp] theorem asBytes_cons (c : Char) (t : List Char) :
    asBytes (c :: t) = String.utf8EncodeChar c ++ asBytes t := rfl

/-- The ASCII bytes among the first `n` of a text's UTF-8 are its leading ASCII characters, and
widened by a zero byte they are the UTF-16 of these characters. -/
theorem takeWhile_asBytes (t : List Char) (n : ℕ) :
    let k := (((asBytes t).take n).takeWhile isAscii).length
    k ≤ n ∧ ∃ us, us.length = k ∧ utf16Units t = us ++ utf16Units (t.drop k) ∧
      unitsLe us = ((asBytes t).take k).flatMap fun b => [b, 0] := by
  induction t generalizing n with
  | nil => simp
  | cons c t ih =>
    cases n with
    | zero => simp
    | succ n =>
      by_cases hc : c.toNat < 128
      · obtain ⟨h8, u, h16, hle⟩ := encode_of_lt hc
        have hb : isAscii (UInt8.ofNat c.toNat) = true := by
          simp only [isAscii, decide_eq_true_eq, UInt8.lt_iff_toNat_lt, UInt8.toNat_ofNat']
          exact lt_of_le_of_lt (Nat.mod_le _ _) hc
        obtain ⟨hk, us, hlen, hunits, hbytes⟩ := ih n
        simp only [asBytes_cons, h8, cons_append, nil_append, take_succ_cons,
          takeWhile_cons, hb, if_true, length_cons, utf16Units_cons, h16,
          drop_succ_cons, flatMap_cons]
        exact ⟨by omega, u :: us, by simp [hlen], by rw [cons_append, ← hunits],
          by rw [unitsLe_cons, hle, hbytes]; rfl⟩
      · obtain ⟨b, bs, hbs, hb⟩ := head_of_ge (not_lt.mp hc)
        simp [hbs, hb]

/-- A character takes no more UTF-16 units than UTF-8 bytes. -/
theorem length_encodeUtf16_le (c : Char) :
    (encodeUtf16 c).length ≤ (String.utf8EncodeChar c).length := by
  unfold encodeUtf16
  split
  · rw [String.length_utf8EncodeChar]
    exact c.utf8Size_pos
  · -- beyond the basic plane the UTF-8 form has four bytes
    have h8 : ¬ c.toNat ≤ 127 := by omega
    have h11 : ¬ c.toNat ≤ 2047 := by omega
    have h16 : ¬ c.toNat ≤ 65535 := by omega
    simp [String.utf8EncodeChar, h8, h11, h16]

theorem length_utf16Units_le (t : List Char) : (utf16Units t).length ≤ (asBytes t).length := by
  induction t with
  | nil => exact le_refl 0
  | cons c t ih =>
    rw [utf16Units_cons, asBytes_cons, length_append, length_append]
    exact Nat.add_le_add (length_encodeUtf16_le c) ih

/-- Only ASCII characters take as many UTF-16 units as UTF-8 bytes. -/
theorem length_encodeUtf16_lt (h : 128 ≤ c.toNat) :
    (encodeUtf16 c).length < (String.utf8EncodeChar c).length := by
  have h8 : ¬ c.val.toNat ≤ 127 := Nat.not_le.mpr h
  unfold encodeUtf16
  split
  · simp only [String.utf8EncodeChar, h8, if_false, length_singleton]
    split
    · simp
    · split <;> simp
  · have h11 : ¬ c.toNat ≤ 2047 := by omega
    have h16 : ¬ c.toNat ≤ 65535 := by omega
    simp [String.utf8EncodeChar, h11, h16, show ¬ c.toNat ≤ 127 by omega]

theorem length_utf16Units_eq_iff (t : List Char) :
    (utf16Units t).length = (asBytes t).length ↔ ∀ c ∈ t, c.toNat < 128 := by
  induction t with
  | nil => simp
  | cons c t ih =>
    rw [utf16Units_cons, asBytes_cons, length_append, length_append,
      forall_mem_cons, ← ih]
    have hrest := length_utf16Units_le t
    have hchar := length_encodeUtf16_le c
    constructor
    · intro h
      refine ⟨?_, by omega⟩
      by_contra hc
      have := length_encodeUtf16_lt (Nat.le_of_not_lt hc)
      omega
    · rintro ⟨hc, h⟩
      obtain ⟨h8, u, h16, -⟩ := encode_of_lt hc
      rw [h8, h16, h]
      rfl

/-- A character takes at most three UTF-8 bytes for each UTF-16 unit. -/
theorem length_asBytes_le (text : List Char) :
    (asBytes text).length ≤ 3 * (utf16Units text).length := by
  induction text with
  | nil => exact le_refl 0
  | cons c text ih =>
    have hc : (String.utf8EncodeChar c).length ≤ 3 * (encodeUtf16 c).length := by
      unfold encodeUtf16
      split
      · next hlt =>
        have h16 : c.toNat ≤ 65535 := by omega
        simp only [String.utf8EncodeChar, Char.toNat_val, h16, if_true]
        split_ifs <;> simp
      · rw [String.length_utf8EncodeChar]
        exact c.utf8Size_le_four.trans (by simp)
    rw [asBytes_cons, utf16Units_cons, length_append, length_append]
    omega

/-! ### Reading UTF-8 back -/

/-- The text a UTF-8 byte string spells, if it is well formed. -/
def fromUtf8 (bs : List UInt8) : Option (List Char) := bs.toByteArray.utf8Decode?.map Array.toList

theorem fromUtf8_asBytes (t : List Char) : fromUtf8 (asBytes t) = some t := by
  simp only [fromUtf8, asBytes]
  rw [← List.utf8Encode, List.utf8Decode?_utf8Encode]
  rfl

theorem asBytes_of_fromUtf8 {bs : List UInt8} {t : List Char} (h : fromUtf8 bs = some t) :
    asBytes t = bs := by
  obtain ⟨cs, hcs, rfl⟩ := map_eq_some_iff.mp h
  have henc := ByteArray.utf8Encode_get_utf8Decode? (b := bs.toByteArray) (h := by simp [hcs])
  simp only [hcs, get_some] at henc
  exact toByteArray_inj.mp henc

/-! ### Reading UTF-16 back -/

/-- A leading surrogate. -/
def isLead (u : UInt16) : Bool := 0xD800 ≤ u.toNat && u.toNat < 0xDC00

/-- A trailing surrogate. -/
def isTrail (u : UInt16) : Bool := 0xDC00 ≤ u.toNat && u.toNat < 0xE000

def replacement : Char := '�'

/-- The character of a unit on its own. -/
def scalar (u : UInt16) : Char :=
  if isLead u || isTrail u then replacement else Char.ofNat u.toNat

/-- The text of a sequence of units; a surrogate without its partner is replaced. -/
def decodeUnits : List UInt16 → List Char
  | [] => []
  | [u] => [scalar u]
  | u :: v :: us =>
    if isLead u && isTrail v then
      Char.ofNat (0x10000 + (u.toNat - 0xD800) * 0x400 + (v.toNat - 0xDC00)) :: decodeUnits us
    else scalar u :: decodeUnits (v :: us)

/-- Little-endian bytes as units, with a trailing half unit left over. -/
def ofUnitsLe : List UInt8 → List UInt16 × List UInt8
  | lo :: hi :: bs =>
    let (us, rest) := ofUnitsLe bs
    (UInt16.ofNat (lo.toNat + 256 * hi.toNat) :: us, rest)
  | bs => ([], bs)

/-- The text of little-endian UTF-16 bytes, with what is malformed replaced. -/
def decodeUtf16Lossy (bs : List UInt8) : List Char :=
  let (us, rest) := ofUnitsLe bs
  decodeUnits us ++ rest.map fun _ => replacement

/-- Units are read from their bytes, whatever follows. -/
theorem ofUnitsLe_unitsLe_append (us : List UInt16) (bs : List UInt8) :
    ofUnitsLe (unitsLe us ++ bs) = (us ++ (ofUnitsLe bs).1, (ofUnitsLe bs).2) := by
  induction us with
  | nil => rfl
  | cons u us ih =>
    have hu : UInt16.ofNat ((UInt8.ofNat u.toNat).toNat + 256 * (UInt8.ofNat (u.toNat / 256)).toNat)
        = u := by
      have := Bytes.ofLe_leBytes 2 u.toNat
      simp only [Bytes.leBytes, Bytes.ofLe_cons, Bytes.ofLe_nil] at this
      rw [show (UInt8.ofNat u.toNat).toNat + 256 * (UInt8.ofNat (u.toNat / 256)).toNat =
        u.toNat % 256 ^ 2 by omega]
      exact UInt16.toNat_inj.mp (by simp [Nat.mod_eq_of_lt u.toNat_lt])
    simp only [unitsLe_cons, unitLe, Bytes.leBytes, cons_append, nil_append, ofUnitsLe, ih,
      hu]

theorem ofUnitsLe_unitsLe (us : List UInt16) : ofUnitsLe (unitsLe us) = (us, []) := by
  have hnil : ofUnitsLe [] = ([], []) := rfl
  have h := ofUnitsLe_unitsLe_append us []
  rwa [append_nil, hnil, append_nil] at h

/-- Bytes are their units and what is left over. -/
theorem unitsLe_ofUnitsLe (bs : List UInt8) :
    unitsLe (ofUnitsLe bs).1 ++ (ofUnitsLe bs).2 = bs ∧
      (ofUnitsLe bs).2.length = bs.length % 2 := by
  fun_induction ofUnitsLe bs with
  | case1 lo hi bs us rest heq ih =>
    have hlo := lo.toNat_lt
    have hhi := hi.toNat_lt
    have hu : unitLe (UInt16.ofNat (lo.toNat + 256 * hi.toNat)) = [lo, hi] := by
      simp only [unitLe, Bytes.leBytes, UInt16.toNat_ofNat', List.cons.injEq, and_true,
        ← UInt8.toNat_inj, UInt8.toNat_ofNat']
      omega
    rw [heq] at ih
    rw [unitsLe_cons, hu, append_assoc, ih.1, ih.2]
    refine ⟨rfl, ?_⟩
    simp only [length_cons]
    omega
  | case2 bs hbs =>
    refine ⟨rfl, ?_⟩
    rcases bs with _ | ⟨lo, _ | ⟨hi, bs⟩⟩
    · rfl
    · rfl
    · exact absurd rfl (hbs lo hi bs)

/-- Bytes behind others are read behind what these leave over. -/
theorem ofUnitsLe_append (a b : List UInt8) :
    ofUnitsLe (a ++ b) = ((ofUnitsLe a).1 ++ (ofUnitsLe ((ofUnitsLe a).2 ++ b)).1,
      (ofUnitsLe ((ofUnitsLe a).2 ++ b)).2) := by
  rw [← ofUnitsLe_unitsLe_append, ← append_assoc, (unitsLe_ofUnitsLe a).1]

/-- At most one byte is left over. -/
theorem ofUnitsLe_rest (bs : List UInt8) : (ofUnitsLe bs).2.head?.toList = (ofUnitsLe bs).2 := by
  have hlen := (unitsLe_ofUnitsLe bs).2
  match (ofUnitsLe bs).2, hlen with
  | [], _ => rfl
  | [_], _ => rfl
  | _ :: _ :: _, hlen =>
    simp only [length_cons] at hlen
    omega

theorem toNat_valid (c : Char) : c.toNat < 0xD800 ∨ 0xE000 ≤ c.toNat ∧ c.toNat < 0x110000 := by
  have := c.valid
  have h : c.val.toNat = c.toNat := rfl
  omega

variable {u : UInt16}

theorem decodeUnits_cons (h : isLead u = false) (us : List UInt16) :
    decodeUnits (u :: us) = scalar u :: decodeUnits us := by
  cases us with
  | nil => rfl
  | cons v us => rw [decodeUnits, h, Bool.false_and, if_neg Bool.false_ne_true]

/-- The text of units can be cut where no pair is cut. -/
theorem decodeUnits_append {us vs : List UInt16}
    (h : ∀ u ∈ us.getLast?, ∀ v ∈ vs.head?, (isLead u && isTrail v) = false) :
    decodeUnits (us ++ vs) = decodeUnits us ++ decodeUnits vs := by
  fun_induction decodeUnits us with
  | case1 => rfl
  | case2 u =>
    cases vs with
    | nil => rfl
    | cons v vs =>
      rw [singleton_append, decodeUnits, h u rfl v rfl, if_neg Bool.false_ne_true]
      rfl
  | case3 u v us hpair ih =>
    have hlast : ∀ w ∈ us.getLast?, w ∈ (u :: v :: us).getLast? := by
      intro w hw
      cases us with
      | nil => cases hw
      | cons x us => simpa using hw
    rw [cons_append, cons_append, decodeUnits, if_pos hpair,
      ih fun w hw => h w (hlast w hw)]
    rfl
  | case4 u v us hpair ih =>
    have hlast : ∀ w ∈ (v :: us).getLast?, w ∈ (u :: v :: us).getLast? := by
      intro w hw
      simpa using hw
    rw [cons_append, cons_append, decodeUnits, if_neg hpair, ← cons_append,
      ih fun w hw => h w (hlast w hw)]
    rfl

/-- A leading surrogate at the end of units, which may have its partner behind it. -/
def heldUnit (us : List UInt16) : Option UInt16 := us.getLast?.filter isLead

/-- The units in front of it. -/
def settledUnits (us : List UInt16) : List UInt16 :=
  if (heldUnit us).isSome then us.dropLast else us

theorem isLead_of_mem_heldUnit {us : List UInt16} (h : u ∈ heldUnit us) :
    isLead u = true := (mem_filter_iff.mp h).2

theorem scalar_of_isLead (h : isLead u = true) : scalar u = replacement := by
  rw [scalar, h, Bool.true_or, if_pos rfl]

theorem heldUnit_concat (us : List UInt16) (u : UInt16) :
    heldUnit (us ++ [u]) = if isLead u then some u else none := by
  rw [heldUnit, List.getLast?_concat, filter_some]

theorem settledUnits_concat (us : List UInt16) (u : UInt16) :
    settledUnits (us ++ [u]) = if isLead u then us else us ++ [u] := by
  rw [settledUnits, heldUnit_concat]
  split <;> simp

theorem settledUnits_append_heldUnit (us : List UInt16) :
    settledUnits us ++ (heldUnit us).toList = us := by
  cases hheld : heldUnit us with
  | none => simp [settledUnits, hheld]
  | some u =>
    obtain ⟨hlast, -⟩ := filter_eq_some_iff.mp hheld
    obtain ⟨ys, rfl⟩ := List.getLast?_eq_some_iff.mp hlast
    simp [settledUnits, hheld]

/-- The text of units is settled but for a leading surrogate at their end. -/
theorem decodeUnits_settled (us vs : List UInt16) :
    decodeUnits (us ++ vs)
      = decodeUnits (settledUnits us) ++ decodeUnits ((heldUnit us).toList ++ vs) := by
  have hsplit := settledUnits_append_heldUnit us
  rw [← decodeUnits_append, ← append_assoc, hsplit]
  intro u hu v hv
  cases hheld : heldUnit us with
  | none =>
    rw [hheld, toList_none, append_nil] at hsplit
    rw [hsplit] at hu
    have hlead : isLead u ≠ true := fun h =>
      filter_eq_none_iff.mp hheld u hu h
    simp [hlead]
  | some h =>
    have hlead := isLead_of_mem_heldUnit (mem_def.mpr hheld)
    rw [hheld, toList_some, singleton_append, List.head?_cons, mem_def] at hv
    cases hv
    simp only [isLead, isTrail, Bool.and_eq_true, Bool.and_eq_false_iff, decide_eq_true_iff,
      decide_eq_false_iff_not] at hlead ⊢
    omega

/-- Only the surrogate at the end of units has to be kept for those behind them. -/
theorem heldUnit_append (us vs : List UInt16) :
    heldUnit ((heldUnit us).toList ++ vs) = heldUnit (us ++ vs) ∧
      decodeUnits (settledUnits us) ++ decodeUnits (settledUnits ((heldUnit us).toList ++ vs))
        = decodeUnits (settledUnits (us ++ vs)) := by
  rcases eq_nil_or_concat vs with rfl | ⟨vs, v, rfl⟩
  · rw [append_nil, append_nil]
    cases hheld : heldUnit us with
    | none => simp [settledUnits, heldUnit, decodeUnits]
    | some high =>
      have hlead := isLead_of_mem_heldUnit (mem_def.mpr hheld)
      simp [settledUnits, heldUnit, hlead, decodeUnits]
  · rw [concat_eq_append, ← append_assoc, ← append_assoc, heldUnit_concat,
      heldUnit_concat, settledUnits_concat, settledUnits_concat]
    refine ⟨rfl, ?_⟩
    split
    · rw [decodeUnits_settled us vs]
    · rw [append_assoc, append_assoc, decodeUnits_settled us (vs ++ [v])]

theorem decodeUnits_encodeUtf16 (c : Char) (us : List UInt16) :
    decodeUnits (encodeUtf16 c ++ us) = c :: decodeUnits us := by
  have hc := toNat_valid c
  rw [encodeUtf16]
  split
  · rename_i hlt
    have hu : (UInt16.ofNat c.toNat).toNat = c.toNat := by
      rw [UInt16.toNat_ofNat', Nat.mod_eq_of_lt hlt]
    have hlead : isLead (UInt16.ofNat c.toNat) = false := by
      simp only [isLead, hu, Bool.and_eq_false_iff, decide_eq_false_iff_not]
      omega
    have htrail : isTrail (UInt16.ofNat c.toNat) = false := by
      simp only [isTrail, hu, Bool.and_eq_false_iff, decide_eq_false_iff_not]
      omega
    rw [singleton_append, decodeUnits_cons hlead, scalar, hlead, htrail, hu, Char.ofNat_toNat]
    rfl
  · rename_i hge
    generalize hv : c.toNat - 0x10000 = v
    have hhi : (UInt16.ofNat (0xD800 + v / 0x400)).toNat = 0xD800 + v / 0x400 := by
      rw [UInt16.toNat_ofNat', Nat.mod_eq_of_lt]
      omega
    have hlo : (UInt16.ofNat (0xDC00 + v % 0x400)).toNat = 0xDC00 + v % 0x400 := by
      rw [UInt16.toNat_ofNat', Nat.mod_eq_of_lt]
      omega
    have hpair : (isLead (UInt16.ofNat (0xD800 + v / 0x400)) &&
        isTrail (UInt16.ofNat (0xDC00 + v % 0x400))) = true := by
      simp only [isLead, isTrail, hhi, hlo, Bool.and_eq_true, decide_eq_true_eq]
      omega
    rw [cons_append, cons_append, nil_append, decodeUnits, if_pos hpair, hhi, hlo]
    have hsum : 0x10000 + (0xD800 + v / 0x400 - 0xD800) * 0x400 + (0xDC00 + v % 0x400 - 0xDC00) =
        c.toNat := by omega
    rw [hsum, Char.ofNat_toNat]

theorem decodeUnits_utf16Units (t : List Char) : decodeUnits (utf16Units t) = t := by
  induction t with
  | nil => rfl
  | cons c t ih => rw [utf16Units_cons, decodeUnits_encodeUtf16, ih]

theorem decodeUtf16Lossy_utf16le (t : List Char) : decodeUtf16Lossy (utf16le t) = t := by
  rw [decodeUtf16Lossy, utf16le, ofUnitsLe_unitsLe]
  simp [decodeUnits_utf16Units]

/-- Characters of the basic plane take one unit each. -/
theorem length_utf16Units_of_lt {t : List Char} (h : ∀ c ∈ t, c.toNat < 0x10000) :
    (utf16Units t).length = t.length := by
  induction t with
  | nil => rfl
  | cons c t ih =>
    have hc : (encodeUtf16 c).length = 1 := by
      rw [encodeUtf16, if_pos (h c mem_cons_self), length_singleton]
    rw [utf16Units_cons, length_append, hc, ih fun d hd => h d (mem_cons_of_mem c hd), length_cons,
      Nat.add_comm]

/-- A unit on its own is one character of one unit. -/
theorem length_encodeUtf16_scalar (u : UInt16) : (encodeUtf16 (scalar u)).length = 1 := by
  have hlt : (scalar u).toNat < 0x10000 := by
    have hu := u.toNat_lt
    rw [scalar]
    split
    · decide
    · by_cases hvalid : u.toNat.isValidChar
      · rwa [Char.ofNat, dif_pos hvalid]
      · rw [Char.ofNat, dif_neg hvalid]
        decide
  rw [encodeUtf16, if_pos hlt, length_singleton]

theorem length_utf16Units_decodeUnits (us : List UInt16) :
    (utf16Units (decodeUnits us)).length ≤ us.length := by
  fun_induction decodeUnits us with
  | case1 => exact le_refl 0
  | case2 u =>
    rw [utf16Units_cons, length_append, length_encodeUtf16_scalar]
    rfl
  | case3 u v us h ih =>
    have hpair (c : Char) : (encodeUtf16 c).length ≤ 2 := by
      rcases encodeUtf16_cases c with ⟨u, hu⟩ | ⟨hi, lo, hu⟩ <;> simp [hu]
    rw [utf16Units_cons, length_append]
    exact (Nat.add_le_add (hpair _) ih).trans_eq (Nat.add_comm _ _)
  | case4 u v us h ih =>
    rw [utf16Units_cons, length_append, length_encodeUtf16_scalar, Nat.add_comm]
    exact Nat.succ_le_succ ih

/-- Decoding yields at most one unit for each byte. -/
theorem length_utf16Units_decodeUtf16Lossy (bs : List UInt8) :
    (utf16Units (decodeUtf16Lossy bs)).length ≤ bs.length := by
  have hunits := length_utf16Units_decodeUnits (ofUnitsLe bs).1
  have hlength := congrArg length (unitsLe_ofUnitsLe bs).1
  have hrest (rest : List UInt8) :
      (utf16Units (rest.map fun _ => replacement)).length = rest.length := by
    rw [length_utf16Units_of_lt (by simp [replacement]), length_map]
  rw [length_append, length_unitsLe] at hlength
  change (utf16Units (decodeUnits (ofUnitsLe bs).1 ++ (ofUnitsLe bs).2.map _)).length ≤ _
  rw [utf16Units, flatMap_append, length_append]
  change (utf16Units _).length + (utf16Units _).length ≤ _
  rw [hrest]
  omega

end Unicode
