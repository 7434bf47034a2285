import MssqlTds.Lib.Unicode

/-!
# Byte offsets into text

Text can be searched byte by byte for ASCII characters, because no byte of a longer character is an
ASCII byte: an offset found this way is a character boundary (`findIdx?_asBytes`), and the bytes
next to it are read as characters (`getElem?_asBytes_append`, `getElem?_asBytes_last`).
`splitAtByte` cuts a text at a byte offset, which fails inside a character.
-/

namespace Unicode

open List

/-- The byte of an ASCII character. -/
def byteOf (c : Char) : UInt8 := UInt8.ofNat c.toNat

theorem utf8EncodeChar_ascii {c : Char} (h : c.toNat < 128) :
    String.utf8EncodeChar c = [byteOf c] :=
  (encode_of_lt h).1

@[simp] theorem asBytes_append (s t : List Char) : asBytes (s ++ t) = asBytes s ++ asBytes t := by
  simp [asBytes]

/-- ASCII text takes a byte for each character. -/
theorem length_append_ascii (a : List Char) {t : List Char} (h : ∀ c ∈ t, c.toNat < 128) :
    (asBytes (a ++ t)).length = (asBytes a).length + t.length := by
  rw [asBytes_append, length_append]
  induction t with
  | nil => rfl
  | cons c t ih =>
    have hlen := ih fun d hd => h d (mem_cons_of_mem _ hd)
    rw [asBytes_cons, utf8EncodeChar_ascii (h c mem_cons_self), length_append,
      length_singleton, length_cons]
    omega

/-- A byte is an ASCII byte of a character only if it is that character. -/
theorem byteOf_mem_utf8EncodeChar {c d : Char} (hd : d.toNat < 128) :
    byteOf d ∈ String.utf8EncodeChar c ↔ c = d := by
  have hascii : isAscii (byteOf d) = true := by
    simp only [isAscii, byteOf, decide_eq_true_eq, UInt8.lt_iff_toNat_lt, UInt8.toNat_ofNat']
    exact Nat.lt_of_le_of_lt (Nat.mod_le _ _) hd
  by_cases hc : c.toNat < 128
  · rw [utf8EncodeChar_ascii hc, mem_singleton, byteOf, byteOf]
    constructor
    · intro h
      have hnat := congrArg UInt8.toNat h
      rw [UInt8.toNat_ofNat', UInt8.toNat_ofNat', Nat.mod_eq_of_lt (by omega),
        Nat.mod_eq_of_lt (by omega)] at hnat
      exact (Char.ext (UInt32.toNat_inj.mp hnat)).symm
    · rintro rfl
      rfl
  · constructor
    · intro h
      rw [not_isAscii_of_mem (Nat.not_lt.mp hc) h] at hascii
      cases hascii
    · rintro rfl
      exact absurd hd hc

/-! ### Searching -/

/-- Searching the bytes of a text for one of some ASCII characters finds the first of them. -/
theorem findIdx?_asBytes {ds : List Char} (hds : ∀ d ∈ ds, d.toNat < 128) (t : List Char) :
    ((∀ c ∈ t, c ∉ ds) ∧ (asBytes t).findIdx? (fun b => (ds.map byteOf).contains b) = none) ∨
      ∃ a c b, t = a ++ c :: b ∧ (∀ x ∈ a, x ∉ ds) ∧ c ∈ ds ∧
        (asBytes t).findIdx? (fun b => (ds.map byteOf).contains b) = some (asBytes a).length := by
  induction t with
  | nil => exact .inl ⟨fun c hc => absurd hc not_mem_nil, rfl⟩
  | cons c t ih =>
    by_cases hc : c ∈ ds
    · refine .inr ⟨[], c, t, rfl, fun x hx => absurd hx not_mem_nil, hc, ?_⟩
      rw [asBytes_cons, utf8EncodeChar_ascii (hds c hc), singleton_append, List.findIdx?_cons,
        if_pos]
      · rfl
      · simpa using ⟨c, hc, rfl⟩
    · have hskip : (String.utf8EncodeChar c).findIdx? (fun b => (ds.map byteOf).contains b)
          = none := by
        rw [List.findIdx?_eq_none_iff]
        intro b hb
        simp only [contains_eq_mem, mem_map, decide_eq_false_iff_not]
        rintro ⟨d, hd, rfl⟩
        exact hc ((byteOf_mem_utf8EncodeChar (hds d hd)).mp hb ▸ hd)
      rw [asBytes_cons, List.findIdx?_append, hskip, Option.none_or]
      rcases ih with ⟨hall, hnone⟩ | ⟨a, d, b, rfl, ha, hd, hsome⟩
      · left
        rw [hnone]
        refine ⟨?_, rfl⟩
        intro x hx
        rcases mem_cons.mp hx with rfl | hx
        · exact hc
        · exact hall x hx
      · right
        refine ⟨c :: a, d, b, rfl, ?_, hd, ?_⟩
        · intro x hx
          rcases mem_cons.mp hx with rfl | hx
          · exact hc
          · exact ha x hx
        · rw [hsome, asBytes_cons, length_append, Option.map_some, Nat.add_comm]

/-- The byte behind a piece of text is an ASCII byte if that character follows. -/
theorem getElem?_asBytes_append (a b : List Char) {d : Char} (hd : d.toNat < 128) :
    (asBytes (a ++ b))[(asBytes a).length]? = some (byteOf d) ↔ b.head? = some d := by
  rw [asBytes_append, List.getElem?_append_right (Nat.le_refl _), Nat.sub_self]
  cases b with
  | nil => simp
  | cons c b =>
    rw [asBytes_cons, List.head?_cons, Option.some_inj, ← byteOf_mem_utf8EncodeChar hd]
    obtain ⟨x, xs, hx⟩ := exists_cons_of_ne_nil (utf8EncodeChar_ne_nil c)
    rw [hx, cons_append, List.getElem?_cons_zero, Option.some_inj]
    constructor
    · rintro rfl
      exact mem_cons_self
    · intro h
      -- the character is the ASCII one, so the first byte is all of it
      have hcd : c = d := (byteOf_mem_utf8EncodeChar hd).mp (hx ▸ h)
      rw [hcd, utf8EncodeChar_ascii hd] at hx
      exact (List.cons.inj hx).1.symm

/-- The last byte of a text is an ASCII byte if its last character is. -/
theorem getElem?_asBytes_last (a : List Char) {d : Char} (hd : d.toNat < 128) :
    (asBytes a).getLast? = some (byteOf d) ↔ a.getLast? = some d := by
  rcases eq_nil_or_concat a with rfl | ⟨a, c, rfl⟩
  · simp
  · rw [concat_eq_append, asBytes_append, asBytes_cons, asBytes_nil, append_nil,
      List.getLast?_append, List.getLast?_append, List.getLast?_singleton, Option.some_or,
      Option.some_inj, ← byteOf_mem_utf8EncodeChar hd]
    rcases eq_nil_or_concat (String.utf8EncodeChar c) with hnil | ⟨xs, x, hx⟩
    · exact absurd hnil (utf8EncodeChar_ne_nil c)
    · rw [concat_eq_append] at hx
      rw [hx, List.getLast?_append, List.getLast?_singleton, Option.some_or, Option.some_or,
        Option.some_inj]
      constructor
      · rintro rfl
        simp
      · intro h
        have hcd : c = d := (byteOf_mem_utf8EncodeChar hd).mp (hx ▸ h)
        rw [hcd, utf8EncodeChar_ascii hd] at hx
        have hlast := congrArg List.getLast? hx
        rw [List.getLast?_append, List.getLast?_singleton, List.getLast?_singleton,
          Option.some_or, Option.some_inj] at hlast
        exact hlast.symm

/-! ### Cutting -/

/-- Cut a text behind its first `n` bytes; nothing if that is inside a character. -/
def splitAtByte : List Char → ℕ → Option (List Char × List Char)
  | t, 0 => some ([], t)
  | [], _ + 1 => none
  | c :: t, n + 1 =>
    let size := (String.utf8EncodeChar c).length
    if size ≤ n + 1 then (splitAtByte t (n + 1 - size)).map fun (a, b) => (c :: a, b) else none

theorem splitAtByte_append (a b : List Char) :
    splitAtByte (a ++ b) (asBytes a).length = some (a, b) := by
  induction a with
  | nil => cases b <;> rfl
  | cons c a ih =>
    have hpos : 0 < (String.utf8EncodeChar c).length :=
      length_pos_iff.mpr (utf8EncodeChar_ne_nil c)
    obtain ⟨n, hn⟩ : ∃ n, (asBytes (c :: a)).length = n + 1 :=
      Nat.exists_eq_succ_of_ne_zero (by rw [asBytes_cons, length_append]; omega)
    have hlen : n + 1 = (String.utf8EncodeChar c).length + (asBytes a).length := by
      rw [← hn, asBytes_cons, length_append]
    rw [hn, cons_append, splitAtByte, if_pos (by omega)]
    rw [show n + 1 - (String.utf8EncodeChar c).length = (asBytes a).length by omega, ih]
    rfl

/-- The bytes `start..stop` of a text, if both are character boundaries. -/
def slice (t : List Char) (start stop : ℕ) : Option (List Char) := do
  let (_, t) ← splitAtByte t start
  let (a, _) ← if start ≤ stop then splitAtByte t (stop - start) else none
  pure a

theorem slice_append (a b c : List Char) :
    slice (a ++ (b ++ c)) (asBytes a).length (asBytes (a ++ b)).length = some b := by
  simp [slice, splitAtByte_append]

/-- The offset of the first `x` that is followed by `y`. -/
def findPair (x y : Char) : List Char → Option ℕ
  | c :: d :: t =>
    if c = x ∧ d = y then some 0
    else (findPair x y (d :: t)).map (· + (String.utf8EncodeChar c).length)
  | _ => none

end Unicode
