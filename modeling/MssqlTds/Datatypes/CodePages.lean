import MssqlTds.Lib.Unicode
import Mathlib.Data.List.Basic

/-!
# Code pages and collations

A narrow wire encoding is one of the character encoding library, or one of two OEM code pages that
the library lacks; for these the driver has tables and a codec of its own.  A collation names its
encoding by its UTF-8 flag, else by its sort ID, else by its locale (`tryResolveCollation`).

What a code page encodes without loss it decodes to the same text (`CodePage.oem_roundTrip`).
-/

namespace MssqlTds

open Unicode List

/-! ### OEM code pages -/

/-- A code page that extends ASCII. -/
structure CodePage where
  /-- The characters of the bytes from 0x80. -/
  upper : List Char
  length_upper : upper.length = 128
  /-- They take one UTF-16 unit each. -/
  range : upper.all (·.toNat < 0x10000) = true

/-- OEM United States. -/
def cp437 : CodePage where
  upper := [
    'Ç', 'ü', 'é', 'â', 'ä', 'à', 'å', 'ç', 'ê', 'ë', 'è', 'ï', 'î', 'ì', 'Ä', 'Å',
    'É', 'æ', 'Æ', 'ô', 'ö', 'ò', 'û', 'ù', 'ÿ', 'Ö', 'Ü', '¢', '£', '¥', '₧', 'ƒ',
    'á', 'í', 'ó', 'ú', 'ñ', 'Ñ', 'ª', 'º', '¿', '⌐', '¬', '½', '¼', '¡', '«', '»',
    '░', '▒', '▓', '│', '┤', '╡', '╢', '╖', '╕', '╣', '║', '╗', '╝', '╜', '╛', '┐',
    '└', '┴', '┬', '├', '─', '┼', '╞', '╟', '╚', '╔', '╩', '╦', '╠', '═', '╬', '╧',
    '╨', '╤', '╥', '╙', '╘', '╒', '╓', '╫', '╪', '┘', '┌', '█', '▄', '▌', '▐', '▀',
    'α', 'ß', 'Γ', 'π', 'Σ', 'σ', 'µ', 'τ', 'Φ', 'Θ', 'Ω', 'δ', '∞', 'φ', 'ε', '∩',
    '≡', '±', '≥', '≤', '⌠', '⌡', '÷', '≈', '°', '∙', '·', '√', 'ⁿ', '²', '■', '\u00a0']
  length_upper := rfl
  range := by decide +kernel

/-- OEM multilingual Latin. -/
def cp850 : CodePage where
  upper := [
    'Ç', 'ü', 'é', 'â', 'ä', 'à', 'å', 'ç', 'ê', 'ë', 'è', 'ï', 'î', 'ì', 'Ä', 'Å',
    'É', 'æ', 'Æ', 'ô', 'ö', 'ò', 'û', 'ù', 'ÿ', 'Ö', 'Ü', 'ø', '£', 'Ø', '×', 'ƒ',
    'á', 'í', 'ó', 'ú', 'ñ', 'Ñ', 'ª', 'º', '¿', '®', '¬', '½', '¼', '¡', '«', '»',
    '░', '▒', '▓', '│', '┤', 'Á', 'Â', 'À', '©', '╣', '║', '╗', '╝', '¢', '¥', '┐',
    '└', '┴', '┬', '├', '─', '┼', 'ã', 'Ã', '╚', '╔', '╩', '╦', '╠', '═', '╬', '¤',
    'ð', 'Ð', 'Ê', 'Ë', 'È', 'ı', 'Í', 'Î', 'Ï', '┘', '┌', '█', '▄', '¦', 'Ì', '▀',
    'Ó', 'ß', 'Ô', 'Ò', 'õ', 'Õ', 'µ', 'þ', 'Þ', 'Ú', 'Û', 'Ù', 'ý', 'Ý', '¯', '´',
    '\u00ad', '±', '‗', '¾', '¶', '§', '÷', '¸', '°', '¨', '·', '¹', '³', '²', '■', '\u00a0']
  length_upper := rfl
  range := by decide +kernel

namespace CodePage

variable (page : CodePage)

def decodeOem (byte : UInt8) : Char :=
  if h : byte < 128 then Char.ofUInt8 byte
  else page.upper.get ⟨byte.toNat - 128, by
    have := byte.toNat_lt
    have := page.length_upper
    omega⟩

/-- Decode bytes; ASCII is not looked up. -/
def decode (bytes : List UInt8) : List Char :=
  if bytes.all isAscii then bytes.map Char.ofUInt8
  else bytes.map page.decodeOem

/-- The bytes of a character, or a decimal reference to it, and whether it is unmappable. -/
def encodeChar (c : Char) : List UInt8 × Bool :=
  if c.toNat < 128 then ([UInt8.ofNat c.toNat], false)
  else match page.upper.findIdx? (· == c) with
    | some index => ([UInt8.ofNat index + 128], false)
    | none => (asBytes (['&', '#'] ++ Nat.toDigits 10 c.toNat ++ [';']), true)

/-- Encode text, and report whether a character was unmappable. -/
def encode (text : List Char) : List UInt8 × Bool :=
  if text.all (·.toNat < 128) then (asBytes text, false)
  else text.foldl (fun (bytes, errors) c =>
    (bytes ++ (page.encodeChar c).1, errors || (page.encodeChar c).2)) ([], false)

end CodePage

/-! ### Encodings -/

/-- The encodings of the library that a collation can name. -/
inductive Encoding where
  | utf8 | windows874 | shiftJis | gbk | eucKr | big5
  | windows1250 | windows1251 | windows1252 | windows1253 | windows1254 | windows1255
  | windows1256 | windows1257 | windows1258
  deriving DecidableEq, Repr

/-- A wire encoding. -/
inductive ResolvedEncoding where
  | encodingRs (encoding : Encoding)
  | oem437
  | oem850
  deriving DecidableEq, Repr

/-! ### Collations -/

structure SqlCollation where
  /-- Raw collation info: LCID, comparison flags and version. -/
  info : UInt32
  lcidLanguageId : Int32
  colFlags : UInt8
  sortId : UInt8
  deriving DecidableEq, Repr

def SqlCollation.default : SqlCollation := ⟨0, 0, 0, 0⟩

/-- The `fUTF8` flag. -/
def SqlCollation.utf8 (c : SqlCollation) : Bool := c.colFlags &&& 0x40 ≠ 0

/-- Code pages of the SQL sort IDs, as ranges of IDs. -/
def sortIdCodePages : List (UInt8 × UInt8 × ℕ) := [
    (30, 34, 437), (40, 44, 850), (49, 49, 850), (50, 54, 1252), (55, 61, 850), (71, 75, 1252),
    (80, 97, 1250), (104, 108, 1251), (112, 114, 1253), (120, 122, 1253), (124, 124, 1253),
    (128, 130, 1254), (136, 138, 1255), (144, 146, 1256), (152, 160, 1257), (183, 186, 1252),
    (192, 193, 932), (194, 195, 949), (196, 197, 950), (198, 199, 936), (200, 200, 932),
    (201, 201, 949), (202, 202, 950), (203, 203, 936), (204, 206, 874), (210, 217, 1252)]

def codePageFromSortId (id : UInt8) : Option ℕ :=
  (sortIdCodePages.find? fun (first, last, _) => first ≤ id ∧ id ≤ last).map (·.2.2)

/-- Encodings of the locales, by the default ANSI code page of each. -/
def lcidEncodings : List (Encoding × List UInt32) := [
    (.windows1252, [0x0409, 0x0809, 0x0C09, 0x1009, 0x1409, 0x1809, 0x1C09, 0x2009, 0x2409, 0x2809,
      0x2C09, 0x3009, 0x3409, 0x0407, 0x0807, 0x0C07, 0x1007, 0x1407, 0x040C, 0x080C, 0x0C0C,
      0x100C, 0x140C, 0x180C, 0x040A, 0x080A, 0x0C0A, 0x100A, 0x140A, 0x180A, 0x1C0A, 0x200A,
      0x240A, 0x280A, 0x2C0A, 0x300A, 0x340A, 0x380A, 0x3C0A, 0x400A, 0x440A, 0x480A, 0x4C0A,
      0x500A, 0x0410, 0x0810, 0x0413, 0x0813, 0x0416, 0x0816, 0x041D, 0x081D, 0x0414, 0x0814,
      0x0406, 0x040B, 0x040F, 0x0438]),
    (.shiftJis, [0x0411]),
    (.gbk, [0x0804, 0x1004]),
    (.big5, [0x0404, 0x0C04, 0x1404]),
    (.eucKr, [0x0412]),
    (.windows1250, [0x0415, 0x0405, 0x040E, 0x0418, 0x041A, 0x041B, 0x0424, 0x041C]),
    (.windows1251, [0x0419, 0x0422, 0x0423, 0x0402, 0x0C1A, 0x1C1A, 0x281A, 0x042F, 0x043F, 0x0843,
      0x0444, 0x0440]),
    (.windows1253, [0x0408]),
    (.windows1254, [0x041F, 0x042C]),
    (.windows1255, [0x040D]),
    (.windows1256, [0x0401, 0x0801, 0x0C01, 0x1001, 0x1401, 0x1801, 0x1C01, 0x2001, 0x2401, 0x2801,
      0x2C01, 0x3001, 0x3401, 0x3801, 0x3C01, 0x4001, 0x0420, 0x0429]),
    (.windows1257, [0x0425, 0x0426, 0x0427]),
    (.windows1258, [0x042A]),
    (.windows874, [0x041E])]

/-- The encoding of a locale; the error for the others is dropped by every caller. -/
def lcidToEncoding (lcid : UInt32) : Option Encoding :=
  (lcidEncodings.find? (·.2.contains lcid)).map (·.1)

/-- The narrow encoding a collation names, if there is one. -/
def tryResolveCollation (collation : SqlCollation) : Option ResolvedEncoding :=
  if collation.utf8 then some (.encodingRs .utf8)
  else match codePageFromSortId collation.sortId with
    | some 437 => some .oem437
    | some 850 => some .oem850
    | some 874 => some (.encodingRs .windows874)
    | some 932 => some (.encodingRs .shiftJis)
    | some 936 => some (.encodingRs .gbk)
    | some 949 => some (.encodingRs .eucKr)
    | some 950 => some (.encodingRs .big5)
    | some 1250 => some (.encodingRs .windows1250)
    | some 1251 => some (.encodingRs .windows1251)
    | some 1252 => some (.encodingRs .windows1252)
    | some 1253 => some (.encodingRs .windows1253)
    | some 1254 => some (.encodingRs .windows1254)
    | some 1255 => some (.encodingRs .windows1255)
    | some 1256 => some (.encodingRs .windows1256)
    | some 1257 => some (.encodingRs .windows1257)
    | _ => (lcidToEncoding (collation.info &&& 0x000FFFFF)).map .encodingRs

/-- The encoding a collation selects, Windows-1252 if it names none. -/
def resolveCollation (collation : SqlCollation) : ResolvedEncoding :=
  (tryResolveCollation collation).getD (.encodingRs .windows1252)

/-! ### The codec of a code page -/

namespace CodePage

variable {page : CodePage}

theorem toNat_ofUInt8 (byte : UInt8) : (Char.ofUInt8 byte).toNat = byte.toNat :=
  UInt8.toNat_toUInt32 byte

theorem decodeOem_of_lt {byte : UInt8} (h : byte < 128) :
    page.decodeOem byte = Char.ofUInt8 byte :=
  dif_pos h

theorem decode_eq (bytes : List UInt8) : page.decode bytes = bytes.map page.decodeOem := by
  rw [decode]
  split
  · next h =>
    refine map_congr_left fun byte hbyte => (decodeOem_of_lt ?_).symm
    simpa [isAscii] using all_eq_true.mp h byte hbyte
  · rfl

/-- The loop joins the bytes of the characters, and so does the shortcut for ASCII. -/
theorem encode_eq (text : List Char) : page.encode text =
    (text.flatMap fun c => (page.encodeChar c).1, text.any fun c => (page.encodeChar c).2) := by
  rw [encode]
  split
  · next h =>
    have hchar : ∀ c ∈ text, page.encodeChar c = (String.utf8EncodeChar c, false) := by
      intro c hc
      have hlt : c.toNat < 128 := by simpa using all_eq_true.mp h c hc
      rw [encodeChar, if_pos hlt, (encode_of_lt hlt).1]
    refine Prod.ext ?_ ?_
    · exact flatMap_congr fun c hc => (congrArg Prod.fst (hchar c hc)).symm
    · exact (any_eq_false.mpr fun c hc => by simp [hchar c hc]).symm
  · have hloop (text : List Char) (bytes : List UInt8) (errors : Bool) :
        text.foldl (fun (bytes, errors) c =>
          (bytes ++ (page.encodeChar c).1, errors || (page.encodeChar c).2)) (bytes, errors) =
        (bytes ++ text.flatMap fun c => (page.encodeChar c).1,
          errors || text.any fun c => (page.encodeChar c).2) := by
      induction text generalizing bytes errors with
      | nil => simp
      | cons c text ih =>
        rw [foldl_cons, ih, flatMap_cons, any_cons, append_assoc, Bool.or_assoc]
    exact hloop text [] false

/-- The bytes from 0x80 number the upper half. -/
theorem decodeOem_upper {index : ℕ} (h : index < page.upper.length) :
    page.decodeOem (UInt8.ofNat index + 128) = page.upper[index] := by
  have hlength := page.length_upper
  have hbyte : (UInt8.ofNat index + 128).toNat = index + 128 := by
    rw [UInt8.toNat_add, UInt8.toNat_ofNat', show (128 : UInt8).toNat = 128 from rfl]
    omega
  have hupper : ¬ UInt8.ofNat index + 128 < 128 := by
    rw [UInt8.lt_iff_toNat_lt, hbyte]
    exact Nat.not_lt.mpr (Nat.le_add_left _ _)
  rw [decodeOem, dif_neg hupper, get_eq_getElem]
  simp only [hbyte, Nat.add_sub_cancel]

/-- A character that has a byte is the character of that byte. -/
theorem decodeOem_encodeChar {c : Char} (h : (page.encodeChar c).2 = false) :
    (page.encodeChar c).1.map page.decodeOem = [c] := by
  rw [encodeChar] at h ⊢
  split at h
  · next hlt =>
    have hbyte : (UInt8.ofNat c.toNat).toNat = c.toNat := by
      rw [UInt8.toNat_ofNat', Nat.mod_eq_of_lt (by omega)]
    have hascii : UInt8.ofNat c.toNat < 128 := by
      rw [UInt8.lt_iff_toNat_lt, hbyte]
      exact hlt
    have hchar : Char.ofUInt8 (UInt8.ofNat c.toNat) = c :=
      Char.toNat_inj.mp ((toNat_ofUInt8 _).trans hbyte)
    rw [if_pos hlt, map_singleton, decodeOem_of_lt hascii, hchar]
  · next hge =>
    rw [if_neg hge]
    cases hfind : page.upper.findIdx? (· == c) with
    | none =>
      rw [hfind] at h
      cases h
    | some index =>
      obtain ⟨hupper, hc, -⟩ := findIdx?_eq_some_iff_getElem.mp hfind
      rw [map_singleton, decodeOem_upper hupper, beq_iff_eq.mp hc]

theorem length_encodeChar {c : Char} (h : (page.encodeChar c).2 = false) :
    (page.encodeChar c).1.length = 1 := by
  rw [← length_map page.decodeOem, decodeOem_encodeChar h, length_singleton]

theorem decodeOem_lt (byte : UInt8) : (page.decodeOem byte).toNat < 0x10000 := by
  rw [decodeOem]
  split
  · have := byte.toNat_lt
    rw [toNat_ofUInt8]
    omega
  · exact of_decide_eq_true (all_eq_true.mp page.range _ (get_mem _ _))

/-- Every byte decodes to one UTF-16 unit. -/
theorem length_utf16Units_decode (bytes : List UInt8) :
    (utf16Units (page.decode bytes)).length = bytes.length := by
  rw [decode_eq, length_utf16Units_of_lt, length_map]
  intro c hc
  obtain ⟨byte, -, rfl⟩ := mem_map.mp hc
  exact decodeOem_lt byte

/-- **A code page decodes what it encoded**, if it has every character of the text. -/
theorem oem_roundTrip (page : CodePage) (text : List Char) (h : (page.encode text).2 = false) :
    page.decode (page.encode text).1 = text := by
  rw [encode_eq] at h
  rw [encode_eq, decode_eq, map_flatMap]
  calc text.flatMap (fun c => (page.encodeChar c).1.map page.decodeOem)
      = text.flatMap fun c => [c] := flatMap_congr fun c hc => decodeOem_encodeChar (by
        simpa using any_eq_false.mp h c hc)
    _ = text := flatMap_singleton' text

example : cp437.encode ['a', 'é', 'Ω'] = ([0x61, 0x82, 0xEA], false) := by decide

end CodePage

end MssqlTds
