import MssqlTds.Io.PacketReader
import MssqlTds.Lib.Unicode

/-!
# Reading counted strings

Names in the token stream are UTF-16 behind a count of their code units.  Text that is not
well-formed UTF-16 is an error.
-/

namespace MssqlTds

open Bytes Reader Unicode

/-- The text that UTF-16 code units spell, if they are well formed.  Decoding replaces a surrogate
that stands alone, and the replacement does not encode back to it. -/
def fromUtf16 (units : List UInt16) : Option (List Char) :=
  if utf16Units (decodeUnits units) = units then some (decodeUnits units) else none

theorem fromUtf16_utf16Units (t : List Char) : fromUtf16 (utf16Units t) = some t := by
  rw [fromUtf16, decodeUnits_utf16Units, if_pos rfl]

def readUnicodeWithByteLength (byteLength : ℕ) : TdsReader String := do
  let bytes ← readBytes byteLength
  match fromUtf16 (ofUnitsLe bytes).1 with
  | some text => pure (String.ofList text)
  | none => throw (.io "invalid utf-16: lone surrogate found")

/-- Text of a number of UTF-16 units. -/
def readUnicode (stringLength : ℕ) : TdsReader String :=
  readUnicodeWithByteLength (stringLength * 2)

def readVarcharU8Length : TdsReader String := do
  let length ← readByte
  readUnicodeWithByteLength (length.toNat * 2)

/-- A length of all ones says that there is no text. -/
def readVarcharU16Length : TdsReader (Option String) := do
  let length ← readUint16
  if length = 0xFFFF then pure none
  else some <$> readUnicodeWithByteLength (length.toNat * 2)

/-- The bytes of a text behind a one-byte count of its UTF-16 units. -/
def bVarchar (text : String) : List UInt8 :=
  UInt8.ofNat (utf16Units text.toList).length :: utf16le text.toList

theorem reads_readUnicode (text : String) {n : ℕ} (h : (utf16Units text.toList).length = n) :
    Reads (readUnicodeWithByteLength (n * 2)) (utf16le text.toList) text := by
  have hlength : (utf16le text.toList).length = n * 2 := by
    rw [utf16le, length_unitsLe, h, Nat.mul_comm]
  refine (reads_readBytes hlength).bind_pure ?_
  rw [utf16le, ofUnitsLe_unitsLe, fromUtf16_utf16Units]
  simp only [String.ofList_toList]

theorem toNat_unitCount {text : String} (h : (utf16Units text.toList).length ≤ 255) :
    (UInt8.ofNat (utf16Units text.toList).length).toNat = (utf16Units text.toList).length := by
  rw [UInt8.toNat_ofNat', Nat.mod_eq_of_lt (by omega)]

theorem reads_readVarcharU8Length {text : String}
    (h : (utf16Units text.toList).length ≤ 255) :
    Reads readVarcharU8Length (bVarchar text) text := by
  refine (reads_readByte _).bind ?_
  rw [toNat_unitCount h]
  exact reads_readUnicode text rfl

end MssqlTds
