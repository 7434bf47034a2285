import MssqlTds.Error
import MssqlTds.Datatypes.CodePages

/-!
# Encoded strings

A `SqlString` is a byte string with the encoding its bytes are in.  The OEM code pages have a codec
of their own; `Codecs` is what the driver uses of the character encoding library that has the other
encodings, and every function below takes it as a parameter.

`encodeNarrow` and `encodeNarrowForWire` turn text into the bytes of a collation's code page,
replacing what the code page lacks by question marks, one for each UTF-16 unit.
-/

namespace MssqlTds

open Unicode

inductive EncodingType where
  | utf8
  | utf16
  /-- The encoding a collation selects. -/
  | lcidBased (collation : SqlCollation)
  /-- Not known before the connection's collation is. -/
  | delayedSet
  deriving DecidableEq, Repr

/-- Encoded string value of a character column. -/
structure SqlString where
  bytes : List UInt8
  encodingType : EncodingType
  /-- Byte limit to enforce after encoding for a narrow column. -/
  narrowStringByteLimit : Option ℕ
  deriving DecidableEq, Repr

/-- The character encoding library and the half-precision conversions. -/
structure Codecs where
  /-- Encoded bytes, the encoding used, and whether a character was unmappable. -/
  encodeRs : Encoding → List Char → List UInt8 × Encoding × Bool
  decodeRs : Encoding → List UInt8 → List Char
  /-- Decode little-endian UTF-16, replacing what is malformed. -/
  decodeUtf16 : List UInt8 → List Char
  /-- The standard library's message for malformed UTF-8. -/
  utf8Error : List UInt8 → String
  /-- Bits of the half-precision float nearest to a single-precision one. -/
  f16FromF32 : UInt32 → UInt16
  /-- Bits of a half-precision float widened to single precision. -/
  f16ToF32 : UInt16 → UInt32
  /-- UTF-8 has every character. -/
  encodeRs_utf8 : ∀ t, encodeRs .utf8 t = (asBytes t, .utf8, false)
  /-- Well-formed UTF-16 decodes to its text. -/
  decodeUtf16_utf16le : ∀ t, decodeUtf16 (utf16le t) = t

structure NarrowEncoded where
  bytes : List UInt8
  /-- A character had no representation and was replaced. -/
  hadLoss : Bool
  deriving DecidableEq, Repr

/-- Byte substituted for a character the target encoding cannot represent. -/
def narrowSubstituteByte : UInt8 := 0x3F

/-- Substitute bytes for a character, one for each of its UTF-16 units. -/
def substitutes (c : Char) : List UInt8 :=
  List.replicate (encodeUtf16 c).length narrowSubstituteByte

/-- Apply a byte limit; only trailing spaces may be discarded. -/
def fitNarrowByteLimit (bytes : List UInt8) (maximum : ℕ) : TdsResult (List UInt8) :=
  if bytes.length ≤ maximum then .ok bytes
  else if (bytes.drop maximum).all (· == 0x20) then .ok (bytes.take maximum)
  else .error (.encodedValueTooLong bytes.length maximum)

namespace Codecs

variable (cs : Codecs)

/-- Encoded bytes, the encoding used, and whether a character was unmappable. -/
def encode : ResolvedEncoding → List Char → List UInt8 × ResolvedEncoding × Bool
  | .encodingRs encoding, text =>
    let (bytes, used, errors) := cs.encodeRs encoding text
    (bytes, .encodingRs used, errors)
  | .oem437, text => ((cp437.encode text).1, .oem437, (cp437.encode text).2)
  | .oem850, text => ((cp850.encode text).1, .oem850, (cp850.encode text).2)

def decode : ResolvedEncoding → List UInt8 → List Char
  | .encodingRs encoding, bytes => cs.decodeRs encoding bytes
  | .oem437, bytes => cp437.decode bytes
  | .oem850, bytes => cp850.decode bytes

/-- Encode character by character, replacing those the encoding lacks. -/
def substituteUnmappable (text : List Char) (encoding : ResolvedEncoding) : List UInt8 :=
  text.flatMap fun c =>
    let (bytes, _, failed) := cs.encode encoding [c]
    if failed then substitutes c else bytes

def encodeNarrowWith (text : List Char) (encoding : ResolvedEncoding) : NarrowEncoded :=
  let (encoded, encodingUsed, hadErrors) := cs.encode encoding text
  if !hadErrors then ⟨encoded, false⟩ else ⟨cs.substituteUnmappable text encodingUsed, true⟩

def encodeNarrow (text : List Char) (collation : SqlCollation) : NarrowEncoded :=
  cs.encodeNarrowWith text (resolveCollation collation)

def decodeString (bytes : List UInt8) : EncodingType → TdsResult (List Char)
  | .utf8 => match fromUtf8 bytes with
    | some text => .ok text
    | none => .error (.panic "called Result::unwrap() on an Err value: FromUtf8Error")
  | .utf16 => .ok (cs.decodeUtf16 bytes)
  | .lcidBased collation => .ok (cs.decode (resolveCollation collation) bytes)
  | .delayedSet => .error (.panic "DelayedSet encoding conversion to UTF8 not implemented")

end Codecs

/-- Latin-1: a character up to U+00FF is its own byte. -/
def encodeLatin1ForWire (text : List Char) : NarrowEncoded where
  bytes := text.flatMap fun c =>
    if c.toNat < 256 then [UInt8.ofNat c.toNat] else substitutes c
  hadLoss := text.any fun c => !(c.toNat < 256)

/-- Codecs with UTF-8, and with Latin-1 for every other encoding of the library. -/
def Codecs.latin1 : Codecs where
  encodeRs encoding text :=
    if encoding = .utf8 then (asBytes text, .utf8, false)
    else ((encodeLatin1ForWire text).bytes, encoding, (encodeLatin1ForWire text).hadLoss)
  decodeRs encoding bytes :=
    if encoding = .utf8 then (fromUtf8 bytes).getD [] else bytes.map Char.ofUInt8
  decodeUtf16 := decodeUtf16Lossy
  utf8Error _ := "invalid utf-8 sequence"
  f16FromF32 bits := UInt16.ofNat (bits.toNat / 2 ^ 16)
  f16ToF32 bits := UInt32.ofNat (bits.toNat * 2 ^ 16)
  encodeRs_utf8 _ := rfl
  decodeUtf16_utf16le := decodeUtf16Lossy_utf16le

/-- Encode text for a narrow column, as Latin-1 if no encoding is known for it. -/
def Codecs.encodeNarrowForWire (cs : Codecs) (text : List Char) (collation : Option SqlCollation) :
    NarrowEncoded :=
  match collation with
  | none => encodeLatin1ForWire text
  | some collation =>
    match tryResolveCollation collation with
    | none => encodeLatin1ForWire text
    | some resolved => cs.encodeNarrowWith text resolved

namespace SqlString

variable (s : SqlString)

/-- A string without a byte limit of its own. -/
def new (bytes : List UInt8) (encodingType : EncodingType) : SqlString :=
  ⟨bytes, encodingType, none⟩

def fromUtf8String (text : List Char) : SqlString := new (utf16le text) .utf16

def toUtf8String (cs : Codecs) : TdsResult (List Char) := cs.decodeString s.bytes s.encodingType

def asUtf16Bytes : Option (List UInt8) :=
  match s.encodingType with
  | .utf16 => some s.bytes
  | _ => none

/-- The bytes, if they go to the wire unconverted. -/
def asRawWireBytes : Option (List UInt8) :=
  match s.encodingType with
  | .delayedSet | .lcidBased _ => some s.bytes
  | _ => none

end SqlString

end MssqlTds
