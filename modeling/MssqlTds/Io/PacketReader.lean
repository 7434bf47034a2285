import MssqlTds.Error
import MssqlTds.Lib.Reader

/-!
# Reading a message

The reads a decoder makes, on the bytes of a message that are still to be read.  A decoder first
asks for a value that is already buffered and then awaits it; on the byte queue both are one read.
-/

namespace MssqlTds

open Bytes Reader

/-- A decoder's computation. -/
abbrev TdsReader := Reader Error

def pastEndOfMessageError (outstanding available : ℕ) : Error := .protocolError
  (s!"TDS read extends past the end of the message: {outstanding} more byte(s) required " ++
    s!"but only {available} remain in the final packet of the message.")

def readByte : TdsReader UInt8 := u8 pastEndOfMessageError

def readInt16 : TdsReader Int16 := i16 pastEndOfMessageError

def readUint16 : TdsReader UInt16 := u16 pastEndOfMessageError

def readUint24 : TdsReader UInt24 := u24 pastEndOfMessageError

def readInt32 : TdsReader Int32 := i32 pastEndOfMessageError

def readUint32 : TdsReader UInt32 := u32 pastEndOfMessageError

def readUint40 : TdsReader UInt64 := u40 pastEndOfMessageError

def readInt64 : TdsReader Int64 := i64 pastEndOfMessageError

/-- The bits of a single-precision float. -/
def readFloat32 : TdsReader UInt32 := u32 pastEndOfMessageError

/-- The bits of a double-precision float. -/
def readFloat64 : TdsReader UInt64 := u64 pastEndOfMessageError

def readBytes (n : ℕ) : TdsReader (List UInt8) := take pastEndOfMessageError n

def skipBytes (n : ℕ) : TdsReader Unit := (fun _ => ()) <$> take pastEndOfMessageError n

/-- Pass on the result of a pure computation. -/
def liftReader {α : Type} : TdsResult α → TdsReader α
  | .ok a => pure a
  | .error e => throw e

@[simp] theorem liftReader_ok {α : Type} (a : α) : liftReader (.ok a) = pure a := rfl

/-! ### Reading one encoding -/

theorem reads_readByte (v : UInt8) : Reads readByte [v] v := reads_u8 _ v

theorem reads_readInt16 (v : Int16) : Reads readInt16 (leBytes 2 v.toUInt16.toNat) v :=
  reads_i16 _ v

theorem reads_readUint16 (n : ℕ) : Reads readUint16 (leBytes 2 n) (UInt16.ofNat n) := reads_u16 _ n

theorem reads_readUint24 (n : ℕ) : Reads readUint24 (leBytes 3 n) (UInt24.ofNat n) := reads_u24 _ n

theorem reads_readInt32 (v : Int32) : Reads readInt32 (leBytes 4 v.toUInt32.toNat) v :=
  reads_i32 _ v

theorem reads_readUint32 (n : ℕ) : Reads readUint32 (leBytes 4 n) (UInt32.ofNat n) := reads_u32 _ n

theorem reads_readUint40 (n : ℕ) :
    Reads readUint40 (leBytes 5 n) (UInt64.ofNat (n % 256 ^ 5)) := reads_u40 _ n

theorem reads_readInt64 (v : Int64) : Reads readInt64 (leBytes 8 v.toUInt64.toNat) v :=
  reads_i64 _ v

theorem reads_readFloat32 (bits : UInt32) : Reads readFloat32 (leBytes 4 bits.toNat) bits := by
  have h := reads_u32 pastEndOfMessageError bits.toNat
  rwa [UInt32.ofNat_toNat] at h

theorem reads_readFloat64 (bits : UInt64) : Reads readFloat64 (leBytes 8 bits.toNat) bits := by
  have h := reads_u64 pastEndOfMessageError bits.toNat
  rwa [UInt64.ofNat_toNat] at h

variable {bs : List UInt8}

theorem reads_readBytes {n : ℕ} (h : bs.length = n) : Reads (readBytes n) bs bs :=
  reads_take _ h

theorem reads_skipBytes {n : ℕ} (h : bs.length = n) : Reads (skipBytes n) bs () :=
  (reads_take _ h).map _

/-! ### What a read has taken -/

variable {q r : List UInt8}

theorem readBytes_eq_ok {n : ℕ} :
    readBytes n q = .ok (bs, r) ↔ q = bs ++ r ∧ bs.length = n := take_eq_ok

theorem readUint32_eq_ok {v : UInt32} :
    readUint32 q = .ok (v, r) ↔ q = leBytes 4 v.toNat ++ r := by
  constructor
  · intro h
    obtain ⟨n, hn, rfl⟩ := map_eq_ok.mp h
    obtain ⟨rfl, hlt⟩ := le_eq_ok.mp hn
    rw [UInt32.toNat_ofNat', Nat.mod_eq_of_lt (show n < 2 ^ 32 from hlt)]
  · rintro rfl
    rw [reads_readUint32, UInt32.ofNat_toNat]

theorem readInt64_eq_ok {v : Int64} :
    readInt64 q = .ok (v, r) ↔ q = leBytes 8 v.toUInt64.toNat ++ r := by
  constructor
  · intro h
    obtain ⟨u, hu, rfl⟩ := map_eq_ok.mp h
    obtain ⟨n, hn, rfl⟩ := map_eq_ok.mp hu
    obtain ⟨rfl, hlt⟩ := le_eq_ok.mp hn
    rw [UInt64.toUInt64_toInt64, UInt64.toNat_ofNat', Nat.mod_eq_of_lt (show n < 2 ^ 64 from hlt)]
  · rintro rfl
    exact reads_readInt64 v r

end MssqlTds
