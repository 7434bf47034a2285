import MssqlTds.Io.PacketReader

/-!
# Partially length-prefixed values

A value of a `MAX` type comes as a length prefix and a sequence of chunks, each behind its own
length, up to an empty one.  The prefix is the total length, or says that the value is `NULL` or
that its length is not known.  `readPlpBytes` reads a whole value into a buffer.
-/

namespace MssqlTds

open Bytes Reader

/-- Largest partially length-prefixed value. -/
def maxPlpSize : ℕ := 2 ^ 31 - 1

/-- Largest chunk of such a value. -/
def maxPlpChunkSize : ℕ := 16 * 1024 * 1024

namespace GenericDecoder

/-- How the payload of a value is framed. -/
inductive PlpFraming where
  | null
  | known (length : ℕ)
  | unknown
  deriving DecidableEq, Repr

def sqlPlpNull : UInt64 := 0xFFFFFFFFFFFFFFFF

def sqlPlpUnknownLen : UInt64 := 0xFFFFFFFFFFFFFFFE

def plpTooLong (length : Int64) : Error := .protocolError
  (s!"PLP length {length.toUInt64} (raw i64: {length}) exceeds maximum allowed size of " ++
    s!"{maxPlpSize} bytes")

def plpChunkTooLong (chunkLen : ℕ) : Error := .protocolError
  (s!"PLP chunk size {chunkLen} exceeds maximum allowed chunk size of " ++
    s!"{maxPlpChunkSize} bytes")

def plpTotalTooLong (totalLen : ℕ) : Error := .protocolError
  (s!"PLP accumulated size {totalLen} exceeds maximum allowed size of {maxPlpSize} bytes " ++
    "(SQL Server limit: 2GB)")

def plpPastDeclared (offset chunkLen declaredLen : ℕ) : Error := .protocolError
  (s!"PLP chunk exceeds wire-declared length: offset={offset}, chunk_len={chunkLen}, " ++
    s!"wire_declared_len={declaredLen}, destination_len={declaredLen}")

/-- The length prefix of a value. -/
def readPlpFraming : TdsReader PlpFraming := do
  let longLen ← readInt64
  if longLen.toUInt64 = sqlPlpNull then pure .null
  else if longLen.toUInt64 = sqlPlpUnknownLen then pure .unknown
  else if longLen < 0 ∨ longLen.toUInt64.toNat > maxPlpSize then throw (plpTooLong longLen)
  else pure (.known longLen.toUInt64.toNat)

def checkPlpChunk (chunkLen : ℕ) : TdsReader Unit :=
  if chunkLen > maxPlpChunkSize then throw (plpChunkTooLong chunkLen) else pure ()

/-- The chunks after a header of `chunkLen`, appended to `plpBuffer`. -/
def unknownLenLoop : ℕ → ℕ → List UInt8 → TdsReader (List UInt8)
  | 0, _, _ => throw .outOfFuel
  | fuel + 1, chunkLen, plpBuffer =>
    if chunkLen = 0 then pure plpBuffer
    else do
      checkPlpChunk chunkLen
      let totalLen := plpBuffer.length + chunkLen
      if totalLen > maxPlpSize then throw (plpTotalTooLong totalLen)
      else do
        let bytes ← readBytes chunkLen
        let next ← readUint32
        unknownLenLoop fuel next.toNat (plpBuffer ++ bytes)

/-- Every chunk takes bytes off the message, so its length bounds the loop. -/
def readPlpChunksUnknownLen : TdsReader (List UInt8) := do
  let chunkLen ← readUint32
  let queue ← get
  unknownLenLoop (queue.length + 1) chunkLen.toNat []

/-- The chunks after a header of `chunkLen`, written behind `dest`, of `declaredLen` in all.  What
the chunks leave of the destination is zero-filled. -/
def intoSliceLoop (declaredLen : ℕ) : ℕ → ℕ → List UInt8 → TdsReader (List UInt8)
  | 0, _, _ => throw .outOfFuel
  | fuel + 1, chunkLen, dest =>
    if chunkLen = 0 then pure (dest ++ List.replicate (declaredLen - dest.length) 0)
    else do
      checkPlpChunk chunkLen
      if dest.length + chunkLen > declaredLen then
        throw (plpPastDeclared dest.length chunkLen declaredLen)
      else do
        let bytes ← readBytes chunkLen
        let next ← readUint32
        intoSliceLoop declaredLen fuel next.toNat (dest ++ bytes)

def readPlpChunksIntoSlice (declaredLen : ℕ) : TdsReader (List UInt8) := do
  let chunkLen ← readUint32
  let queue ← get
  intoSliceLoop declaredLen (queue.length + 1) chunkLen.toNat []

/-- A whole value, or `none` for `NULL`. -/
def readPlpBytes : TdsReader (Option (List UInt8)) := do
  match ← readPlpFraming with
  | .null => pure none
  | .known length => some <$> readPlpChunksIntoSlice length
  | .unknown => some <$> readPlpChunksUnknownLen

end GenericDecoder

end MssqlTds
