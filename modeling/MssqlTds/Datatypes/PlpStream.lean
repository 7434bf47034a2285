import MssqlTds.Datatypes.Plp

/-!
# Reading a partially length-prefixed value in pieces

`PlpChunkStreamReader` keeps its place among the chunks of a value, so that a caller can take the
payload in slices of any size.  `readToEnd` is such a caller: it gives the reader one slice after
another until the value has ended.
-/

namespace MssqlTds

open Reader GenericDecoder

/-- The length a value was announced with. -/
inductive PlpChunkReadLength where
  | unknown
  | known (length : ℕ)
  deriving DecidableEq, Repr

/-- A place among the chunks of a value. -/
structure PlpChunkStreamReader where
  length : PlpChunkReadLength
  /-- Payload bytes of the current chunk that are still to be read. -/
  chunkRemaining : ℕ
  /-- The terminator has been read. -/
  reachedEnd : Bool
  totalRead : ℕ
  deriving DecidableEq, Repr

namespace PlpChunkStreamReader

/-- The prefix the stream reader takes for an unknown length. -/
def sqlPlpMaxLen : UInt64 := 0xFFFFFFFFFFFFFFFD

def new (length : PlpChunkReadLength) : PlpChunkStreamReader := ⟨length, 0, false, 0⟩

/-- Read the length prefix; `none` for `NULL`. -/
def begin : TdsReader (Option PlpChunkStreamReader) := do
  let rawLen ← readInt64
  if rawLen.toUInt64 = sqlPlpNull then pure none
  else if rawLen.toUInt64 = sqlPlpUnknownLen ∨ rawLen.toUInt64 = sqlPlpMaxLen then
    pure (some (new .unknown))
  else if rawLen < 0 ∨ rawLen.toUInt64.toNat > maxPlpSize then throw (plpTooLong rawLen)
  else pure (some (new (.known rawLen.toUInt64.toNat)))

def plpEndedEarly (totalRead knownLen : ℕ) : Error := .protocolError
  (s!"PLP stream ended before declared length was reached: total_read={totalRead}, " ++
    s!"declared_len={knownLen}")

def plpExceedsDeclared (accumulated knownLen : ℕ) : Error := .protocolError
  (s!"PLP chunk exceeds declared length: accumulated={accumulated}, declared_len={knownLen}")

variable (s : PlpChunkStreamReader)

/-- Apply the length in front of a chunk; `false` for the terminator. -/
def acceptChunkLength (chunkLen : ℕ) : TdsResult (Bool × PlpChunkStreamReader) :=
  if chunkLen = 0 then
    match s.length with
    | .known knownLen =>
      if s.totalRead ≠ knownLen then .error (plpEndedEarly s.totalRead knownLen)
      else .ok (false, { s with reachedEnd := true })
    | .unknown => .ok (false, { s with reachedEnd := true })
  else if chunkLen > maxPlpChunkSize then .error (plpChunkTooLong chunkLen)
  else if s.totalRead + chunkLen > maxPlpSize then .error (plpTotalTooLong (s.totalRead + chunkLen))
  else match s.length with
    | .known knownLen =>
      if s.totalRead + chunkLen > knownLen then
        .error (plpExceedsDeclared (s.totalRead + chunkLen) knownLen)
      else .ok (true, { s with chunkRemaining := chunkLen })
    | .unknown => .ok (true, { s with chunkRemaining := chunkLen })

/-- Read the next chunk's length if the current chunk is exhausted; `false` at the end. -/
def ensureActiveChunk : TdsReader (Bool × PlpChunkStreamReader) :=
  if s.reachedEnd then pure (false, s)
  else if s.chunkRemaining > 0 then pure (true, s)
  else do
    let chunkLen ← readUint32
    liftReader (s.acceptChunkLength chunkLen.toNat)

/-- The place after `n` more bytes of the current chunk. -/
def advance (n : ℕ) : PlpChunkStreamReader :=
  { s with chunkRemaining := s.chunkRemaining - n, totalRead := s.totalRead + n }

/-- Fill the `room` that is left in the caller's slice behind `out`.  Every round reads a byte, so
the room is fuel enough. -/
def readIntoLoop : ℕ → PlpChunkStreamReader → ℕ → List UInt8 →
    TdsReader (List UInt8 × PlpChunkStreamReader)
  | 0, s, _, out => pure (out, s)
  | fuel + 1, s, room, out =>
    if room = 0 then pure (out, s)
    else do
      let (active, s) ← s.ensureActiveChunk
      if !active then pure (out, s)
      else do
        let toRead := min room s.chunkRemaining
        let bytes ← readBytes toRead
        readIntoLoop fuel (s.advance toRead) (room - toRead) (out ++ bytes)

/-- Read into a slice of `outLen` bytes.  A slice that is filled at the end of a chunk also takes
the next chunk's length, which may be the terminator. -/
def readInto (outLen : ℕ) : TdsReader (List UInt8 × PlpChunkStreamReader) :=
  if outLen = 0 then do
    let (_, s) ← s.ensureActiveChunk
    pure ([], s)
  else do
    let (out, s) ← readIntoLoop outLen s outLen []
    if out.length = outLen ∧ s.chunkRemaining = 0 ∧ s.reachedEnd = false then do
      let (_, s) ← s.ensureActiveChunk
      pure (out, s)
    else pure (out, s)

/-- Read into slices of the given sizes, from the `i`-th on, until the end. -/
def readSlices (sizes : ℕ → ℕ) : ℕ → ℕ → PlpChunkStreamReader → List UInt8 →
    TdsReader (List UInt8)
  | 0, _, _, _ => throw .outOfFuel
  | fuel + 1, i, s, read =>
    if s.reachedEnd then pure read
    else do
      let (out, s) ← s.readInto (sizes i)
      readSlices sizes fuel (i + 1) s (read ++ out)

/-- A whole value in slices of the given sizes, or `none` for `NULL`.  Every slice but the last
takes bytes off the message, so its length bounds the number of slices. -/
def readToEnd (sizes : ℕ → ℕ) : TdsReader (Option (List UInt8)) := do
  match ← begin with
  | none => pure none
  | some s => do
    let queue ← get
    some <$> readSlices sizes (queue.length + 1) 0 s []

/-- The chunks up to the terminator, skipped. -/
def skipToEndLoop : ℕ → PlpChunkStreamReader → TdsReader PlpChunkStreamReader
  | 0, _ => throw .outOfFuel
  | fuel + 1, s => do
    let (active, s) ← s.ensureActiveChunk
    if !active then pure s
    else do
      skipBytes s.chunkRemaining
      skipToEndLoop fuel (s.advance s.chunkRemaining)

def skipToEnd : TdsReader PlpChunkStreamReader := do
  let queue ← get
  skipToEndLoop (queue.length + 1) s

end PlpChunkStreamReader

end MssqlTds
