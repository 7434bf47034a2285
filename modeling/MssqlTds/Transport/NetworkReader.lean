import MssqlTds.Io.MessageFraming
import MssqlTds.Io.PacketReader
import MssqlTds.Transport.ReadBuffer

/-!
# Reading packets from the network

The transport appends packets to its read buffer and hands their payload to the decoders, through
scalar readers, which wait until a whole value is buffered, and bulk readers, which take what there
is.  A packet is received in as many network reads as it takes: `ReadPoll` is the outcome of one,
and a `ready` one brings a part of the bytes on the wire that is not larger than the room in the
buffer.

The awaiting refill polls until the packet is complete.  The non-blocking refill gives up at the
first poll that is not ready and parks what it has received.
-/

namespace MssqlTds

open Bytes PacketWriter

inductive ReadPoll where
  | pending
  /-- At most `limit + 1` bytes come in. -/
  | ready (limit : ℕ)
  | failed (message : String)
  deriving DecidableEq, Repr

structure NetworkTransport extends TdsReadBuffer where
  /-- The stream has not been dropped. -/
  connected : Bool
  /-- What the peer has sent and the transport not received; at the end of it the peer closes. -/
  wire : List UInt8
  /-- The outcomes of the polls to come.  After the last one the caller drops the future. -/
  polls : List ReadPoll
  knownDead : Bool
  deriving DecidableEq, Repr

abbrev TransportM := EStateM Error NetworkTransport

namespace NetworkTransport

def onBuffer {α : Type} (f : TdsReadBuffer → TdsResult (α × TdsReadBuffer)) : TransportM α :=
  fun t =>
    match f t.toTdsReadBuffer with
    | .ok (a, b) => .ok a { t with toTdsReadBuffer := b }
    | .error e => .error e t

def changeBuffer (f : TdsReadBuffer → TdsResult TdsReadBuffer) : TransportM Unit :=
  onBuffer fun b => (fun b' => ((), b')) <$> f b

end NetworkTransport

/-! ### Receiving a packet -/

namespace TdsReadBuffer

variable (b : TdsReadBuffer)

/-- Move the raw bytes to where the next packet goes, and say how many there are. -/
def movePendingPacketBytes (baseOffset : ℕ) : TdsResult (ℕ × TdsReadBuffer) :=
  let bytesAvailable := b.pendingBytes
  let pendingOffset := b.pendingBytesOffset
  if bytesAvailable > 0 then
    let srcEnd := pendingOffset + bytesAvailable
    let destEnd := baseOffset + bytesAvailable
    let bufferLen := b.workingBuffer.length
    if srcEnd > bufferLen ∨ destEnd > bufferLen then
      .error (.protocolError
        (s!"Invalid pending bytes range: src {pendingOffset}..{srcEnd}, " ++
          s!"dest {baseOffset}, buffer_len {bufferLen}"))
    else
      (fun moved => (bytesAvailable, { moved with pendingBytes := 0, pendingBytesOffset := 0 })) <$>
        b.copyWithin pendingOffset srcEnd baseOffset
  else .ok (0, b)

def payloadFreeError : Error :=
  .protocolError "Received a payload-free TDS packet that is not end-of-message"

/-- Finalize a packet that is there in full: its status, and the raw bytes behind it. -/
def finalizePacket (baseOffset bytesAvailable packetSize : ℕ) (isEndOfMessage : Bool) :
    TdsReadBuffer :=
  let extraBytes := bytesAvailable - packetSize
  { b with
    endOfMessage := isEndOfMessage
    pendingBytes := extraBytes
    pendingBytesOffset := if extraBytes > 0 then baseOffset + packetSize else 0 }

def checkPacketSize (baseOffset packetSize : ℕ) : TdsResult Unit :=
  if packetSize < packetHeaderSize then
    .error (.protocolError
      (s!"Invalid TDS packet length {packetSize}: must be at least {packetHeaderSize} bytes " ++
        "(header size)"))
  else if packetSize > b.maxPacketSize then
    .error (.protocolError
      (s!"TDS packet length {packetSize} exceeds negotiated max packet size " ++
        s!"{b.maxPacketSize}"))
  else if baseOffset + packetSize > b.workingBuffer.length then
    .error (.protocolError
      (s!"TDS packet length {packetSize} at offset {baseOffset} exceeds buffer capacity " ++
        s!"{b.workingBuffer.length}"))
  else .ok ()

/-- The size of the packet at `baseOffset` if the bytes available cover it. -/
def completeTdsPacketIfAvailable (baseOffset bytesAvailable : ℕ) :
    TdsResult (Option ℕ × TdsReadBuffer) :=
  if bytesAvailable < packetHeaderSize then .ok (none, b)
  else do
    let lengthFromPacketHeader ← b.slice (baseOffset + 2) (baseOffset + 4)
    let packetSize := ofBe lengthFromPacketHeader
    b.checkPacketSize baseOffset packetSize
    if bytesAvailable < packetSize then .ok (none, b)
    else do
      let status ← b.slice (baseOffset + 1) (baseOffset + 2)
      let isEndOfMessage : Bool := status.headD 0 &&& PacketStatusFlags.eom.bits ≠ 0
      if packetSize = packetHeaderSize ∧ isEndOfMessage = false then .error payloadFreeError
      else .ok (some packetSize,
        b.finalizePacket baseOffset bytesAvailable packetSize isEndOfMessage)

/-- Keep what has been received of a packet for the next refill. -/
def parkPartialPacket (baseOffset bytesAvailable : ℕ) : TdsReadBuffer :=
  { b with pendingBytes := bytesAvailable, pendingBytesOffset := baseOffset }

end TdsReadBuffer

namespace NetworkTransport

/-- Poll the stream for a read into `working_buffer[offset..]`: nothing yet, or the number of bytes.
-/
def pollRead (offset : ℕ) : TransportM (Option ℕ) := do
  let t ← get
  if t.connected = false then
    throw (.connectionClosed "Cannot read TDS packet: connection has been closed")
  else if offset > t.workingBuffer.length then throw (.panic "range out of bounds")
  else
    match t.polls with
    | [] => throw .dropped
    | .pending :: polls =>
      set { t with polls := polls }
      pure none
    | .failed message :: polls =>
      set { t with polls := polls, knownDead := true }
      throw (.io message)
    | .ready limit :: polls =>
      let bytes := t.wire.take (min (limit + 1) (t.workingBuffer.length - offset))
      set { t with polls := polls
                   wire := t.wire.drop bytes.length
                   workingBuffer := t.workingBuffer.overwrite offset bytes }
      pure (some bytes.length)

/-- The peer closed the connection in the middle of a packet. -/
def closedError (bytesAvailable : ℕ) : Error :=
  let part := if bytesAvailable < packetHeaderSize then "header" else "payload"
  .connectionClosed s!"Connection closed by server while reading TDS packet {part}"

/-- Receive the rest of the packet at `baseOffset`.  A poll that is not ready is polled again if the
call awaits, and otherwise ends it.  Every round takes a poll. -/
def receivePacket (awaits : Bool) (baseOffset : ℕ) : ℕ → ℕ → TransportM (Option ℕ)
  | 0, _ => throw .outOfFuel
  | fuel + 1, bytesAvailable => do
    match ← onBuffer fun b => b.completeTdsPacketIfAvailable baseOffset bytesAvailable with
    | some packetSize => pure (some packetSize)
    | none =>
      match ← pollRead (baseOffset + bytesAvailable) with
      | none =>
        if awaits then receivePacket awaits baseOffset fuel bytesAvailable
        else
          changeBuffer fun b => .ok (b.parkPartialPacket baseOffset bytesAvailable)
          pure none
      | some bytesRead =>
        if bytesRead = 0 then
          modify fun t => { t with knownDead := true }
          throw (closedError bytesAvailable)
        else receivePacket awaits baseOffset fuel (bytesAvailable + bytesRead)

def newTdsPacket (awaits : Bool) : TransportM (Option ℕ) := do
  let baseOffset := (← get).bufferLength
  let bytesAvailable ← onBuffer fun b => b.movePendingPacketBytes baseOffset
  receivePacket awaits baseOffset ((← get).polls.length + 1) bytesAvailable

/-- The non-blocking probe: nothing if the packet is not complete yet. -/
def tryGetNewTdsPacket : TransportM (Option ℕ) := newTdsPacket false

def getNewTdsPacket : TransportM ℕ := do
  match ← newTdsPacket true with
  | some packetSize => pure packetSize
  | none => throw .outOfFuel

/-- Make room for a packet behind the bytes to read. -/
def makeRoom : TransportM Unit :=
  changeBuffer fun b =>
    if b.getRemainingByteCount > 0 then b.shiftDataToFront else .ok (b.resetToLength 0)

def readTdsPacket : TransportM Unit := do
  makeRoom
  let newPacketSize ← getNewTdsPacket
  changeBuffer fun b => b.removeHeaderFromPacket newPacketSize

/-- Append one more packet without waiting.  `false` is not ready: the message is over, the packet
might not fit beside the bytes to read, or it is not complete. -/
def tryReadTdsPacket : TransportM Bool := do
  let t ← get
  if t.endOfMessage then pure false
  else if t.getRemainingByteCount + t.maxPacketSize > t.workingBuffer.length then pure false
  else do
    makeRoom
    match ← tryGetNewTdsPacket with
    | none => pure false
    | some newPacketSize =>
      changeBuffer fun b => b.removeHeaderFromPacket newPacketSize
      pure true

/-! ### The readers -/

/-- The value has started, and its message ends before the value does. -/
def valueTruncatedByMessageEnd (t : NetworkTransport) (consumedAny : Bool) (needed : ℕ) : Bool :=
  (consumedAny || t.getRemainingByteCount > 0) &&
    (t.endOfMessage && needed > t.getRemainingByteCount)

def refillFor (needed : ℕ) : TransportM Unit := do
  let t ← get
  if t.valueTruncatedByMessageEnd false needed then
    throw (pastEndOfMessageError needed t.getRemainingByteCount)
  else readTdsPacket

/-- Refill until `width` bytes are buffered, and take them.  A refill takes raw bytes, so those
there are bound the rounds. -/
def readArrayLoop (width : ℕ) : ℕ → TransportM (List UInt8)
  | 0 => throw .outOfFuel
  | fuel + 1 => do
    match ← onBuffer fun b => b.tryReadArray width with
    | some bytes => pure bytes
    | none =>
      refillFor width
      readArrayLoop width fuel

def readArray (width : ℕ) : TransportM (List UInt8) := do
  let t ← get
  readArrayLoop width (t.pendingBytes + t.wire.length + 2)

def maxConsecutiveEmptyMessages : ℕ := 1

def stalledOnEmptyMessagesError (outstanding : ℕ) : Error := .protocolError
  (s!"TDS read stalled: {outstanding} more byte(s) required but the peer sent " ++
    s!"{maxConsecutiveEmptyMessages + 1} consecutive payload-free end-of-message packets " ++
    "without advancing.")

def noProgressError (outstanding : ℕ) : Error := .protocolError
  (s!"TDS read made no progress: {outstanding} more byte(s) required but the packet " ++
    "carried no payload. The value extends past the end of the message.")

/-- Refill if the buffer does not have `wanted` bytes. -/
def refillBelow (wanted : ℕ) : TransportM Unit := do
  if !(← get).doWeHaveEnoughData wanted then readTdsPacket

/-- Take what there is of a value of which `taken` bytes are read and `lengthToRead` are not.  There
is nothing to take in a payload-free packet that ends a message before the value starts. -/
def takeAvailable (taken lengthToRead emptyMessages : ℕ) : TransportM (List UInt8) := do
  let t ← get
  let available := t.getRemainingByteCount
  let toRead := min available (min lengthToRead (t.maxPacketSize - 8))
  if toRead = 0 then
    if t.endOfMessage = false then throw (noProgressError lengthToRead)
    else if taken > 0 then throw (pastEndOfMessageError lengthToRead available)
    else if emptyMessages + 1 > maxConsecutiveEmptyMessages then
      throw (stalledOnEmptyMessagesError lengthToRead)
    else pure []
  else do
    let bytes ← onBuffer fun b => (·, b) <$> b.slice b.bufferPosition (b.bufferPosition + toRead)
    changeBuffer fun b => b.consumeBytes toRead
    pure bytes

/-- One round of a bulk read: the bytes it takes. -/
def bulkRound (window : ℕ) (taken lengthToRead emptyMessages : ℕ) : TransportM (List UInt8) := do
  let t ← get
  if t.valueTruncatedByMessageEnd (taken > 0) lengthToRead then
    throw (pastEndOfMessageError lengthToRead t.getRemainingByteCount)
  else do
    refillBelow (min window lengthToRead)
    takeAvailable taken lengthToRead emptyMessages

/-- Rounds until nothing is left to read.  A round that takes nothing is an empty message, of which
there is at most one. -/
def bulkLoop (window : ℕ) : ℕ → List UInt8 → ℕ → ℕ → TransportM (List UInt8)
  | _, taken, 0, _ => pure taken
  | 0, _, _ + 1, _ => throw .outOfFuel
  | fuel + 1, taken, lengthToRead + 1, emptyMessages => do
    let bytes ← bulkRound window taken.length (lengthToRead + 1) emptyMessages
    let emptyMessages := if bytes = [] then emptyMessages + 1 else emptyMessages
    bulkLoop window fuel (taken ++ bytes) (lengthToRead + 1 - bytes.length) emptyMessages

/-- Fill a slice of `length` bytes. -/
def readBytes (length : ℕ) : TransportM (List UInt8) := do
  let window := (← get).maxPacketSize
  bulkLoop window (length + 1) [] length 0

/-- The bytes that `skipBytes` passes over. -/
def skippedBytes (skipCount : ℕ) : TransportM (List UInt8) := do
  let window := (← get).maxPacketSize - 8
  bulkLoop window (skipCount + 1) [] skipCount 0

def skipBytes (skipCount : ℕ) : TransportM Unit := (fun _ => ()) <$> skippedBytes skipCount

end NetworkTransport

end MssqlTds
