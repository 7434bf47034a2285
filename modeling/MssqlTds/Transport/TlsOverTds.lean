import MssqlTds.Io.MessageFraming
import MssqlTds.Lib.Polling
import MssqlTds.Lib.Segment

/-!
# The TLS handshake inside TDS packets

While the handshake runs, the records of the TLS engine travel as payloads of PRELOGIN packets.
`TlsOverTdsStream` sits between the engine and the connection: a read takes packet headers off the
bytes that arrive, a write puts them in front of the bytes that leave.  Both are polled, so a header
or a payload can be interrupted anywhere and is resumed by a later call.

Subtraction below zero is the panic of a build with overflow checks.
-/

namespace MssqlTds

open Bytes PacketWriter Polling

/-- A packet as its header describes it. -/
structure TdsPacket (p : List UInt8) : Prop where
  header : packetHeaderSize ≤ p.length
  length : lengthField p = p.length

def preNegotiatedPacketSize : ℕ := 4096

/-- Where a write stands in its packet. -/
structure ActiveWriteState where
  headerBytesRemaining : ℕ
  payloadBytesRemaining : ℕ
  currentPacketBytesRemaining : ℕ
  packetId : UInt8
  lastPayloadWritten : ℕ
  deriving DecidableEq, Repr

/-- A connection that frames what goes through it. -/
structure TlsOverTdsStream where
  /-- The reading half of the wrapped stream. -/
  source : Source
  /-- Its writing half. -/
  sink : Sink
  hasCompletedTlsHandshake : Bool
  remainingReadPacketPayloadLength : ℕ
  packetHeaderReceiveBytes : Option (List UInt8)
  bytesOfPacketHeaderRead : ℕ
  packetWriteBuffer : Option (List UInt8)
  writeState : Option ActiveWriteState

/-- What a poll of the framing stream gives, and the stream after it. -/
abbrev PollResult (α : Type) := Polled (Except String α) × TlsOverTdsStream

/-- Subtraction with overflow checks. -/
def checkedSub (a b : ℕ) : TdsResult ℕ :=
  if b ≤ a then .ok (a - b) else .error (.panic "attempt to subtract with overflow")

theorem checkedSub_of_le {a b : ℕ} (h : b ≤ a) : checkedSub a b = .ok (a - b) := if_pos h

theorem checkedSub_of_lt {a b : ℕ} (h : a < b) :
    checkedSub a b = .error (.panic "attempt to subtract with overflow") :=
  if_neg (Nat.not_le.mpr h)

namespace TlsOverTdsStream

/-- A stream around the given one. -/
def newWithHandshakeState (source : Source) (sink : Sink) (hasCompletedTlsHandshake : Bool) :
    TlsOverTdsStream where
  source := source
  sink := sink
  hasCompletedTlsHandshake := hasCompletedTlsHandshake
  remainingReadPacketPayloadLength := 0
  packetHeaderReceiveBytes := some (List.replicate packetHeaderSize 0)
  bytesOfPacketHeaderRead := 0
  packetWriteBuffer := some (List.replicate packetHeaderSize 0)
  writeState := none

def new (source : Source) (sink : Sink) : TlsOverTdsStream :=
  newWithHandshakeState source sink true

/-- From here on, bytes travel in packets. -/
def tlsHandshakeStarting (s : TlsOverTdsStream) : TlsOverTdsStream :=
  { s with hasCompletedTlsHandshake := false }

/-! ### Reading -/

/-- Read from the payload of the current packet. -/
def readRequested (s : TlsOverTdsStream) (remaining : ℕ) : TdsResult (PollResult (List UInt8)) :=
  let wantedCount := min remaining s.remainingReadPacketPayloadLength
  match s.source.pollRead wantedCount with
  | (.ready (.error e), source) => .ok (.ready (.error e), { s with source })
  | (.ready (.ok filled), source) =>
    -- the caller takes this for the end of the stream
    if filled = [] then .ok (.ready (.ok []), { s with source })
    else do
      let rest ← checkedSub s.remainingReadPacketPayloadLength filled.length
      pure (.ready (.ok filled), { s with source, remainingReadPacketPayloadLength := rest })
  | (.pending, source) => .ok (.pending, { s with source })

/-- Give the header buffer back after a poll. -/
def keepHeader (header : List UInt8) : PollResult (List UInt8) → PollResult (List UInt8)
  | (result, s) => (result, { s with packetHeaderReceiveBytes := some header })

/-- Read the header of the next packet and then from its payload. -/
def readHeader (remaining : ℕ) : ℕ → TlsOverTdsStream → List UInt8 →
    TdsResult (PollResult (List UInt8))
  | 0, _, _ => .error .outOfFuel
  | fuel + 1, s, header =>
    if packetHeaderSize ≤ s.remainingReadPacketPayloadLength then
      .error (.panic "assertion failed: self.remaining_read_packet_payload_length < 8")
    else
      -- the offset is the payload counter, although the header's own counter is the one that moves
      let offset := s.remainingReadPacketPayloadLength
      match s.source.pollRead (header.length - offset) with
      | (.ready (.error e), source) =>
          .ok (keepHeader header (.ready (.error e), { s with source }))
      | (.pending, source) => .ok (keepHeader header (.pending, { s with source }))
      | (.ready (.ok filled), source) =>
        let received := header.overwrite offset filled
        if filled = [] then .ok (keepHeader received (.ready (.ok []), { s with source }))
        else if filled.length < header.length - offset then do
          let count ← checkedSub s.bytesOfPacketHeaderRead filled.length
          readHeader remaining fuel { s with source, bytesOfPacketHeaderRead := count } received
        else if filled.length + s.bytesOfPacketHeaderRead ≠ packetHeaderSize then
          .error (.panic "assertion `left == right` failed")
        else do
          let length ← checkedSub (lengthField received) packetHeaderSize
          let result ← readRequested
            { s with
              source
              bytesOfPacketHeaderRead := 0
              remainingReadPacketPayloadLength := length
              packetHeaderReceiveBytes := some received } remaining
          pure (keepHeader received result)

/-- Read into a buffer with room for `remaining` bytes. -/
def pollRead (s : TlsOverTdsStream) (remaining : ℕ) : TdsResult (PollResult (List UInt8)) :=
  if s.hasCompletedTlsHandshake then
    let (result, source) := s.source.pollRead remaining
    .ok (result, { s with source })
  else if s.remainingReadPacketPayloadLength > 0 then s.readRequested remaining
  else match s.packetHeaderReceiveBytes with
    | none => .ok (.ready (.error "TLS packet header buffer missing"), s)
    | some header =>
      -- the loop goes on only while its counter shrinks
      readHeader remaining (s.bytesOfPacketHeaderRead + 1)
        { s with packetHeaderReceiveBytes := none } header

end TlsOverTdsStream

/-! ### Writing -/

namespace ActiveWriteState

def preloginMaxPacketSize : ℕ := preNegotiatedPacketSize - packetHeaderSize

def maxPacketSizeWithoutHeader : ℕ := preloginMaxPacketSize - packetHeaderSize

def new : ActiveWriteState where
  headerBytesRemaining := packetHeaderSize
  payloadBytesRemaining := 0
  currentPacketBytesRemaining := 0
  packetId := 0
  lastPayloadWritten := 0

/-- Begin a packet for as much of the payload as it has room for. -/
def startNextPacket (w : ActiveWriteState) (newPayloadLen : ℕ) : TdsResult ActiveWriteState :=
  if newPayloadLen = w.payloadBytesRemaining ∨ w.payloadBytesRemaining = 0 then
    .ok
      { headerBytesRemaining := packetHeaderSize
        payloadBytesRemaining := newPayloadLen
        lastPayloadWritten := 0
        currentPacketBytesRemaining := min maxPacketSizeWithoutHeader newPayloadLen
        packetId := w.packetId + 1 }
  else .error (.panic "assertion failed: new_payload_len == self.payload_bytes_remaining")

/-- Account for accepted bytes; the number of payload bytes among them. -/
def onSuccessfulWrite (w : ActiveWriteState) (bytesWritten : ℕ) :
    TdsResult (ℕ × ActiveWriteState) :=
  if w.headerBytesRemaining > 0 then
    if bytesWritten ≤ w.headerBytesRemaining then
      .ok (0, { w with
        headerBytesRemaining := w.headerBytesRemaining - bytesWritten
        lastPayloadWritten := 0 })
    else do
      let payloadWritten := bytesWritten - w.headerBytesRemaining
      let actual := min payloadWritten w.currentPacketBytesRemaining
      let payloadBytesRemaining ← checkedSub w.payloadBytesRemaining actual
      pure (actual, { w with
        headerBytesRemaining := 0
        currentPacketBytesRemaining := w.currentPacketBytesRemaining - actual
        payloadBytesRemaining
        lastPayloadWritten := actual })
  -- behind the header nothing is accounted for
  else .ok (bytesWritten, w)

def setupPreloginPacketHeader (w : ActiveWriteState) : List UInt8 :=
  buildHeader (w.currentPacketBytesRemaining + packetHeaderSize) .preLogin w.packetId
    (w.currentPacketBytesRemaining == w.payloadBytesRemaining) false .none

/-- The buffers behind the first `offset` bytes. -/
def resumeSlices : ℕ → List (List UInt8) → List (List UInt8)
  | _, [] => []
  | offset, buf :: bufs =>
    if offset > buf.length then resumeSlices (offset - buf.length) bufs
    else buf.drop offset :: resumeSlices 0 bufs

/-- What is offered to the wrapped stream: the rest of the header and everything, or what follows
the payload bytes of the last write. -/
def slices (w : ActiveWriteState) (header : List UInt8) (bufs : List (List UInt8)) :
    List (List UInt8) :=
  if w.headerBytesRemaining > 0 then
    header.drop (packetHeaderSize - w.headerBytesRemaining) :: bufs
  else resumeSlices w.lastPayloadWritten bufs

/-- The packet to write to, a new one if the last is full. -/
def currentPacket (w : ActiveWriteState) (header : List UInt8) (payloadLen : ℕ) :
    TdsResult (ActiveWriteState × List UInt8) :=
  if w.currentPacketBytesRemaining = 0 then do
    let w ← w.startNextPacket payloadLen
    pure (w, w.setupPreloginPacketHeader)
  else .ok (w, header)

end ActiveWriteState

namespace TlsOverTdsStream

def keepPacket (s : TlsOverTdsStream) (sink : Sink) (w : ActiveWriteState) (header : List UInt8) :
    TlsOverTdsStream :=
  { s with sink, writeState := some w, packetWriteBuffer := some header }

/-- Write until a payload byte is accepted. -/
def writeLoop (bufs : List (List UInt8)) (s : TlsOverTdsStream) :
    ℕ → Sink → ActiveWriteState → List UInt8 → TdsResult (PollResult ℕ)
  | 0, _, _, _ => .error .outOfFuel
  | fuel + 1, sink, w, header => do
    let (w, header) ← w.currentPacket header bufs.flatten.length
    -- several slices are flattened into one write, a single one is written as it is
    match sink.pollWrite (w.slices header bufs).flatten with
    | (.pending, sink) => .ok (.pending, s.keepPacket sink w header)
    | (.ready (.error e), sink) => .ok (.ready (.error e), s.keepPacket sink w header)
    | (.ready (.ok bytesWritten), sink) =>
      if bytesWritten = 0 then .ok (.ready (.ok 0), s.keepPacket sink w header)
      else do
        let (payloadBytesWritten, w) ← w.onSuccessfulWrite bytesWritten
        if payloadBytesWritten = 0 then writeLoop bufs s fuel sink w header
        else pure (.ready (.ok payloadBytesWritten), s.keepPacket sink w header)

/-- Write a sequence of buffers. -/
def pollWriteVectored (s : TlsOverTdsStream) (bufs : List (List UInt8)) :
    TdsResult (PollResult ℕ) :=
  if s.hasCompletedTlsHandshake then
    let (result, sink) := s.sink.pollWrite bufs.flatten
    .ok (result, { s with sink })
  else
    let w := s.writeState.getD .new
    match s.packetWriteBuffer with
    | none => .ok (.ready (.error "TLS packet write buffer missing"),
        { s with writeState := some w })
    -- every round but the last two takes a byte of the header
    | some header => writeLoop bufs s (packetHeaderSize + 2) s.sink w header

end TlsOverTdsStream

end MssqlTds
