import MssqlTds.Io.Messages
import MssqlTds.Io.Utf16Units

/-!
# The packet writer

A `PacketWriter` collects the bytes of one message in a buffer, behind room for the packet header,
and sends a packet whenever the payload reaches its maximal size.  The writer's methods run in
`WriterM`, which keeps the state of the writer (and of the network it borrows) when a call fails.

Sends are described poll by poll: `awaitSend` races the send against the write deadline and the
cancel token in the three ways the code does, and reports how many bytes the socket took.
-/

namespace MssqlTds

open Bytes

/-! ### Machine arithmetic of the writer -/

/-- `n as i32`: the low 32 bits as a two's-complement number. -/
def asI32 (n : ℕ) : ℤ :=
  if n % 2 ^ 32 < 2 ^ 31 then (n % 2 ^ 32 : ℕ) else (n % 2 ^ 32 : ℕ) - 2 ^ 32

/-- `i as usize` for a signed `i`. -/
def asUsize : ℤ → ℕ
  | .ofNat n => n % 2 ^ 64
  | .negSucc n => 2 ^ 64 - 1 - n % 2 ^ 64

/-- `usize` subtraction, wrapping below zero. -/
def usizeSub (a b : ℕ) : ℕ := if b ≤ a then a - b else 2 ^ 64 - (b - a)

theorem asI32_of_lt {n : ℕ} (h : n < 2 ^ 31) : asI32 n = n := by
  rw [asI32, Nat.mod_eq_of_lt (by omega), if_pos h]

theorem asUsize_natCast {n : ℕ} (h : n < 2 ^ 64) : asUsize n = n :=
  Nat.mod_eq_of_lt h

/-! ### State -/

structure CancelHandle where
  /-- The handle has a settlement budget: a cancelled write first finishes its packet. -/
  hasSettlementBudget : Bool
  deriving DecidableEq, Repr

/-- A message being written. -/
structure PacketWriter where
  packetType : PacketType
  network : Network
  maxPayloadSize : ℕ
  packetId : UInt8
  payloadCursor : Cursor
  packetSize : ℕ
  isFirstPacket : Bool
  /-- A send was polled but has not completed. -/
  sendIncomplete : Bool
  sendAttempted : Bool
  /-- The final packet reached the network. -/
  messageComplete : Bool
  maxTimeoutSec : Option ℕ
  cancelHandle : Option CancelHandle
  resetMode : ResetConnectionMode
  /-- The server is owed an end-of-message packet. -/
  eomPending : Bool
  /-- A value lost a character to the target code page. -/
  codePageConversionLoss : Bool

/-- A message detached from the network it is written to. -/
structure SuspendedMessage where
  packetType : PacketType
  maxPayloadSize : ℕ
  packetId : UInt8
  payloadCursor : Cursor
  packetSize : ℕ
  isFirstPacket : Bool
  sendIncomplete : Bool
  sendAttempted : Bool
  messageComplete : Bool
  maxTimeoutSec : Option ℕ
  cancelHandle : Option CancelHandle
  resetMode : ResetConnectionMode
  eomPending : Bool
  codePageConversionLoss : Bool

/-- Computations on a packet writer; a failed one keeps the state it reached. -/
abbrev WriterM := EStateM Error PacketWriter

def packetHeaderSize : ℕ := 8

namespace SuspendedMessage

variable (m : SuspendedMessage)

def nothingSent : Bool := !m.sendAttempted

/-- Discard an unsent message and hand its reset request back. -/
def abandon (n : Network) : Network :=
  if m.resetMode ≠ .none then n.setResetMode m.resetMode else n

end SuspendedMessage

namespace PacketWriter

/-- A writer for a new message; it takes the pending reset request if its message may carry it. -/
def new (packetType : PacketType) (network : Network) (timeout : Option ℕ)
    (cancelHandle : Option CancelHandle) : PacketWriter :=
  let (resetMode, network) :=
    if packetType.carriesReset then network.takeResetMode else (.none, network)
  { packetType
    network
    maxPayloadSize := network.packetSize - packetHeaderSize
    packetId := 1
    payloadCursor := ⟨[], packetHeaderSize⟩
    packetSize := network.packetSize
    isFirstPacket := true
    sendIncomplete := false
    sendAttempted := false
    messageComplete := false
    maxTimeoutSec := timeout.filter (0 < ·)
    cancelHandle
    resetMode
    eomPending := false
    codePageConversionLoss := false }

def suspend (w : PacketWriter) : SuspendedMessage where
  packetType := w.packetType
  maxPayloadSize := w.maxPayloadSize
  packetId := w.packetId
  payloadCursor := w.payloadCursor
  packetSize := w.packetSize
  isFirstPacket := w.isFirstPacket
  sendIncomplete := w.sendIncomplete
  sendAttempted := w.sendAttempted
  messageComplete := w.messageComplete
  maxTimeoutSec := w.maxTimeoutSec
  cancelHandle := w.cancelHandle
  resetMode := w.resetMode
  eomPending := w.eomPending
  codePageConversionLoss := w.codePageConversionLoss

def resume (state : SuspendedMessage) (network : Network) : PacketWriter where
  packetType := state.packetType
  network := network
  maxPayloadSize := state.maxPayloadSize
  packetId := state.packetId
  payloadCursor := state.payloadCursor
  packetSize := state.packetSize
  isFirstPacket := state.isFirstPacket
  sendIncomplete := state.sendIncomplete
  sendAttempted := state.sendAttempted
  messageComplete := state.messageComplete
  maxTimeoutSec := state.maxTimeoutSec
  cancelHandle := state.cancelHandle
  resetMode := state.resetMode
  eomPending := state.eomPending
  codePageConversionLoss := state.codePageConversionLoss

def position (w : PacketWriter) : ℤ := asI32 (w.payloadCursor.pos - packetHeaderSize)

/-- `n` more bytes fit into the current packet. -/
def hasSpace (w : PacketWriter) (bytesCount : ℕ) : Bool :=
  asUsize w.position + bytesCount ≤ w.maxPayloadSize

/-- Payload bytes that still fit into the current packet. -/
def packetSpaceLeft (w : PacketWriter) : ℕ := usizeSub w.maxPayloadSize (asUsize w.position)

def mapCursor (f : Cursor → Cursor) : WriterM Unit :=
  modify fun w => { w with payloadCursor := f w.payloadCursor }

/-! ### Sending a packet -/

def status (isLastPacket isIgnorePacket : Bool) (resetMode : ResetConnectionMode) : UInt8 :=
  let status := match isLastPacket with
    | true => match isIgnorePacket with
      | true => PacketStatusFlags.eom.bits ||| PacketStatusFlags.ignore.bits
      | false => PacketStatusFlags.eom.bits
    | false => PacketStatusFlags.normal.bits
  status ||| resetMode.bits

/-- A packet header.  The length field keeps the low 16 bits of the length. -/
def buildHeader (packetLength : ℕ) (packetType : PacketType) (packetId : UInt8)
    (isLastPacket isIgnorePacket : Bool) (resetMode : ResetConnectionMode) : List UInt8 :=
  [packetType.code, status isLastPacket isIgnorePacket resetMode] ++ beBytes 2 packetLength ++
    beBytes 2 0 ++ [packetId, 0]

/-- What a send has done so far. -/
structure SendProgress where
  attempted : Bool
  handed : ℕ
  deriving DecidableEq, Repr

def SendProgress.poll (s : SendProgress) (p : Poll) : SendProgress := ⟨true, s.handed + p.handed⟩

/-- Finish a cancelled packet within the settlement deadline and the write deadline. -/
def settleSend (hasDeadline : Bool) :
    List Poll → SendProgress → SendProgress × TdsResult Unit
  | [], s => (s, .error .dropped)
  | p :: ps, s =>
    match p.net with
    | some r => (s.poll p, r)
    | none =>
      if p.budgetPassed || (hasDeadline && p.deadlinePassed) then
        (s.poll p, .error (.operationCancelledError
          "Cancellation timed out completing the current packet"))
      else settleSend hasDeadline ps (s.poll p)

/-- The race under a cancel handle with a settlement budget: deadline, send, cancellation.  The
result says whether the send completed after a cancellation. -/
def raceWithBudget (hasDeadline : Bool) :
    List Poll → SendProgress → SendProgress × TdsResult Bool
  | [], s => (s, .error .dropped)
  | p :: ps, s =>
    if hasDeadline && p.deadlinePassed then (s, .error (.timeoutError "Timeout expired"))
    else match p.net with
      | some r => (s.poll p, r.map fun _ => false)
      | none =>
        if p.cancelled then
          let (s, r) := settleSend hasDeadline ps (s.poll p)
          (s, r.map fun _ => true)
        else raceWithBudget hasDeadline ps (s.poll p)

/-- The race without a settlement budget: the deadline if there is one, then the send under the
cancel token if there is one. -/
def raceUntilCancelled (hasDeadline hasHandle : Bool) :
    List Poll → SendProgress → SendProgress × TdsResult Bool
  | [], s => (s, .error .dropped)
  | p :: ps, s =>
    if hasDeadline && p.deadlinePassed then (s, .error (.timeoutError "Timeout expired"))
    else if hasHandle && p.cancelled && p.cancelPolledFirst then
      (s, .error (.operationCancelledError "Request was cancelled"))
    else match p.net with
      | some r => (s.poll p, r.map fun _ => false)
      | none =>
        if hasHandle && p.cancelled then
          (s.poll p, .error (.operationCancelledError "Request was cancelled"))
        else raceUntilCancelled hasDeadline hasHandle ps (s.poll p)

/-- Race a send as the writer's deadline and cancel handle demand. -/
def raceSend (w : PacketWriter) (polls : List Poll) : SendProgress × TdsResult Bool :=
  let hasDeadline := w.maxTimeoutSec.isSome
  match w.cancelHandle with
  | some handle =>
    if handle.hasSettlementBudget then raceWithBudget hasDeadline polls ⟨false, 0⟩
    else raceUntilCancelled hasDeadline true polls ⟨false, 0⟩
  | none => raceUntilCancelled hasDeadline false polls ⟨false, 0⟩

/-- The writer after a send of `data` was raced: a polled send is marked, and logged. -/
def noteSend (w : PacketWriter) (data : List UInt8) (s : SendProgress) (completed : Bool) :
    PacketWriter :=
  if s.attempted then
    { w with
      sendAttempted := true
      sendIncomplete := true
      network := { w.network with
        -- a completed send has handed over the whole packet
        log := w.network.log ++
          [⟨data, if completed then data.length else min s.handed data.length, completed⟩] } }
  else w

/-- Await the send of `data`; tells whether it completed after a cancellation. -/
def awaitSend (polls : List Poll) (data : List UInt8) : WriterM Bool := fun w =>
  match w.raceSend polls with
  | (s, .ok cancelled) => .ok cancelled (w.noteSend data s true)
  | (s, .error e) => .error e (w.noteSend data s false)

/-- Switch TLS off after the first packet of a login that is encrypted only that far. -/
def firstPacketCallback (env : SendEnv) (w : PacketWriter) : TdsResult Unit :=
  match w.packetType with
  | .login7 => if w.network.encryption = .loginOnly then env.disableSsl else .ok ()
  | _ => .ok ()

/-- Position to return to after a packet is sent; an ignore packet discards the payload. -/
def savedPosition (w : PacketWriter) (isIgnorePacket : Bool) : ℕ :=
  if isIgnorePacket then packetHeaderSize else w.payloadCursor.pos

def packetLength (w : PacketWriter) (isIgnorePacket : Bool) : ℕ :=
  if w.savedPosition isIgnorePacket > w.packetSize then w.packetSize
  else w.savedPosition isIgnorePacket

def headerResetMode (w : PacketWriter) : ResetConnectionMode :=
  if w.isFirstPacket then w.resetMode else .none

/-- The buffer with the header of the packet to send written at its front. -/
def framedCursor (w : PacketWriter) (isLastPacket isIgnorePacket : Bool) : Cursor :=
  (w.payloadCursor.setPosition 0).write
    (buildHeader (w.packetLength isIgnorePacket) w.packetType w.packetId isLastPacket
      isIgnorePacket w.headerResetMode)

def packet (w : PacketWriter) (isLastPacket isIgnorePacket : Bool) : List UInt8 :=
  (w.framedCursor isLastPacket isIgnorePacket).buf.take (w.packetLength isIgnorePacket)

/-- The writer with the header in place and the call counted. -/
def framed (w : PacketWriter) (isLastPacket isIgnorePacket : Bool) : PacketWriter :=
  { w with
    payloadCursor := w.framedCursor isLastPacket isIgnorePacket
    network := { w.network with calls := w.network.calls + 1 } }

def nextEnv (w : PacketWriter) : SendEnv := w.network.env w.network.calls

/-- Flags set as soon as a packet is on the wire, before anything that can still fail. -/
def markSent (w : PacketWriter) (resetMode : ResetConnectionMode)
    (isLastPacket isIgnorePacket : Bool) : PacketWriter :=
  { w with
    sendIncomplete := false
    messageComplete := isLastPacket && !isIgnorePacket
    network :=
      if resetMode ≠ .none && !isIgnorePacket then w.network.noteResetDispatched else w.network }

/-- The writer turned to the next packet. -/
def advance (w : PacketWriter) (savedPosition : ℕ) (isLastPacket : Bool) : PacketWriter :=
  { w with
    packetId := w.packetId + 1
    eomPending := !isLastPacket
    payloadCursor := w.payloadCursor.setPosition savedPosition }

def runFirstPacketCallback (env : SendEnv) : WriterM Unit := do
  let w ← get
  if w.isFirstPacket then
    match firstPacketCallback env w with
    | .ok () => set { w with isFirstPacket := false }
    | .error e => throw e

/-- Bookkeeping after a send has completed. -/
def accountSend (env : SendEnv) (resetMode : ResetConnectionMode) (savedPosition : ℕ)
    (isLastPacket isIgnorePacket cancelled : Bool) : WriterM Unit := do
  modify fun w => w.markSent resetMode isLastPacket isIgnorePacket
  if (← get).maxTimeoutSec.isSome && env.expiredAfter then
    throw (.timeoutError "Timeout expired")
  runFirstPacketCallback env
  modify fun w => w.advance savedPosition isLastPacket
  if cancelled then throw (.operationCancelledError "Request was cancelled")

def populateHeaderAndSend (isLastPacket isIgnorePacket : Bool) : WriterM Unit := do
  if !(isLastPacket || !isIgnorePacket) then
    throw (.panic "assertion failed: is_last_packet || !is_ignore_packet")
  let w ← get
  let env := w.nextEnv
  modify fun w => w.framed isLastPacket isIgnorePacket
  if w.cancelHandle.isSome && env.cancelledAtEntry then
    throw (.operationCancelledError "Request was cancelled")
  if w.maxTimeoutSec.isSome && env.expiredAtEntry then
    throw (.timeoutError "Timeout expired")
  let cancelled ← awaitSend env.polls (w.packet isLastPacket isIgnorePacket)
  accountSend env w.headerResetMode (w.savedPosition isIgnorePacket) isLastPacket isIgnorePacket
    cancelled

/-- End the message with an ignore packet, so that the server discards it. -/
def cancelCurrentMessage : WriterM Unit := do
  modify fun w => { w with resetMode := .none }
  populateHeaderAndSend true true

/-! ### Writing -/

/-- Move what was written past the end of the packet to the front. -/
def moveOverflow : WriterM Unit := do
  let w ← get
  if w.payloadCursor.pos < w.packetSize then throw (.panic "attempt to subtract with overflow")
  else
    mapCursor fun c =>
      let overflowLength := c.pos - w.packetSize
      (c.copyWithin w.packetSize overflowLength packetHeaderSize).setPosition
        (packetHeaderSize + overflowLength)

/-- Send the packet if it is full and keep what was written past its end. -/
def handleOverflowIfNeeded : WriterM Unit := do
  let w ← get
  if w.position ≥ asI32 w.maxPayloadSize then
    populateHeaderAndSend false false
    moveOverflow

/-- Send a final packet if there is payload, or an end of message is owed. -/
def finalize : WriterM Unit := do
  let w ← get
  if w.payloadCursor.pos > packetHeaderSize || w.eomPending then
    populateHeaderAndSend true false
    mapCursor (·.setPosition packetHeaderSize)

/-- Write to the buffer without looking at the packet's end. -/
def writeUnchecked (bs : List UInt8) : WriterM Unit := mapCursor (·.write bs)

/-- Write to the buffer and send the packet if it is full. -/
def writeChecked (bs : List UInt8) : WriterM Unit := do
  writeUnchecked bs
  handleOverflowIfNeeded

def writeByteAsync (value : UInt8) : WriterM Unit := writeChecked [value]

def writeI16Async (value : Int16) : WriterM Unit := writeChecked (leBytes 2 value.toUInt16.toNat)

def writeU16Async (value : UInt16) : WriterM Unit := writeChecked (leBytes 2 value.toNat)

def writeI32Async (value : Int32) : WriterM Unit := writeChecked (leBytes 4 value.toUInt32.toNat)

def writeU32Async (value : UInt32) : WriterM Unit := writeChecked (leBytes 4 value.toNat)

def writeI64Async (value : Int64) : WriterM Unit := writeChecked (leBytes 8 value.toUInt64.toNat)

def writeU64Async (value : UInt64) : WriterM Unit := writeChecked (leBytes 8 value.toNat)

def writeI16BeAsync (value : Int16) : WriterM Unit := writeChecked (beBytes 2 value.toUInt16.toNat)

def writeI32BeAsync (value : Int32) : WriterM Unit := writeChecked (beBytes 4 value.toUInt32.toNat)

/-- A float is written by its bit pattern. -/
def writeF64Unchecked (bits : UInt64) : WriterM Unit := writeUnchecked (leBytes 8 bits.toNat)

/-- Send the packet if a batch of unchecked writes has filled it. -/
def checkOverflow : WriterM Unit := handleOverflowIfNeeded

/-- Write a fixed-size array, at once if it ends before the packet does. -/
def writeFixedBytes (bytes : List UInt8) : WriterM Unit := do
  if (← get).hasSpace (bytes.length + 1) then writeUnchecked bytes
  else bytes.forM writeByteAsync

def writeLoop : ℕ → List UInt8 → WriterM Unit
  | 0, _ => throw .outOfFuel
  | fuel + 1, remaining => do
    if remaining ≠ [] then
      let space := (← get).packetSpaceLeft
      if space < remaining.length then
        -- fill the current packet and flush it
        writeUnchecked (remaining.take space)
        populateHeaderAndSend false false
        mapCursor (·.setPosition packetHeaderSize)
        writeLoop fuel (remaining.drop space)
      else writeUnchecked remaining

/-- Write raw bytes.  A packet they fill exactly stays in the buffer. -/
def writeAsync (content : List UInt8) : WriterM Unit := writeLoop (content.length + 2) content

def writeStringLoop : ℕ → Utf16Units → WriterM Unit
  | 0, _ => throw .outOfFuel
  | fuel + 1, units => do
    let w ← get
    let space := w.packetSpaceLeft
    let unitsAvailable := space / 2
    if unitsAvailable = 0 then
      if space = 1 then
        match units.nextUnit with
        | (some unit, units) =>
          writeByteAsync (UInt8.ofNat unit.toNat)
          writeByteAsync (UInt8.ofNat (unit.toNat / 256))
          writeStringLoop fuel units
        | (none, _) => pure ()
      else
        populateHeaderAndSend false false
        mapCursor (·.setPosition packetHeaderSize)
        writeStringLoop fuel units
    else
      let (unitsWritten, cursor, units) := units.writeLe w.payloadCursor unitsAvailable
      mapCursor fun _ => cursor
      if unitsWritten > 0 then checkOverflow
      if unitsWritten < unitsAvailable then pure () else writeStringLoop fuel units

def writeStringUnicodeAsync (value : List Char) : WriterM Unit :=
  writeStringLoop (2 * (Unicode.utf16Units value).length + 2) (Utf16Units.new value)

/-- Record that a value lost a character to the target code page. -/
def noteCodePageConversionLoss : WriterM Unit :=
  modify fun w => { w with codePageConversionLoss := true }

end PacketWriter

end MssqlTds
