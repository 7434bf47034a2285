import MssqlTds.Error

/-!
# Packet types, status flags and the network a packet is sent on

`Network` is what a packet writer borrows: the connection-level reset request, the record that a
reset bit reached the wire, the negotiated encryption, and the behaviour of the socket.

The socket is given as a script.  One `SendEnv` answers one call that sends a packet: what the
clock and the cancel token say before the send, at each poll of the send, and after it.  `log`
records every send that was polled, so what the server received can be read off a final state.
-/

namespace MssqlTds

/-- The first byte of a packet header. -/
inductive PacketType where
  | unknown | sqlBatch | rpcRequest | tabularResult | attention | bulkLoad | fedAuthToken
  | transactionManager | login7 | sspi | preLogin
  deriving DecidableEq, Repr

namespace PacketType

def code : PacketType → UInt8
  | unknown => 0x00
  | sqlBatch => 0x01
  | rpcRequest => 0x03
  | tabularResult => 0x04
  | attention => 0x06
  | bulkLoad => 0x07
  | fedAuthToken => 0x08
  | transactionManager => 0x0E
  | login7 => 0x10
  | sspi => 0x11
  | preLogin => 0x12

/-- Message kinds whose first packet may carry a reset request. -/
def carriesReset : PacketType → Bool
  | sqlBatch | rpcRequest | transactionManager => true
  | _ => false

end PacketType

inductive PacketStatusFlags where
  | normal | eom | ignore | resetConnection | resetConnectionSkipTran
  deriving DecidableEq, Repr

def PacketStatusFlags.bits : PacketStatusFlags → UInt8
  | normal => 0x00
  | eom => 0x01
  | ignore => 0x02
  | resetConnection => 0x08
  | resetConnectionSkipTran => 0x10

/-- A request that the server reset the session before it processes the next message. -/
inductive ResetConnectionMode where
  | none | reset | resetSkipTran
  deriving DecidableEq, Repr

def ResetConnectionMode.bits : ResetConnectionMode → UInt8
  | none => 0
  | reset => PacketStatusFlags.resetConnection.bits
  | resetSkipTran => PacketStatusFlags.resetConnectionSkipTran.bits

/-- Encryption agreed on in the pre-login exchange. -/
inductive NegotiatedEncryptionSetting where
  | strict | loginOnly | mandatory | noEncryption
  deriving DecidableEq, Repr

/-! ### The socket's answers -/

/-- One wake-up of the call that awaits a send. -/
structure Poll where
  deadlinePassed : Bool
  cancelled : Bool
  /-- The cancel token is looked at before the send; its library leaves the order open. -/
  cancelPolledFirst : Bool
  /-- The settlement deadline of the cancel handle has passed. -/
  budgetPassed : Bool
  /-- Bytes of the packet the socket accepts at this poll. -/
  handed : ℕ
  /-- What the send returns at this poll; `none` while it is pending. -/
  net : Option (TdsResult Unit)

/-- Everything the surroundings decide during one call that sends a packet. -/
structure SendEnv where
  cancelledAtEntry : Bool
  expiredAtEntry : Bool
  /-- The wake-ups; when they run out the caller has dropped the future. -/
  polls : List Poll
  /-- The write deadline has passed when the send has completed. -/
  expiredAfter : Bool
  /-- Outcome of switching TLS off after a login packet. -/
  disableSsl : TdsResult Unit

/-- A poll at which neither the clock nor the cancel token interferes. -/
def Poll.quiet (p : Poll) : Bool := !p.deadlinePassed && !p.cancelled

/-- The send is pending at quiet polls only and then completes. -/
def completesQuietly : List Poll → Bool
  | [] => false
  | p :: ps => p.quiet && match p.net with
    | none => completesQuietly ps
    | some (.ok ()) => true
    | some (.error _) => false

def SendEnv.Succeeds (e : SendEnv) : Prop :=
  e.cancelledAtEntry = false ∧ e.expiredAtEntry = false ∧ completesQuietly e.polls = true ∧
    e.expiredAfter = false ∧ e.disableSsl = .ok ()

/-- Nothing fails between the completion of the send and its accounting. -/
def SendEnv.QuietAfter (e : SendEnv) : Prop := e.expiredAfter = false ∧ e.disableSsl = .ok ()

/-- The environment in which a send completes at its first poll. -/
def SendEnv.ready : SendEnv where
  cancelledAtEntry := false
  expiredAtEntry := false
  polls := [⟨false, false, false, false, 0, some (.ok ())⟩]
  expiredAfter := false
  disableSsl := .ok ()

theorem SendEnv.ready_succeeds : SendEnv.ready.Succeeds := ⟨rfl, rfl, rfl, rfl, rfl⟩

/-! ### The network -/

/-- A send that was polled at least once. -/
structure SendRecord where
  packet : List UInt8
  /-- How many of its bytes the socket accepted. -/
  handed : ℕ
  completed : Bool
  deriving DecidableEq, Repr

def SendRecord.bytes (r : SendRecord) : List UInt8 := r.packet.take r.handed

/-- A send that handed over its whole packet. -/
def SendRecord.complete (packet : List UInt8) : SendRecord := ⟨packet, packet.length, true⟩

/-- What a packet writer borrows from the connection. -/
structure Network where
  /-- Negotiated packet size, a `u32`. -/
  packetSize : ℕ
  /-- Reset request waiting for the next message. -/
  pendingReset : ResetConnectionMode
  /-- A header carrying a reset bit reached the wire. -/
  resetDispatched : Bool
  /-- Times a dispatched reset bit was recorded. -/
  dispatchNotes : ℕ
  encryption : NegotiatedEncryptionSetting
  /-- The `i`-th packet-sending call gets `env i`. -/
  env : ℕ → SendEnv
  /-- Packet-sending calls made so far. -/
  calls : ℕ
  /-- Sends polled so far, oldest first. -/
  log : List SendRecord

namespace Network

variable (n : Network)

/-- Arm a reset; the record of an earlier dispatch does not count for it. -/
def setResetMode (mode : ResetConnectionMode) : Network :=
  { n with pendingReset := mode, resetDispatched := false }

def takeResetMode : ResetConnectionMode × Network :=
  (n.pendingReset, { n with pendingReset := .none })

def noteResetDispatched : Network :=
  { n with resetDispatched := true, dispatchNotes := n.dispatchNotes + 1 }

end Network

end MssqlTds
