import MssqlTds.Message.Rpc

/-!
# Streamed parameters

A parameter whose value is supplied at execution is written in pieces.  Its header goes out first
and the half-written message is parked; `writeStreamedChunk` appends chunks of the value,
`writeStreamedNull` marks it `NULL`, and `endStreamedParam` closes it and opens the next parameter
or finishes the message.  The length prefix of the value is written with the first chunk, so that
until then the parameter can still become `NULL`; an XML value needs exactly one byte order mark,
so its first two bytes are held back until it is known whether they are one.

How a failed message is retracted is a parameter (`retract`).
-/

namespace MssqlTds

open Bytes PacketWriter

/-- The byte order mark of UTF-16LE. -/
def utf16Bom : List UInt8 := [0xFF, 0xFE]

/-- What has become of the byte order mark of the open value. -/
inductive StreamedXmlBomState where
  | notXml
  /-- The first bytes, held back; fewer than two between calls. -/
  | pending (held : List UInt8)
  | written
  deriving DecidableEq, Repr

namespace StreamedXmlBomState

def forParam (p : RpcParameter) : StreamedXmlBomState :=
  match p.value with
  | .streamed .xml => .pending []
  | _ => .notXml

def hasPendingBytes : StreamedXmlBomState → Bool
  | pending held => held ≠ []
  | _ => false

end StreamedXmlBomState

/-- A parked, partially written request. -/
structure StreamedWriteContext where
  message : SuspendedMessage
  /-- Streamed parameters whose headers are still to be written. -/
  pending : List RpcParameter
  dbCollation : SqlCollation
  valueBinding : ValueBinding
  /-- The length prefix of the open value is written. -/
  valueOpened : Bool
  xmlBomState : StreamedXmlBomState
  /-- The open parameter was marked `NULL`. -/
  nullSignaled : Bool
  /-- The request executes a prepared statement. -/
  prepared : Bool

inductive StreamedWriteState where
  | idle
  | active (ctx : StreamedWriteContext)

structure StreamClient where
  network : Network
  streamedWriteState : StreamedWriteState
  tokenCancelled : Bool

inductive StreamedParamStatus where
  | needData (paramName : Option (List Char))
  | complete
  deriving DecidableEq, Repr

/-- Calls on a client; a failed one keeps the state it reached. -/
abbrev StreamM := EStateM Error StreamClient

/-- A cancelled request whose handle has a settlement budget fails once its packet is settled. -/
def SuspendedMessage.checkCancellation (m : SuspendedMessage) (tokenCancelled : Bool) :
    TdsResult Unit :=
  if m.cancelHandle.any (·.hasSettlementBudget) && tokenCancelled then
    .error (.operationCancelledError "Request was cancelled")
  else .ok ()

/-! ### What the calls write -/

/-- The prefix of a value of unknown length, unless it is already written. -/
def writeValueOpening (valueOpened : Bool) : WriterM Unit :=
  if valueOpened then pure () else writeU64Async plpUnknownLen

/-- A chunk of a value behind its length. -/
def writePlpPiece (bytes : List UInt8) : WriterM Unit := do
  writeU32Async (UInt32.ofNat bytes.length)
  writeAsync bytes

/-- The byte order mark, the bytes held back unless they are one, and the rest of the chunk. -/
def writeXmlOpening (held rest : List UInt8) : WriterM Unit := do
  writePlpPiece utf16Bom
  (if held ≠ utf16Bom then writePlpPiece held else pure ())
  if rest ≠ [] then writePlpPiece rest else pure ()

/-- The end of a value: `NULL`, or what is left to write and the terminator. -/
def closeValue (ctx : StreamedWriteContext) : WriterM Unit :=
  if ctx.nullSignaled then writeU64Async plpNull
  else do
    writeValueOpening ctx.valueOpened
    (match ctx.xmlBomState with
    | .pending held => do
      writePlpPiece utf16Bom
      if held ≠ [] then writePlpPiece held else pure ()
    | _ => pure ())
    writeU32Async plpTerminator

namespace StreamClient

variable (cs : Codecs) (serializeTable : TvpTypeName → Option TvpTableData → WriterM Unit)
  (retract : SuspendedMessage → StreamClient → StreamClient)

def noActiveParam (call : String) : Error :=
  .usageError s!"{call} called with no active streamed parameter."

def chunkTooLong (length : ℕ) : Error := .usageError
  (s!"Streamed PLP chunk length {length} exceeds the maximum chunk size of " ++
    s!"{(0xFFFFFFFF : ℕ)} bytes.")

def chunkAfterNull : Error :=
  .usageError "write_streamed_chunk called after the parameter was marked NULL."

def nullAfterChunk : Error :=
  .usageError "write_streamed_null called after value chunks were already written."

def wrongEnd : Error := .usageError
  ("Prepared streams must be closed with end_execute_prepared_param; " ++
    "other streams with end_streamed_param.")

def park (ctx : StreamedWriteContext) : StreamM Unit :=
  modify fun c => { c with streamedWriteState := .active ctx }

/-- Resume the parked message and write to it.  A failure leaves the client idle and retracts the
message. -/
def resumeMessage {α : Type} (ctx : StreamedWriteContext) (m : WriterM α) :
    StreamM (α × SuspendedMessage) := fun c =>
  match m (PacketWriter.resume ctx.message c.network) with
  | .ok a w =>
    match w.suspend.checkCancellation c.tokenCancelled with
    | .ok () => .ok (a, w.suspend) { c with network := w.network, streamedWriteState := .idle }
    | .error e =>
      .error e (retract w.suspend { c with network := w.network, streamedWriteState := .idle })
  | .error e w =>
    .error e (retract w.suspend { c with network := w.network, streamedWriteState := .idle })

/-- Write a chunk of the open value to the message. -/
def appendToValue (ctx : StreamedWriteContext) (xmlBomState : StreamedXmlBomState)
    (m : WriterM Unit) : StreamM Unit := do
  let (_, message) ← resumeMessage retract ctx do
    writeValueOpening ctx.valueOpened
    m
  park { ctx with message, xmlBomState, valueOpened := true, nullSignaled := false }

/-- Bytes of a chunk that complete the two bytes held back. -/
def heldFrom (held chunk : List UInt8) : ℕ :=
  if held.length = 0 ∧ chunk.length > 1 then 2 else 1

/-- Append one chunk to the open value.  An empty one would be the terminator, so it is ignored. -/
def writeStreamedChunk (chunk : List UInt8) : StreamM Unit := do
  match (← get).streamedWriteState with
  | .idle => throw (noActiveParam "write_streamed_chunk")
  | .active ctx =>
    if chunk.length > 0xFFFFFFFF then throw (chunkTooLong chunk.length)
    else if ctx.nullSignaled then throw chunkAfterNull
    else if chunk = [] then pure ()
    else match ctx.xmlBomState with
      | .pending held =>
        let taken := heldFrom held chunk
        let held := held ++ chunk.take taken
        if held.length < 2 then park { ctx with xmlBomState := .pending held }
        else appendToValue retract ctx .written (writeXmlOpening held (chunk.drop taken))
      | other => appendToValue retract ctx other (writePlpPiece chunk)

/-- Mark the open parameter `NULL`; nothing is written before it is closed. -/
def writeStreamedNull : StreamM Unit := do
  match (← get).streamedWriteState with
  | .idle => throw (noActiveParam "write_streamed_null")
  | .active ctx =>
    if ctx.valueOpened || ctx.xmlBomState.hasPendingBytes then
      park { ctx with nullSignaled := false }
      throw nullAfterChunk
    else park { ctx with valueOpened := false, nullSignaled := true }

/-- Close the open value and write the header of the next parameter, or finish the message. -/
def closeAndAdvance (ctx : StreamedWriteContext) : WriterM Unit := do
  closeValue ctx
  match ctx.pending with
  | next :: _ => next.serialize cs serializeTable ctx.dbCollation (ctx.valueBinding = .byOrdinal)
  | [] => finalize

/-- Close the open parameter.  The response to the finished message is read elsewhere. -/
def endStreamedParam (prepared : Bool) : StreamM StreamedParamStatus := do
  match (← get).streamedWriteState with
  | .idle => throw (noActiveParam "end_streamed_param")
  | .active ctx =>
    if ctx.prepared ≠ prepared then throw wrongEnd
    else
      let (_, message) ← resumeMessage retract ctx (closeAndAdvance cs serializeTable ctx)
      match ctx.pending with
      | next :: pending =>
        park { ctx with
          message
          pending
          valueOpened := false
          xmlBomState := .forParam next
          nullSignaled := false }
        pure (.needData next.name)
      | [] => pure .complete

/-- Send a request up to the header of its first streamed parameter, and park it. -/
def startStreamedRpc (rpc : SqlRpc) (first : RpcParameter) (pending : List RpcParameter)
    (timeoutSec : Option ℕ) (cancelHandle : Option CancelHandle) (prepared : Bool) :
    StreamM StreamedParamStatus := fun c =>
  let opening : WriterM Unit := do
    rpc.serializePrefix cs serializeTable
    first.serialize cs serializeTable rpc.dbCollation (rpc.valueBinding = .byOrdinal)
  match opening (PacketWriter.new .rpcRequest c.network timeoutSec cancelHandle) with
  | .ok () w =>
    let ctx : StreamedWriteContext :=
      { message := w.suspend
        pending
        dbCollation := rpc.dbCollation
        valueBinding := rpc.valueBinding
        valueOpened := false
        xmlBomState := .forParam first
        nullSignaled := false
        prepared }
    .ok (.needData first.name) { c with network := w.network, streamedWriteState := .active ctx }
  | .error e w => .error e (retract w.suspend { c with network := w.network })

/-! ### Runs -/

/-- A call on the open parameter. -/
inductive Call where
  | chunk (bytes : List UInt8)
  | null
  | endParam (prepared : Bool)
  deriving DecidableEq, Repr

def perform : Call → StreamM Unit
  | .chunk bytes => writeStreamedChunk retract bytes
  | .null => writeStreamedNull
  | .endParam prepared => do
    let _ ← endStreamedParam cs serializeTable retract prepared
    pure ()

/-- Make the calls one after the other, whether they fail or not; each comes with its result. -/
def performAll : List Call → StreamClient → List (Call × TdsResult Unit) × StreamClient
  | [], c => ([], c)
  | call :: calls, c =>
    match perform cs serializeTable retract call c with
    | .ok () c =>
      let (results, c) := performAll calls c
      ((call, .ok ()) :: results, c)
    | .error e c =>
      let (results, c) := performAll calls c
      ((call, .error e) :: results, c)

end StreamClient

end MssqlTds
