import MssqlTds.Connection.RowCursor
import MssqlTds.Connection.StreamedParams

/-!
# A client

A client sends one command at a time.  While it reads a response, or streams the parameters of a
command, it is busy and rejects further commands.  An `Operation` is what a caller can do with the
open response or the open parameter instead.

The column encryption setting of a command is kept for the time its response is read: it decides
whether the cells and output values of the response are decrypted.
-/

namespace MssqlTds

structure TdsClient where
  /-- The network and the command whose parameters are being streamed. -/
  stream : StreamClient
  response : Response
  /-- The setting of the command whose response is read. -/
  currentCommandCeSetting : ExecutionColumnEncryptionSetting
  columnEncryptionEnabled : Bool

/-- Calls on a client; a failed one keeps the state it reached. -/
abbrev ClientM := EStateM Error TdsClient

/-- How a command is to be executed. -/
structure ExecuteOptions where
  timeout : Option ℕ
  cancel : Option CancelHandle
  columnEncryption : ExecutionColumnEncryptionSetting
  onError : BatchErrorMode
  deriving DecidableEq, Repr

/-- The setting with that of the connection put in. -/
def ExecutionColumnEncryptionSetting.effective (connectionEnabled : Bool) :
    ExecutionColumnEncryptionSetting → ExecutionColumnEncryptionSetting
  | .useConnectionSetting => if connectionEnabled then .enabled else .disabled
  | other => other

namespace TdsClient

variable (c : TdsClient)

def effectiveCommandCeSetting : ExecutionColumnEncryptionSetting :=
  c.currentCommandCeSetting.effective c.columnEncryptionEnabled

def streaming : Bool :=
  match c.stream.streamedWriteState with
  | .idle => false
  | .active _ => true

/-- An open batch or a streamed write stands in the way of a new command. -/
def commandIsBusy : Bool := c.response.hasOpenBatch || c.streaming

end TdsClient

/-! ### Commands -/

def alreadyExecuting : Error := .usageError
  ("There is an open batch on the current connection. It must be closed or fully consumed " ++
    "before executing another operation.")

section

variable {α : Type} (options : ExecuteOptions)

def rejectIfBusy : ClientM Unit := do
  if (← get).commandIsBusy then throw alreadyExecuting

/-- The setting is kept before the connection is found to be busy. -/
def keepSettingThenCheck (accepted : ClientM α) : ClientM α := do
  modify fun c => { c with currentCommandCeSetting := options.columnEncryption }
  rejectIfBusy
  accepted

def checkFirst (accepted : ClientM α) : ClientM α := do
  rejectIfBusy
  accepted

variable (accepted : ClientM α)

/-! What an accepted command does is the argument `accepted`. -/

def execute : ClientM α := keepSettingThenCheck options accepted

def executeSpExecutesql : ClientM α := keepSettingThenCheck options accepted

def executeStoredProcedure : ClientM α := keepSettingThenCheck options accepted

def beginSpExecutesql : ClientM α := checkFirst accepted

def executePrepared : ClientM α := checkFirst accepted

def executePreparedBatch : ClientM α := checkFirst accepted

def beginExecutePreparedBatch : ClientM α := checkFirst accepted

def beginExecutePrepared : ClientM α := checkFirst accepted

def unprepare : ClientM α := checkFirst accepted

end

/-- The commands that a busy connection rejects. -/
inductive EntryPoint where
  | execute
  | executeSpExecutesql
  | executeStoredProcedure
  | beginSpExecutesql
  | executePrepared
  | executePreparedBatch
  | beginExecutePreparedBatch
  | beginExecutePrepared
  | unprepare
  deriving DecidableEq, Repr

namespace EntryPoint

variable {α : Type} (options : ExecuteOptions) (accepted : ClientM α)

def call : EntryPoint → ClientM α
  | execute => MssqlTds.execute options accepted
  | executeSpExecutesql => MssqlTds.executeSpExecutesql options accepted
  | executeStoredProcedure => MssqlTds.executeStoredProcedure options accepted
  | beginSpExecutesql => MssqlTds.beginSpExecutesql accepted
  | executePrepared => MssqlTds.executePrepared accepted
  | executePreparedBatch => MssqlTds.executePreparedBatch accepted
  | beginExecutePreparedBatch => MssqlTds.beginExecutePreparedBatch accepted
  | beginExecutePrepared => MssqlTds.beginExecutePrepared accepted
  | unprepare => MssqlTds.unprepare accepted

end EntryPoint

/-! ### What a caller does meanwhile -/

inductive Operation where
  | nextRowInto (available : ℕ) (buffered : ℕ → ℕ)
  | nextRowCursor
  | tryNextRowCursor (available : ℕ)
  | peekPastCurrentRow
  | tryPeekPastCurrentRow (available : ℕ)
  | readRowColumn (buffered : ℕ → ℕ) (target : ℕ)
  | tryReadRowColumn (available target : ℕ)
  | tryReadRowPlpComplete (available target outLen : ℕ)
  | readActivePlpChunk (outLen : ℕ)
  | tryReadActivePlpChunk (attempts : List ℕ) (outLen : ℕ)
  | finishRowInto (buffered : ℕ → ℕ)
  | tryFinishRowInto (available : ℕ)
  | advance
  | advanceToRows
  | completeCurrentResult
  | closeQuery
  | getReturnValues
  | getReturnStatus
  | takeInfoMessages
  | writeStreamedChunk (chunk : List UInt8)
  | writeStreamedNull
  /-- `answer` is the response, if the command is thereby complete. -/
  | endStreamedParam (prepared : Bool) (answer : List UInt8)

/-- What an operation returns. -/
inductive Outcome where
  | done
  | flag (flag : Bool)
  | poll (poll : Option Bool)
  | row (hasRow : Bool) (calls : List RowCall)
  | column (column : Option CursorColumn)
  | wholeValue (read : Option (Option PlpChunk))
  | piece (chunk : Option PlpChunk)
  | statement (result : StatementResult)
  | returnValues (values : List ReturnValue)
  | returnStatus (status : ReturnStatus)
  | messages (messages : List String)
  /-- The next parameter, or the first result of the finished command. -/
  | streamed (status : StreamedParamStatus) (result : Option StatementResult)

namespace TdsClient

variable (ctx : ResponseContext) (serializeTable : TvpTypeName → Option TvpTableData → WriterM Unit)
  (retract : SuspendedMessage → StreamClient → StreamClient)

/-- An operation on the response, under the setting of the command. -/
def onResponse {α : Type} (m : ResponseContext → ResponseM α) : ClientM α := fun c =>
  match m { ctx with effectiveCeSetting := c.effectiveCommandCeSetting } c.response with
  | .ok a response => .ok a { c with response := response }
  | .error e response => .error e { c with response := response }

def onStream {α : Type} (m : StreamM α) : ClientM α := fun c =>
  match m c.stream with
  | .ok a stream => .ok a { c with stream := stream }
  | .error e stream => .error e { c with stream := stream }

/-- Closing an open batch also forgets the setting of its command. -/
def closeQuery : ClientM Unit := fun c =>
  let forget (c' : TdsClient) : TdsClient :=
    if c.response.hasOpenBatch then { c' with currentCommandCeSetting := .useConnectionSetting }
    else c'
  match onResponse ctx (·.closeQuery) c with
  | .ok () c => .ok () (forget c)
  | .error e c => .error e (forget c)

/-- Close the open parameter.  When the command is complete its response is read. -/
def endStreamedParam (prepared : Bool) (answer : List UInt8) :
    ClientM (StreamedParamStatus × Option StatementResult) := do
  let status ← onStream (StreamClient.endStreamedParam ctx.codecs serializeTable retract prepared)
  match status with
  | .needData _ => pure (status, none)
  | .complete => do
    modify fun c => { c with response := { c.response with unread := answer } }
    let result ← onResponse ctx fun ctx => .settling
      (fun r _ => { r with hasOpenBatch := false }.abortPendingPrepareCapture.markKnownDead)
      ctx.positionOnFirstResult
    pure (status, some result)

def perform : Operation → ClientM Outcome
  | .nextRowInto available buffered => do
    let (hasRow, calls) ← onResponse ctx (·.nextRowInto available buffered)
    pure (.row hasRow calls)
  | .nextRowCursor => .flag <$> onResponse ctx (·.nextRowCursor)
  | .tryNextRowCursor available =>
    .poll <$> onResponse ctx fun _ => MssqlTds.tryNextRowCursor available
  | .peekPastCurrentRow => .flag <$> onResponse ctx (·.peekPastCurrentRow)
  | .tryPeekPastCurrentRow available =>
    .poll <$> onResponse ctx fun _ => MssqlTds.tryPeekPastCurrentRow available
  | .readRowColumn buffered target =>
    (.column ∘ some) <$> onResponse ctx (·.readRowColumn buffered target)
  | .tryReadRowColumn available target =>
    .column <$> onResponse ctx fun _ => MssqlTds.tryReadRowColumn available target
  | .tryReadRowPlpComplete available target outLen =>
    .wholeValue <$> onResponse ctx fun _ => MssqlTds.tryReadRowPlpComplete available target outLen
  | .readActivePlpChunk outLen =>
    (.piece ∘ some) <$> onResponse ctx (·.readActivePlpChunk outLen)
  | .tryReadActivePlpChunk attempts outLen =>
    .piece <$> onResponse ctx fun _ => MssqlTds.tryReadActivePlpChunk attempts outLen
  | .finishRowInto buffered => .row true <$> onResponse ctx (·.finishRowInto buffered)
  | .tryFinishRowInto available => do
    let (complete, calls) ← onResponse ctx fun _ => MssqlTds.tryFinishRowInto available
    pure (.row complete calls)
  | .advance => .statement <$> onResponse ctx (·.advance)
  | .advanceToRows => .flag <$> onResponse ctx (·.advanceToRows)
  | .completeCurrentResult => .flag <$> onResponse ctx (·.completeCurrentResult)
  | .closeQuery => (fun _ => .done) <$> closeQuery ctx
  | .getReturnValues => do pure (.returnValues (← get).response.returnValues)
  | .getReturnStatus => do pure (.returnStatus (← get).response.lastReturnStatus)
  | .takeInfoMessages => do
    let c ← get
    set { c with response := { c.response with infoMessages := [] } }
    pure (.messages c.response.infoMessages)
  | .writeStreamedChunk chunk =>
    (fun _ => .done) <$> onStream (StreamClient.writeStreamedChunk retract chunk)
  | .writeStreamedNull => (fun _ => .done) <$> onStream StreamClient.writeStreamedNull
  | .endStreamedParam prepared answer => do
    let (status, result) ← endStreamedParam ctx serializeTable retract prepared answer
    pure (.streamed status result)

/-- Perform the operations one after the other, whether they fail or not. -/
def performAll : List Operation → TdsClient → List (TdsResult Outcome)
  | [], _ => []
  | operation :: operations, c =>
    match perform ctx serializeTable retract operation c with
    | .ok outcome c => .ok outcome :: performAll operations c
    | .error e c => .error e :: performAll operations c

end TdsClient

end MssqlTds
