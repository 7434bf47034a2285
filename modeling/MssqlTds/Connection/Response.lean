import MssqlTds.Io.TokenStream
import MssqlTds.Security.CellCodec

/-!
# The state in which a response is read

A client keeps what it knows about the response it is reading: whether the batch is still open, the
columns of the current result set, the row the pull cursor stands on, a token that was read too
early, and the errors of a failed statement.  This module has that state, what happens to it when a
read fails, and the output values.

Timeouts, cancellation, data classification and connection resets are left out.
-/

namespace MssqlTds

open Reader Security

/-- How the client goes on after a failed statement. -/
inductive BatchErrorMode where
  | abort
  | continueBatch
  deriving DecidableEq, Repr

/-- Whether a command decrypts and encrypts. -/
inductive ExecutionColumnEncryptionSetting where
  | useConnectionSetting
  | enabled
  | resultSetOnly
  | disabled
  deriving DecidableEq, Repr

inductive ReturnStatus where
  | notReceived
  | received (value : Int32)
  deriving DecidableEq, Repr

/-- An output value as the caller sees it. -/
abbrev ReturnValue := ReturnValueToken

/-- The row the pull cursor stands on. -/
inductive ActiveRowReadState where
  | idle
  | rowPaused (row : RowPauseState)
  /-- Inside a value; `row` is the place behind it. -/
  | plpPaused (row : RowPauseState) (stream : PlpColumnStream)

/-- What is known about one parameter set of a batched execution. -/
structure PreparedBatchRowResult where
  rowIndex : ℕ
  rowsAffected : Option UInt64
  errors : List SqlErrorInfo
  hasResultSet : Bool
  hasInfo : Bool
  deriving DecidableEq, Repr

/-- The state of a batched execution whose rows are kept. -/
structure PreparedBatchReadState where
  remaining : List ℕ
  current : Option PreparedBatchRowResult
  completed : List PreparedBatchRowResult
  /-- The set whose unread rows the last advance discarded, with its number of errors. -/
  discarded : Option (ℕ × ℕ)
  deriving DecidableEq, Repr

def PreparedBatchReadState.nextRow (rowIndex : ℕ) : PreparedBatchRowResult :=
  ⟨rowIndex, none, [], false, false⟩

/-- The part of a client that reads a response. -/
structure Response where
  /-- The bytes of the response that have not been read. -/
  unread : List UInt8
  /-- A token that was read too early; it comes before `unread`. -/
  parkedToken : Option Tokens
  connectionKnownDead : Bool
  hasOpenBatch : Bool
  currentMetadata : Option ColMetadataToken
  currentResultSetHasBeenReadTillEnd : Bool
  currentResultEndedWithDoneInProc : Bool
  batchErrorMode : BatchErrorMode
  /-- Error-flagged `DONE`s of a statement whose error has been returned may follow. -/
  statementErrorCompletionPending : Bool
  /-- The next `DONE` ends a statement whose error has been returned. -/
  failedStatementDonePending : Bool
  rowSetErrors : List SqlErrorInfo
  rowSetErrorTokens : ℕ
  rowSetErrorBytes : ℕ
  lastRowsAffected : ℤ
  dmlResultCounts : List ℤ
  lastResultRowCount : Option UInt64
  returnValues : List ReturnValue
  lastReturnStatus : ReturnStatus
  infoMessages : List String
  /-- The keys of the encrypted output parameters by normalized name. -/
  outputParamCeks : List (String × List UInt8)
  /-- The names of the output parameters that were bound by their place. -/
  outputNamesByOrdinal : List (UInt16 × String)
  /-- The statement that waits for its handle. -/
  pendingCapture : Option ℕ
  preparedHandles : List (ℕ × Int32)
  preparedBatch : Option PreparedBatchReadState
  activeRowReadState : ActiveRowReadState
  /-- The row was found by a look ahead and has not been given to the caller. -/
  rowAlreadyPositioned : Bool

/-- What does not change while a response is read. -/
structure ResponseContext where
  codecs : Codecs
  registry : TokenParserRegistry
  crypto : Crypto
  isColumnEncryptionSupported : Bool
  resolveKeys : List CekTableEntry → CellDecryptor
  /-- Where a failed read leaves the reader. -/
  afterFailure : List UInt8 → List UInt8
  /-- The column encryption setting of the command, with that of the connection put in. -/
  effectiveCeSetting : ExecutionColumnEncryptionSetting

/-- Calls that read a response; a failed one keeps the state it reached. -/
abbrev ResponseM := EStateM Error Response

/-- The most severe error after which a session goes on, and one. -/
def fatalErrorSeverity : UInt8 := 20

def maxErrorsPerFailedStatement : ℕ := 1000

def maxErrorTextBytesPerFailedStatement : ℕ := 8 * 1024 * 1024

def maxTokensAfterStatementError : ℕ := 100000

def tooManyErrorsForOneStatement : Error :=
  .protocolError "Too many ERROR tokens for one statement without a DONE"

def tooMuchErrorTextForOneStatement : Error :=
  .protocolError "Too much ERROR text for one statement without a DONE"

def tooManyTokensAfterStatementError : Error :=
  .protocolError "Too many tokens after a statement error without a DONE"

def errorTextBytes (error : SqlErrorInfo) : ℕ :=
  error.message.utf8ByteSize + (error.serverName.map (·.utf8ByteSize)).getD 0 +
    (error.procName.map (·.utf8ByteSize)).getD 0

def Error.isSqlServerError : Error → Bool
  | .sqlServerError _ => true
  | _ => false

def Error.isUsageError : Error → Bool
  | .usageError _ => true
  | _ => false

/-! ### Failed reads -/

namespace Response

variable (r : Response)

def maybeHasUnreadRows : Bool := !r.currentResultSetHasBeenReadTillEnd

def markKnownDead : Response := { r with connectionKnownDead := true }

/-- Nothing settles an interruption here, so a failed drain always retires the connection. -/
def retireAfterFailedDrain : Response := r.markKnownDead

def takeRowSetErrors : Response :=
  { r with rowSetErrors := [], rowSetErrorTokens := 0, rowSetErrorBytes := 0 }

def resetStatementWalkState : Response :=
  { r.takeRowSetErrors with
    batchErrorMode := .abort
    statementErrorCompletionPending := false
    failedStatementDonePending := false
    lastResultRowCount := none }

def clearReturnValues : Response := { r with returnValues := [], outputNamesByOrdinal := [] }

def abortPendingPrepareCapture : Response := { r with pendingCapture := none }

/-- The response can no longer be read. -/
def abandonFailedStatement : Response :=
  { r with
    hasOpenBatch := false
    currentMetadata := none
    currentResultSetHasBeenReadTillEnd := true }.resetStatementWalkState.retireAfterFailedDrain

/-- A failure other than a statement error ends a walk that goes on after statement errors. -/
def endWalkOnReadError (error : Error) : Response :=
  if r.batchErrorMode = .continueBatch ∧ !error.isSqlServerError then r.abandonFailedStatement
  else r

def failRead (error : Error) : Response :=
  if leavesATokenUnread error then r.abandonFailedStatement else r.endWalkOnReadError error

/-- The buffered reads raise a usage error only before they read anything. -/
def endWalkOnTryReadError (error : Error) : Response :=
  if error.isUsageError then r else r.endWalkOnReadError error

def failRpcTerminatorLookAhead : Response := { r with hasOpenBatch := false }.retireAfterFailedDrain

def abandonPreparedBatch : Response :=
  { r with
    currentMetadata := none
    currentResultSetHasBeenReadTillEnd := true
    preparedBatch := none }.failRpcTerminatorLookAhead

/-- Put the current parameter set of a batched execution through `f`. -/
def updateCurrentSet (f : PreparedBatchRowResult → PreparedBatchRowResult) : Response :=
  { r with preparedBatch := r.preparedBatch.map fun batch =>
      { batch with current := batch.current.map f } }

def captureInfoMessage (message : String) : Response :=
  { r.updateCurrentSet fun row => { row with hasInfo := true } with
    infoMessages := r.infoMessages ++ [message] }

/-- A fatal error breaks the session. -/
def recordErrorToken (error : ErrorToken) : Response :=
  let r := if error.severity ≥ fatalErrorSeverity then r.markKnownDead else r
  r.updateCurrentSet fun row => { row with errors := row.errors ++ [error] }

/-- The rest of the batch stays readable after this error. -/
def continuesAfter (error : ErrorToken) : Bool :=
  r.batchErrorMode = .continueBatch && decide (error.severity < fatalErrorSeverity)

def statementErrorKeepingBatchOpen : Response :=
  { r with
    hasOpenBatch := true
    statementErrorCompletionPending := true
    failedStatementDonePending := true
    currentMetadata := none
    currentResultSetHasBeenReadTillEnd := true
    currentResultEndedWithDoneInProc := false
    lastResultRowCount := none }

end Response

namespace ResponseM

variable {α : Type}

/-- Settle the state when the call fails. -/
def settling (settle : Response → Error → Response) (m : ResponseM α) : ResponseM α := fun r =>
  match m r with
  | .ok a r => .ok a r
  | .error e r => .error e (settle r e)

/-- A call that cannot fail, as a step. -/
def ofResult (result : TdsResult α) : ResponseM α :=
  match result with
  | .ok a => pure a
  | .error e => throw e

end ResponseM

/-! ### Output values -/

/-- A name without its `@`, in capitals. -/
def normalizeParamName (name : String) : String :=
  String.ofList ((match name.toList with
    | '@' :: rest => rest
    | chars => chars).map Char.toUpper)

namespace ResponseContext

variable (ctx : ResponseContext)

def read {α : Type} (m : TdsReader α) : ResponseM α := fun r =>
  match m r.unread with
  | .ok (a, rest) => .ok a { r with unread := rest }
  | .error e => .error e { r with unread := ctx.afterFailure r.unread }

def nameReturnValue (names : List (UInt16 × String)) (token : ReturnValueToken) :
    ReturnValueToken :=
  if token.paramName.isEmpty then
    match names.find? (·.1 == token.paramOrdinal) with
    | some (_, name) =>
      { token with
        paramName := name
        columnMetadata := { token.columnMetadata with columnName := name } }
    | none => token
  else token

/-- An output value; an encrypted one is decrypted if the command is to decrypt. -/
def finalizeReturnValue (r : Response) (token : ReturnValueToken) : TdsResult ReturnValue :=
  let token := nameReturnValue r.outputNamesByOrdinal token
  match token.columnMetadata.cryptoMetadata with
  | none => .ok token
  | some cryptoMetadata =>
    if ctx.effectiveCeSetting ≠ .enabled then .ok token
    else match r.outputParamCeks.find? (·.1 == normalizeParamName token.paramName) with
      | none => .error (.columnEncryptionError ("No column encryption key available to decrypt " ++
          s!"encrypted output parameter {token.paramName}"))
      | some (_, cek) =>
        match token.value with
        | .null => .ok { token with value := .null }
        | .bytes cipher => do
          let decrypted ← decryptCell ctx.crypto cryptoMetadata cek cipher
          pure { token with value := decrypted }
        | other => .error (.columnEncryptionError
            (s!"Encrypted output parameter {token.paramName} was expected to arrive as " ++
              "varbinary cipher bytes, but decoded as " ++ reprStr other))

end ResponseContext

/-- Collect an output value.  The handle of a statement that waits for it is kept apart. -/
def Response.pushReturnValue (r : Response) (returnValue : ReturnValue) : Response :=
  match r.pendingCapture, returnValue.value with
  | some statementId, .int handle =>
    if returnValue.paramOrdinal = 0 then
      { r with
        pendingCapture := none
        preparedHandles := (statementId, handle) :: r.preparedHandles }
    else { r with returnValues := r.returnValues ++ [returnValue] }
  | _, _ => { r with returnValues := r.returnValues ++ [returnValue] }

end MssqlTds
