import MssqlTds.Connection.Response

/-!
# Walking a response

`advance` moves from one result of a response to the next, `closeQuery` to its end.  Between results
the client reads tokens up to the next boundary (`advanceToResultBoundary`): the columns of a result
set, or the `DONE` of a statement that has something to report.  Inside a result set it reads rows
and the tokens between them (`handleRowReadToken`).  After an error it drains the rest of the
response, or, if the batch is to go on, keeps the batch open.

A loop is given as fuel the bytes that are left and two more rounds: every round reads a byte, but
for a parked token and the round that ends the loop.
-/

namespace MssqlTds

open Reader ResponseM

def saturatingAdd (a b : UInt64) : UInt64 :=
  if a.toNat + b.toNat < 2 ^ 64 then a + b else 0xFFFFFFFFFFFFFFFF

def signedCount (count : UInt64) : ℤ := min (count.toNat : ℤ) (2 ^ 63 - 1)

def Tokens.doneToken? : Tokens → Option (DoneToken × Bool)
  | .done token | .doneProc token => some (token, false)
  | .doneInProc token => some (token, true)
  | _ => none

/-- A result of a response, as it is found. -/
inductive ResultBoundaryKind where
  | rowSet (metadata : ColMetadataToken)
  | noRows (rowsAffected : Option UInt64)
  | «end»

/-- A result of a response, as the caller sees it. -/
inductive StatementResult where
  | rows
  | noRows (rowsAffected : Option UInt64)
  | «end»
  deriving DecidableEq, Repr

namespace Response

variable (r : Response)

def applyResultBoundary : ResultBoundaryKind → Response × StatementResult
  | .rowSet metadata =>
    ({ r with
        currentMetadata := some metadata
        hasOpenBatch := true
        currentResultSetHasBeenReadTillEnd := false
        currentResultEndedWithDoneInProc := false }, .rows)
  | .noRows rowsAffected => ({ r with currentMetadata := none }, .noRows rowsAffected)
  | .end =>
    ({ r with
        currentMetadata := none
        hasOpenBatch := false
        currentResultSetHasBeenReadTillEnd := true }, .end)

/-- The rounds a loop over the response can take. -/
def fuel : ℕ := r.unread.length + 2

end Response

/-- The set boundaries of a batched execution.  Every `DONE` that is not a `DONEINPROC` ends a set.
-/
def observePreparedBatchDone (token : Tokens) : ResponseM Unit := do
  let r ← get
  match r.preparedBatch, token.doneToken? with
  | some batch, some (done, inProc) =>
    match batch.current with
    | none => throw (.protocolError "Unexpected prepared batch completion")
    | some row =>
      if done.hasError && row.errors.isEmpty then do
        modify (·.markKnownDead)
        throw (.protocolError
          "Server reported an error for a batched RPC without an ERROR token")
      else do
        let row := if done.hasCount && done.curCmd != commandSelect then
          { row with rowsAffected := some (saturatingAdd (row.rowsAffected.getD 0) done.rowCount) }
          else row
        if inProc then set { r with preparedBatch := some { batch with current := some row } }
        else do
          let completed := batch.completed ++ [row]
          if done.rpcInBatch then
            match batch.remaining with
            | next :: remaining =>
              set { r with preparedBatch := some { batch with
                      current := some (PreparedBatchReadState.nextRow next)
                      remaining := remaining
                      completed := completed } }
            | [] => do
              set { r.markKnownDead with preparedBatch := some { batch with
                      current := none
                      completed := completed } }
              throw (.protocolError
                "Batched RPC continuation does not match the submitted parameter sets")
          else do
            set { r with preparedBatch := some { batch with
                    current := none
                    completed := completed } }
            if done.hasMore then do
              modify (·.markKnownDead)
              throw (.protocolError "Batched RPC results ended without a final DONE")
  | _, _ => pure ()

/-- An error-flagged `DONE` must complete a statement whose error has been returned. -/
def validateDoneError (done : DoneToken) (isDoneInProc : Bool) : ResponseM Unit := do
  let r ← get
  let completesReturnedError := r.statementErrorCompletionPending
  (if !isDoneInProc then set { r with statementErrorCompletionPending := false } else pure ())
  if done.hasError && !completesReturnedError then
    throw (.protocolError "Server reported error in DONE token without preceding ERROR token")

namespace ResponseContext

variable (ctx : ResponseContext)

def nextResponseToken : ResponseM Tokens := do
  let r ← get
  match r.parkedToken with
  | some token => do
    set { r with parkedToken := none }
    pure token
  | none => do
    let token ← settling .failRead
      (ctx.read (receiveToken ctx.registry ctx.isColumnEncryptionSupported))
    settling .endWalkOnReadError (observePreparedBatchDone token)
    pure token

def takeReturnValue (token : ReturnValueToken) : ResponseM Unit := do
  let returnValue ← ofResult (ctx.finalizeReturnValue (← get) token)
  modify (·.pushReturnValue returnValue)

/-! ### Draining -/

/-- A token between those that steer a drain.  Returns the errors collected so far. -/
def applyDrainSideEffect (collected : List SqlErrorInfo) : Tokens → ResponseM (List SqlErrorInfo)
  | .error error => do
    modify (·.recordErrorToken error)
    pure (collected ++ [error])
  | .info message => do
    modify (·.captureInfoMessage message)
    pure collected
  | .envChange captured => do
    ofResult captured
    pure collected
  | .sessionState processed => do
    ofResult processed
    pure collected
  | .returnValue token => do
    ctx.takeReturnValue token
    pure collected
  | .returnStatus value => do
    modify fun r => { r with lastReturnStatus := .received value }
    pure collected
  | _ => pure collected

/-- Skip the next row, or take the next token. -/
def skipRow (metadata : ColMetadataToken) : TdsReader RowRead :=
  receiveRowInto ctx.registry ctx.codecs (fun _ => 0) ⟨metadata, none⟩ .skipAll

/-- Skip the rows of a result set; `true` if its `DONE` ends the response. -/
def drainResultSetRowsLoop (metadata : ColMetadataToken) :
    ℕ → List SqlErrorInfo → ResponseM (Bool × List SqlErrorInfo)
  | 0, _ => throw .outOfFuel
  | fuel + 1, collected => do
    let read ← settling
      (fun r e => if leavesATokenUnread e then r.abandonFailedStatement else r)
      (ctx.read (ctx.skipRow metadata))
    match read with
    | .row _ .rowWritten => drainResultSetRowsLoop metadata fuel collected
    | .row _ _ => throw (.protocolError
        ("Row read paused while draining a result set; the drain writer never requests a " ++
          "pause"))
    | .token (.done done) | .token (.doneProc done) | .token (.doneInProc done) =>
      pure (!done.hasMore, collected)
    | .token (.colMetadata _) => throw (.protocolError
        ("Unexpected COLMETADATA token before the previous result set's DONE while draining"))
    | .token token => do
      let collected ← ctx.applyDrainSideEffect collected token
      drainResultSetRowsLoop metadata fuel collected

def drainResultSetRows (metadata : ColMetadataToken) (collected : List SqlErrorInfo) :
    ResponseM (Bool × List SqlErrorInfo) := do
  ctx.drainResultSetRowsLoop metadata (← get).fuel collected

def drainStreamLoop : ℕ → List SqlErrorInfo → ResponseM (List SqlErrorInfo)
  | 0, _ => throw .outOfFuel
  | fuel + 1, collected => do
    match ← ctx.nextResponseToken with
    | .done done | .doneProc done | .doneInProc done =>
      if done.hasMore then drainStreamLoop fuel collected
      else do
        (if !collected.isEmpty || done.hasError then modify (·.abortPendingPrepareCapture)
          else pure ())
        pure collected
    | .colMetadata metadata => do
      let (batchEnded, collected) ← ctx.drainResultSetRows metadata collected
      if batchEnded then pure collected else drainStreamLoop fuel collected
    | token => do
      let collected ← ctx.applyDrainSideEffect collected token
      drainStreamLoop fuel collected

/-- Read to the final `DONE` and return the errors on the way. -/
def drainStream : ResponseM (List SqlErrorInfo) := do
  ctx.drainStreamLoop (← get).fuel []

def drainStreamOrRetire : ResponseM (List SqlErrorInfo) :=
  settling (fun r _ => { r with hasOpenBatch := false }.retireAfterFailedDrain) ctx.drainStream

/-- The batch ends with these errors and those on the way to its end. -/
def endBatchWithErrors {α : Type} (errors : List SqlErrorInfo) : ResponseM α := fun r =>
  let closed (r : Response) : Response :=
    { r with
      hasOpenBatch := false
      currentResultSetHasBeenReadTillEnd := true
      currentMetadata := none }
  match ctx.drainStream r with
  | .ok drainErrors r => .error (.sqlServerError (errors ++ drainErrors)) (closed r)
  | .error _ r => .error (.sqlServerError errors) (closed r).retireAfterFailedDrain

/-! ### Inside a result set -/

/-- The `DONE` of a result set. -/
def handleRowDone (done : DoneToken) (endedWithDoneInProc : Bool) : ResponseM (Option Bool) := do
  (if (← get).preparedBatch.isNone then do
    validateDoneError done endedWithDoneInProc
    modify fun r =>
      { r with lastResultRowCount := if done.hasCount then some done.rowCount else none }
  else pure ())
  modify fun r =>
    { r with
      currentResultSetHasBeenReadTillEnd := true
      currentResultEndedWithDoneInProc := endedWithDoneInProc
      hasOpenBatch := if done.hasMore || r.preparedBatch.isSome then r.hasOpenBatch else false }
  let r ← get
  if r.rowSetErrors ≠ [] then do
    set { r.takeRowSetErrors with lastResultRowCount := none }
    throw (.sqlServerError r.rowSetErrors)
  else pure (some false)

/-- An error in a result set.  It is kept for the `DONE` if the batch goes on after it. -/
def handleRowError (error : ErrorToken) : ResponseM (Option Bool) := do
  modify (·.recordErrorToken error)
  let r ← get
  if r.preparedBatch.isSome then pure none
  else if r.continuesAfter error then
    if r.rowSetErrors.length ≥ maxErrorsPerFailedStatement then do
      modify (·.abandonFailedStatement)
      throw tooManyErrorsForOneStatement
    else do
      let bytes := r.rowSetErrorBytes + errorTextBytes error
      set { r with rowSetErrorBytes := bytes }
      if bytes > maxErrorTextBytesPerFailedStatement then do
        modify (·.abandonFailedStatement)
        throw tooMuchErrorTextForOneStatement
      else do
        modify fun r =>
          { r with
            rowSetErrors := r.rowSetErrors ++ [error]
            statementErrorCompletionPending := true }
        pure none
  else do
    set r.takeRowSetErrors
    ctx.endBatchWithErrors (r.rowSetErrors ++ [error])

def countRowSetErrorToken : ResponseM Unit := do
  let r ← get
  if r.rowSetErrors ≠ [] then do
    set { r with rowSetErrorTokens := r.rowSetErrorTokens + 1 }
    if r.rowSetErrorTokens + 1 > maxTokensAfterStatementError then do
      modify (·.abandonFailedStatement)
      throw tooManyTokensAfterStatementError

/-- A token between rows; `some false` if it ends the result set. -/
def handleRowReadToken (token : Tokens) : ResponseM (Option Bool) := do
  observePreparedBatchDone token
  countRowSetErrorToken
  match token with
  | .doneInProc done => handleRowDone done true
  | .doneProc done | .done done => handleRowDone done false
  | .order | .tabName | .colInfo | .dataClassification => pure none
  | .envChange captured => do
    ofResult captured
    pure none
  | .sessionState processed => do
    ofResult processed
    pure none
  | .returnValue token => do
    ctx.takeReturnValue token
    pure none
  | .error error => ctx.handleRowError error
  | .colMetadata _ => throw (.usageError
      ("Unexpected ColMetadata token encountered while reading rows. This typically indicates " ++
        "the API was not used correctly - you may need to call advance_to_rows() to advance to " ++
        "the next result set."))
  | .info message => do
    modify (·.captureInfoMessage message)
    pure none
  | .returnStatus _ | .other =>
    throw (.protocolError "Unexpected token while finding the next row")

/-! ### The rest of a row -/

/-- Discard what is left of a value, in slices of 8 KiB. -/
def drainActivePlpLoop (stream : PlpColumnStream) : ℕ → ResponseM PlpColumnStream
  | 0 => throw .outOfFuel
  | fuel + 1 =>
    if stream.inner.reachedEnd then pure stream
    else do
      let (out, inner) ← settling .failRead (ctx.read (stream.inner.readInto 8192))
      if out = [] ∧ inner.reachedEnd = false then
        settling .endWalkOnReadError
          (throw (.protocolError "Active PLP drain made no progress before end-of-stream"))
      else drainActivePlpLoop { stream with inner := inner } fuel

def drainActivePlp (stream : PlpColumnStream) : ResponseM PlpColumnStream := do
  ctx.drainActivePlpLoop stream (← get).fuel

def skipRestOfRow (row : RowPauseState) : ResponseM Unit := do
  let (_, result) ← settling .failRead
    (ctx.read (resumeRowInto ctx.codecs (fun _ => 0) row .skipAll))
  match result with
  | .rowWritten => pure ()
  | .rowPaused row => modify fun r => { r with activeRowReadState := .rowPaused row }
  | .plpPaused row stream => modify fun r => { r with activeRowReadState := .plpPaused row stream }

def drainActiveRow : ResponseM Unit := do
  let r ← get
  set { r with activeRowReadState := .idle }
  match r.activeRowReadState with
  | .idle => pure ()
  | .rowPaused row => ctx.skipRestOfRow row
  | .plpPaused row stream => do
    let _ ← ctx.drainActivePlp stream
    ctx.skipRestOfRow row

/-- Discard the row the pull cursor stands on. -/
def drainActiveRowIfNeeded : ResponseM Unit := do
  match (← get).activeRowReadState with
  | .idle => pure ()
  | .rowPaused _ | .plpPaused _ _ => do
    modify fun r => { r with rowAlreadyPositioned := false }
    ctx.drainActiveRow

def drainRowsLoop (metadata : ColMetadataToken) : ℕ → ResponseM Unit
  | 0 => throw .outOfFuel
  | fuel + 1 => do
    match ← settling .failRead (ctx.read (ctx.skipRow metadata)) with
    | .row _ .rowWritten => drainRowsLoop metadata fuel
    | .row _ _ =>
      settling .endWalkOnReadError
        (throw (.protocolError "Unexpected pause while discarding a full row"))
    | .token token =>
      match ← settling .endWalkOnReadError (ctx.handleRowReadToken token) with
      | some false => pure ()
      | _ => drainRowsLoop metadata fuel

/-- Discard the rows that are left of the current result set. -/
def drainRows : ResponseM Unit := do
  if (← get).maybeHasUnreadRows then do
    ctx.drainActiveRowIfNeeded
    let r ← get
    if r.currentResultSetHasBeenReadTillEnd then pure ()
    else settling (fun r _ => r.abortPendingPrepareCapture) do
      match r.currentMetadata with
      | none =>
        settling .endWalkOnReadError
          (throw (.usageError "No metadata found while draining the current result set"))
      | some metadata => ctx.drainRowsLoop metadata r.fuel

end ResponseContext

end MssqlTds
