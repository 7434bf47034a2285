import MssqlTds.Connection.ResponseWalk

/-!
# From result to result

`advanceToResultBoundary` reads to the next result of a response.  The `MORE` flag of a `DONEINPROC`
may only announce the end of the procedure, so after one the client looks ahead for that end
(`settleRpcTerminator`) and parks whatever else it finds.
-/

namespace MssqlTds

open Reader ResponseM

namespace ResponseContext

variable (ctx : ResponseContext)

/-! ### The end of a procedure -/

/-- In a batched execution only a return status and the `DONE` of the set are read. -/
def settlePreparedBatchTerminator : ResponseM Unit := do
  modify fun r => { r with currentResultEndedWithDoneInProc := false }
  settling (fun r _ => r.abandonPreparedBatch) do
    let first ← ctx.nextResponseToken
    let token ← match first with
      | .returnStatus value => do
        modify fun r => { r with lastReturnStatus := .received value }
        ctx.nextResponseToken
      | token => pure token
    match token with
    | .done _ | .doneProc _ => do
      let r ← get
      match r.preparedBatch with
      | some batch =>
        if batch.current.isNone then set (r.applyResultBoundary .end).1 else pure ()
      | none => pure ()
    | token => modify fun r => { r with parkedToken := some token }

/-- End the batch after a token of the procedure's tail could not be processed. -/
def abandonAfterTailFailure : ResponseM Unit := fun r =>
  if r.hasOpenBatch then
    match ctx.drainStreamOrRetire r with
    | .ok _ r | .error _ r => .ok () { r with hasOpenBatch := false }
  else .ok () r

/-- What a failed step adds to the first error of the tail. -/
def keepFirst (failed : Option Error) (m : ResponseM Unit) : ResponseM (Option Error) := fun r =>
  match m r with
  | .ok _ r => .ok failed r
  | .error e r => .ok (failed.or (some e)) r

/-- The tail of a procedure, at most `fuel` tokens of it. -/
def settleRpcTerminatorLoop : ℕ → Option Error → ResponseM Unit
  | 0, _ => settling (fun r _ => r.failRpcTerminatorLookAhead)
      (throw (.protocolError "Too many RPC trailer tokens without terminal DONEPROC"))
  | fuel + 1, failed => do
    let token ← settling (fun r _ => r.failRpcTerminatorLookAhead) ctx.nextResponseToken
    match token with
    | .returnStatus value => do
      modify fun r => { r with lastReturnStatus := .received value }
      settleRpcTerminatorLoop fuel failed
    | .returnValue token => do
      settleRpcTerminatorLoop fuel (← keepFirst failed (ctx.takeReturnValue token))
    | .envChange captured => do
      settleRpcTerminatorLoop fuel (← keepFirst failed (ofResult captured))
    | .sessionState processed => do
      settleRpcTerminatorLoop fuel (← keepFirst failed (ofResult processed))
    | token =>
      if (match token with
          | .doneProc done => !done.hasMore && !done.hasError
          | _ => false) then do
        modify fun r => { r with hasOpenBatch := false }
        failed.elim (pure ()) throw
      else do
        modify fun r => { r with parkedToken := some token }
        match failed with
        | none => pure ()
        | some error => do
          ctx.abandonAfterTailFailure
          throw error

/-- Close the batch if nothing but the end of the procedure is left. -/
def settleRpcTerminator : ResponseM Unit := do
  if (← get).preparedBatch.isSome then ctx.settlePreparedBatchTerminator
  else ctx.settleRpcTerminatorLoop 10000 none

/-! ### The next boundary -/

/-- What a token between results leads to. -/
inductive BoundaryStep where
  | boundary (kind : ResultBoundaryKind)
  /-- Read on; the flag says that the statement has produced a message. -/
  | readOn (sawMessage : Bool)

/-- The columns of a result set. -/
def beginRowSet (metadata : ColMetadataToken) : ResponseM BoundaryStep := do
  modify fun r =>
    { r with
      currentResultSetHasBeenReadTillEnd := false
      currentResultEndedWithDoneInProc := false
      lastRowsAffected := -1
      dmlResultCounts := []
      lastResultRowCount := none
      failedStatementDonePending := false
      statementErrorCompletionPending := false }
  pure (.boundary (.rowSet metadata))

/-- The `DONE` of a statement without a result set is a result if it has a count or a message came
before it. -/
def endStatement (loopCount : ℕ) (sawMessage : Bool) (done : DoneToken) (isDoneInProc : Bool) :
    ResponseM BoundaryStep := do
  let r ← get
  let completesFailedStatement := r.failedStatementDonePending ||
    (!isDoneInProc && done.hasError && r.statementErrorCompletionPending)
  set { r with lastResultRowCount := none, failedStatementDonePending := false }
  validateDoneError done isDoneInProc
  modify fun r =>
    { r with
      currentResultSetHasBeenReadTillEnd := true
      currentResultEndedWithDoneInProc := isDoneInProc }
  let hasUpdateCount := done.hasCount && done.curCmd != commandSelect && !completesFailedStatement
  (if hasUpdateCount then modify fun r =>
      { r with
        lastRowsAffected := signedCount done.rowCount
        dmlResultCounts := r.dmlResultCounts ++ [signedCount done.rowCount] }
    else pure ())
  if hasUpdateCount || sawMessage then do
    (if !hasUpdateCount then modify fun r => { r with lastRowsAffected := -1 } else pure ())
    modify fun r => { r with hasOpenBatch := done.hasMore }
    (if done.hasMore && isDoneInProc then do
        ctx.settleRpcTerminator
        modify fun r => { r with currentResultEndedWithDoneInProc := false }
      else pure ())
    pure (.boundary (.noRows (if hasUpdateCount then some done.rowCount else none)))
  else if !done.hasMore then do
    modify fun r => { r with hasOpenBatch := false }
    pure (.boundary .end)
  else if loopCount > 10000 then
    throw (.usageError "Too many Done tokens with has_more=true without ColMetadata")
  else pure (.readOn sawMessage)

/-- The further errors of a failed statement, up to its first other token, which is parked.  `false`
if one of them ends the session. -/
def collectStatementErrors : ℕ → ℕ → List SqlErrorInfo → ResponseM (Bool × List SqlErrorInfo)
  | 0, _, _ => do
    modify (·.abandonFailedStatement)
    throw tooManyTokensAfterStatementError
  | fuel + 1, errorBytes, errors => do
    match ← settling (fun r _ => r.abandonFailedStatement) ctx.nextResponseToken with
    | .error error =>
      if errors.length ≥ maxErrorsPerFailedStatement then do
        modify (·.abandonFailedStatement)
        throw tooManyErrorsForOneStatement
      else do
        modify (·.recordErrorToken error)
        let errorBytes := errorBytes + errorTextBytes error
        if errorBytes > maxErrorTextBytesPerFailedStatement then do
          modify (·.abandonFailedStatement)
          throw tooMuchErrorTextForOneStatement
        else if (← get).continuesAfter error then
          collectStatementErrors fuel errorBytes (errors ++ [error])
        else pure (false, errors ++ [error])
    | .info message => do
      modify (·.captureInfoMessage message)
      collectStatementErrors fuel errorBytes errors
    | token => do
      modify fun r => { r with parkedToken := some token }
      pure (true, errors)

/-- An error between results: the statement fails with all its errors, or the batch ends. -/
def failStatement (error : ErrorToken) : ResponseM BoundaryStep := do
  modify (·.recordErrorToken error)
  if (← get).continuesAfter error then do
    let (continues, errors) ←
      ctx.collectStatementErrors maxTokensAfterStatementError (errorTextBytes error) [error]
    if continues then do
      modify (·.statementErrorKeepingBatchOpen)
      throw (.sqlServerError errors)
    else ctx.endBatchWithErrors errors
  else ctx.endBatchWithErrors [error]

def boundaryStep (loopCount : ℕ) (sawMessage : Bool) : Tokens → ResponseM BoundaryStep
  | .colMetadata metadata => beginRowSet metadata
  | .doneInProc done => ctx.endStatement loopCount sawMessage done true
  | .doneProc done | .done done => ctx.endStatement loopCount sawMessage done false
  | .envChange captured => do
    ofResult captured
    pure (.readOn sawMessage)
  | .sessionState processed => do
    ofResult processed
    pure (.readOn sawMessage)
  | .returnValue token => do
    ctx.takeReturnValue token
    pure (.readOn sawMessage)
  | .returnStatus value => do
    modify fun r => { r with lastReturnStatus := .received value }
    pure (.readOn sawMessage)
  | .error error => ctx.failStatement error
  | .info message => do
    modify (·.captureInfoMessage message)
    pure (.readOn true)
  | .tabName | .colInfo | .dataClassification => pure (.readOn sawMessage)
  | .order | .other =>
    throw (.usageError "Unexpected token while moving to next result boundary")

def boundaryLoop : ℕ → ℕ → Bool → ResponseM ResultBoundaryKind
  | 0, _, _ => throw .outOfFuel
  | fuel + 1, loopCount, sawMessage => do
    let token ← ctx.nextResponseToken
    match ← ctx.boundaryStep (loopCount + 1) sawMessage token with
    | .boundary kind => pure kind
    | .readOn sawMessage => boundaryLoop fuel (loopCount + 1) sawMessage

def advanceToResultBoundary : ResponseM ResultBoundaryKind := do
  let fuel := (← get).fuel
  settling .endWalkOnReadError (ctx.boundaryLoop fuel 0 false)

def applyBoundary (kind : ResultBoundaryKind) : ResponseM StatementResult := do
  let (r, result) := (← get).applyResultBoundary kind
  set r
  pure result

def positionOnFirstResult : ResponseM StatementResult := do
  applyBoundary (← ctx.advanceToResultBoundary)

/-! ### Batched executions -/

def readPreparedBatchLoop : ℕ → ResponseM StatementResult
  | 0 => throw .outOfFuel
  | fuel + 1 => do
    if ((← get).preparedBatch.bind (·.current)).isNone then applyBoundary .end
    else do
      match ← ctx.nextResponseToken with
      | .colMetadata metadata => do
        modify fun r =>
          { r.updateCurrentSet fun row => { row with hasResultSet := true } with
            lastRowsAffected := -1 }
        applyBoundary (.rowSet metadata)
      | .done _ | .doneProc _ | .doneInProc _ => readPreparedBatchLoop fuel
      | .error error => do
        modify (·.recordErrorToken error)
        readPreparedBatchLoop fuel
      | token => do
        let _ ← ctx.applyDrainSideEffect [] token
        readPreparedBatchLoop fuel

def errorsOfSet (batch : PreparedBatchReadState) (set : ℕ) : ℕ :=
  (((batch.current.toList ++ batch.completed).find? (·.rowIndex == set)).map
    (·.errors.length)).getD 0

def readPreparedBatchResult : ResponseM StatementResult := do
  let leaving := ((← get).preparedBatch.bind (·.current)).map (·.rowIndex)
  (if (← get).maybeHasUnreadRows then ctx.drainRows else pure ())
  modify fun r =>
    { r with preparedBatch := r.preparedBatch.map fun batch =>
        { batch with discarded := leaving.map fun set => (set, errorsOfSet batch set) } }
  ctx.readPreparedBatchLoop (← get).fuel

def advancePreparedBatch : ResponseM StatementResult :=
  settling (fun r _ => r.abandonPreparedBatch) ctx.readPreparedBatchResult

/-! ### The caller's moves -/

/-- Move to the next result. -/
def advance : ResponseM StatementResult := do
  modify fun r => { r with lastResultRowCount := none }
  let r ← get
  if !r.hasOpenBatch then pure .end
  else if r.preparedBatch.isSome then ctx.advancePreparedBatch
  else settling (fun r _ => r.abortPendingPrepareCapture) do
    (if r.maybeHasUnreadRows then ctx.drainRows else pure ())
    modify fun r => { r with lastResultRowCount := none }
    if !(← get).hasOpenBatch then pure .end
    else ctx.positionOnFirstResult

def advanceToRowsLoop : ℕ → ResponseM Bool
  | 0 => throw .outOfFuel
  | fuel + 1 => do
    match ← ctx.advance with
    | .rows => pure true
    | .noRows _ => advanceToRowsLoop fuel
    | .end => pure false

/-- Move to the next result set. -/
def advanceToRows : ResponseM Bool := do
  ctx.advanceToRowsLoop (← get).fuel

/-- Look for the end of the procedure after a result set; `true` if the response has ended. -/
def completeCurrentResult : ResponseM Bool := do
  let r ← get
  if !r.currentResultSetHasBeenReadTillEnd then pure false
  else if !r.hasOpenBatch then pure true
  else if !r.currentResultEndedWithDoneInProc then pure false
  else do
    settling (fun r _ => { r with currentMetadata := none }.abortPendingPrepareCapture)
      ctx.settleRpcTerminator
    pure !(← get).hasOpenBatch

/-- The errors of failed statements that `closeQuery` passes, up to a limit. -/
structure SkippedErrors where
  errors : List SqlErrorInfo
  bytes : ℕ
  dropped : ℕ

def SkippedErrors.keep (skipped : SkippedErrors) : List SqlErrorInfo → SkippedErrors
  | [] => skipped
  | error :: errors =>
    let bytes := skipped.bytes + errorTextBytes error
    keep (if skipped.dropped = 0 ∧ skipped.errors.length < maxErrorsPerFailedStatement ∧
        bytes ≤ maxErrorTextBytesPerFailedStatement then
      { skipped with errors := skipped.errors ++ [error], bytes := bytes }
      else { skipped with dropped := skipped.dropped + 1 }) errors

/-- Move to the end.  A statement error does not stop the drain while the batch stays open. -/
def closeQueryLoop : ℕ → SkippedErrors → ResponseM SkippedErrors
  | 0, _ => throw .outOfFuel
  | fuel + 1, skipped => fun r =>
    match ctx.advanceToRows r with
    | .ok true r => closeQueryLoop fuel skipped r
    | .ok false r => .ok skipped r
    | .error (.sqlServerError errors) r =>
      if r.hasOpenBatch then closeQueryLoop fuel (skipped.keep errors) r
      else .error (.sqlServerError (skipped.keep errors).errors) r
    | .error e r => .error e r

/-- The state after a query is closed. -/
def closed (r : Response) : Response :=
  { r.clearReturnValues.abortPendingPrepareCapture.resetStatementWalkState with
    currentMetadata := none
    currentResultEndedWithDoneInProc := false
    activeRowReadState := .idle
    rowAlreadyPositioned := false
    parkedToken := none
    hasOpenBatch := false }

/-- Read the rest of the response and forget it. -/
def closeQuery : ResponseM Unit := fun r =>
  if !r.hasOpenBatch then .ok () r.resetStatementWalkState
  else match ctx.closeQueryLoop r.fuel ⟨[], 0, 0⟩ r with
    | .ok skipped r =>
      if skipped.errors = [] then .ok () (closed r)
      else .error (.sqlServerError skipped.errors) (closed r)
    | .error e r =>
      .error e (if e.isSqlServerError then closed r else (closed r).retireAfterFailedDrain)

end ResponseContext

end MssqlTds
