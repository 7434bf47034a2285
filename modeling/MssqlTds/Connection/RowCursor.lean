import MssqlTds.Connection.ResultBoundary
import MssqlTds.Datatypes.PlpBuffered

/-!
# Reading the rows of a result set

Rows are read as a whole (`nextRowInto`), or the pull cursor is moved to a row (`nextRowCursor`)
whose columns are then asked for one by one (`readRowColumn`), large values in pieces
(`readActivePlpChunk`).  The `try` forms only use bytes that are buffered and report when those do
not suffice.

How many bytes are buffered is an argument of a call: `available` for its attempts, and `buffered`
for the columns it awaits.  A `Pending` result is `none`.
-/

namespace MssqlTds

open Reader ResponseM GenericDecoder

inductive CursorColumn where
  | value (value : ColumnValues) (variantBase : Option TdsDataType)
  /-- The value is read in pieces. -/
  | plpStreaming (collation : Option SqlCollation)
  /-- The column has been read or skipped. -/
  | alreadyConsumed
  /-- No row is positioned. -/
  | rowEnded
  deriving DecidableEq

/-- A piece of a value. -/
structure PlpChunk where
  bytes : List UInt8
  reachedEnd : Bool
  knownTotal : Option ℕ
  totalRead : ℕ
  deriving DecidableEq, Repr

/-- What an attempt on a whole row comes to. -/
inductive BufferedRowPoll where
  | complete
  | partialRow
  | exhausted
  | pending
  deriving DecidableEq, Repr

/-- The first value a writer received, with the base type announced for it. -/
def capturedColumn : List RowCall → Option (ColumnValues × Option TdsDataType)
  | [] => none
  | .value _ v :: _ => some (v, none)
  | .variantBaseType _ base :: calls => (capturedColumn calls).map fun (v, _) => (v, some base)

def noMetadata : Error := .usageError
  ("No metadata found while fetching the next row. Have you called the execute method or was " ++
    "the query supposed to return resultset?")

def columnOutOfRange (target columnCount : ℕ) : Error := .usageError
  s!"read_row_column target column {target} is out of range (row has {columnCount} columns)"

def noValueProduced (target : ℕ) : Error := .protocolError
  s!"Decoder produced no value for non-null column {target}"

namespace PlpChunkStreamReader

def knownLen (s : PlpChunkStreamReader) : Option ℕ :=
  match s.length with
  | .known length => some length
  | .unknown => none

end PlpChunkStreamReader

namespace ColMetadataToken

variable (metadata : ColMetadataToken)

def hasEncryptedColumn : Bool := metadata.columns.any (·.cryptoMetadata.isSome)

def supportsBufferedRows : Bool :=
  metadata.cekTable.isEmpty &&
    metadata.columns.all fun column => !column.isPlp && column.cryptoMetadata.isNone

end ColMetadataToken

/-- The place behind a column that was read; after the last column no row is positioned. -/
def RowPauseState.behind (row : RowPauseState) (col : ℕ) : ActiveRowReadState :=
  if col + 1 < row.columns.length then .rowPaused (row.atColumn (col + 1)) else .idle

/-- Failures of the buffered reads are about the response, not about the call. -/
def bufferedReadError : Error → Error
  | .usageError message => .protocolError message
  | e => e

namespace ResponseContext

variable (ctx : ResponseContext)

/-- The decryptor for the cells of a result set; `none` if they are not to be decrypted. -/
def resolveCellDecryptor (metadata : ColMetadataToken) : TdsResult (Option CellDecryptor) :=
  if ctx.effectiveCeSetting = .disabled then .ok none
  else if metadata.cekTable.isEmpty then
    if metadata.hasEncryptedColumn then .error (.columnEncryptionError
      ("Result set has encrypted column metadata but an empty CEK table; cannot resolve " ++
        "column encryption keys"))
    else .ok none
  else .ok (some (ctx.resolveKeys metadata.cekTable))

/-- Where a row that was read up to a pause leaves the cursor. -/
def paused : RowReadResult → ActiveRowReadState
  | .rowWritten => .idle
  | .rowPaused row => .rowPaused row
  | .plpPaused row stream => .plpPaused row stream

/-! ### Whole rows -/

def finishRowInto (buffered : ℕ → ℕ) : ResponseM (List RowCall) := do
  let r ← get
  match r.activeRowReadState with
  | .rowPaused row => do
    set { r with activeRowReadState := .idle }
    settling .endWalkOnReadError do
      let (calls, result) ← settling (fun r e => (r.failRead e).abortPendingPrepareCapture)
        (ctx.read (resumeRowInto ctx.codecs buffered row .decodeAll))
      match result with
      | .rowWritten => pure calls
      | .rowPaused _ => do
        modify fun r => { r with activeRowReadState := paused result }
        throw (.protocolError "DecodeAll unexpectedly paused while finishing a row")
      | .plpPaused _ _ => do
        modify fun r => { r with activeRowReadState := paused result }
        throw (.protocolError
          "DecodeAll unexpectedly paused at a PLP value while finishing a row")
  | _ => throw (.usageError "finish_row_into called without a resumable positioned row")

/-- Decode the buffered columns of a row and take their bytes. -/
def tryReadBufferedRowInto (row : RowPauseState) (available : ℕ) : ResponseM RowPrefix := fun r =>
  let done := tryReadBufferedRowPrefixInto row row.columns.length (r.unread.take available)
  .ok done { r with unread := r.unread.drop done.consumed }

def tryNextBufferedRowInto (available : ℕ) : ResponseM (List RowCall × BufferedRowPoll) :=
  settling .endWalkOnTryReadError do
    let r ← get
    match r.currentMetadata with
    | none => throw noMetadata
    | some metadata =>
      if r.currentResultSetHasBeenReadTillEnd then pure ([], .exhausted)
      else match r.activeRowReadState with
        | .rowPaused _ | .plpPaused _ _ => pure ([], .pending)
        | .idle =>
          if !metadata.supportsBufferedRows then pure ([], .pending)
          else match tryReceiveRowHeader ⟨metadata, none⟩ available r.unread with
            | none => pure ([], .pending)
            | some (row, rest) => do
              set { r with unread := rest }
              let done ← tryReadBufferedRowInto row (available - (r.unread.length - rest.length))
              if ← ofResult (done.outcome.mapError bufferedReadError) then
                pure (done.calls, .complete)
              else do
                modify fun r =>
                  { r with activeRowReadState := .rowPaused (row.atColumn done.nextColumnIndex) }
                pure (done.calls, .partialRow)

def nextRowLoop (context : RowContext) (buffered : ℕ → ℕ) : ℕ → ResponseM (Bool × List RowCall)
  | 0 => throw .outOfFuel
  | fuel + 1 => do
    let read ← settling .failRead
      (ctx.read (receiveRowInto ctx.registry ctx.codecs buffered context .decodeAll))
    match read with
    | .row calls .rowWritten => pure (true, calls)
    | .row _ _ =>
      settling .endWalkOnReadError (throw (.protocolError
        "Unexpected pause while decoding a full row (ColumnPolicy::DecodeAll)"))
    | .token token =>
      match ← settling .endWalkOnReadError (ctx.handleRowReadToken token) with
      | some hasRow => pure (hasRow, [])
      | none => nextRowLoop context buffered fuel

/-- Read the next row; `false` at the end of the result set. -/
def nextRowInto (available : ℕ) (buffered : ℕ → ℕ) : ResponseM (Bool × List RowCall) := do
  let r ← get
  if r.currentResultSetHasBeenReadTillEnd then pure (false, [])
  else settling (fun r _ => r.abortPendingPrepareCapture) do
    match r.currentMetadata with
    | none => throw noMetadata
    | some metadata =>
      match r.activeRowReadState with
      | .rowPaused _ | .plpPaused _ _ => throw (.usageError
          ("next_row_into called while a pull-cursor row is still active; advance the cursor " ++
            "with next_row_cursor before using the push row API"))
      | .idle => do
        match ← tryNextBufferedRowInto available with
        | (calls, .complete) => pure (true, calls)
        | (calls, .partialRow) => do
          let rest ← ctx.finishRowInto buffered
          pure (true, calls ++ rest)
        | (_, .exhausted) => pure (false, [])
        | (_, .pending) => do
          let decryptor ← ofResult (ctx.resolveCellDecryptor metadata)
          ctx.nextRowLoop ⟨metadata, decryptor⟩ buffered (← get).fuel

/-! ### The pull cursor -/

def nextRowCursorLoop (context : RowContext) : ℕ → ResponseM Bool
  | 0 => throw .outOfFuel
  | fuel + 1 => do
    match ← settling .failRead (ctx.read (receiveRowHeader ctx.registry context)) with
    | .positioned row => do
      modify fun r => { r with activeRowReadState := .rowPaused row }
      pure true
    | .token token =>
      match ← settling .endWalkOnReadError (ctx.handleRowReadToken token) with
      | some hasRow => pure hasRow
      | none => nextRowCursorLoop context fuel

/-- Move to the next row; `false` at the end of the result set. -/
def nextRowCursor : ResponseM Bool := do
  let r ← get
  if r.rowAlreadyPositioned then do
    set { r with rowAlreadyPositioned := false }
    pure true
  else match r.currentMetadata with
    | none => throw noMetadata
    | some metadata =>
      if r.currentResultSetHasBeenReadTillEnd then pure false
      else do
        ctx.drainActiveRowIfNeeded
        let decryptor ← ofResult (ctx.resolveCellDecryptor metadata)
        ctx.nextRowCursorLoop ⟨metadata, decryptor⟩ (← get).fuel

/-- Find out whether another row follows, and keep it for the next move. -/
def peekPastCurrentRow : ResponseM Bool := do
  let hasRow ← ctx.nextRowCursor
  modify fun r => { r with rowAlreadyPositioned := hasRow }
  pure hasRow

/-- Go on with a row up to column `target`. -/
def resumeToColumn (buffered : ℕ → ℕ) (row : RowPauseState) (target : ℕ) :
    ResponseM CursorColumn :=
  if target ≥ row.columns.length then do
    modify fun r => { r with activeRowReadState := .rowPaused row }
    throw (columnOutOfRange target row.columns.length)
  else if target < row.nextColumnIndex then do
    modify fun r => { r with activeRowReadState := .rowPaused row }
    pure .alreadyConsumed
  else do
    let (calls, result) ← settling .failRead
      (ctx.read (resumeRowInto ctx.codecs buffered row (.decodeOne target)))
    modify fun r => { r with activeRowReadState := paused result }
    match result with
    | .plpPaused _ stream => pure (.plpStreaming stream.collation)
    | .rowPaused _ | .rowWritten =>
      match capturedColumn calls with
      | some (value, variantBase) => pure (.value value variantBase)
      | none => settling .endWalkOnReadError (throw (noValueProduced target))

def readRowColumn (buffered : ℕ → ℕ) (target : ℕ) : ResponseM CursorColumn := do
  let r ← get
  set { r with activeRowReadState := .idle }
  match r.activeRowReadState with
  | .idle => pure .rowEnded
  | .rowPaused row => ctx.resumeToColumn buffered row target
  | .plpPaused row stream => do
    let _ ← ctx.drainActivePlp stream
    ctx.resumeToColumn buffered row target

/-- The piece a reader has just read. -/
def chunk (bytes : List UInt8) (s : PlpChunkStreamReader) : PlpChunk :=
  ⟨bytes, s.reachedEnd, s.knownLen, s.totalRead⟩

/-- Read the next piece of the active value into a slice of `outLen` bytes. -/
def readActivePlpChunk (outLen : ℕ) : ResponseM PlpChunk := do
  match (← get).activeRowReadState with
  | .plpPaused row stream => do
    let (bytes, inner) ← settling (fun r e => (r.failRead e).abortPendingPrepareCapture)
      (ctx.read (stream.inner.readInto outLen))
    modify fun r =>
      { r with activeRowReadState := .plpPaused row { stream with inner := inner } }
    pure (chunk bytes inner)
  | _ => throw (.usageError
      ("read_active_plp_bytes called with no active PLP stream; read_row_column must report " ++
        "CursorColumn::PlpStreaming first"))

end ResponseContext

/-! ### The pull cursor on buffered bytes -/

/-- An attempt on the first `available` bytes of the message; the bytes it takes are consumed if it
succeeds. -/
def tryBuffered {α : Type} (available : ℕ) (attempt : List UInt8 → TdsResult (Option (α × ℕ))) :
    ResponseM (Option α) := fun r =>
  match attempt (r.unread.take available) with
  | .ok (some (a, used)) => .ok (some a) { r with unread := r.unread.drop used }
  | .ok none => .ok none r
  | .error e => .error (bufferedReadError e) r

def tryNextRowCursor (available : ℕ) : ResponseM (Option Bool) :=
  settling .endWalkOnTryReadError do
    let r ← get
    if r.rowAlreadyPositioned then do
      set { r with rowAlreadyPositioned := false }
      pure (some true)
    else match r.currentMetadata with
      | none => throw noMetadata
      | some metadata =>
        if r.currentResultSetHasBeenReadTillEnd then pure (some false)
        else match r.activeRowReadState with
          | .rowPaused _ | .plpPaused _ _ => pure none
          | .idle =>
            if !metadata.cekTable.isEmpty || metadata.hasEncryptedColumn then pure none
            else match tryReceiveRowHeader ⟨metadata, none⟩ available r.unread with
              | none => pure none
              | some (row, rest) => do
                set { r with unread := rest, activeRowReadState := .rowPaused row }
                pure (some true)

def tryPeekPastCurrentRow (available : ℕ) : ResponseM (Option Bool) := do
  let poll ← tryNextRowCursor available
  match poll with
  | some hasRow => do
    modify fun r => { r with rowAlreadyPositioned := hasRow }
    pure poll
  | none => pure none

/-- The length prefix of a value, if it is buffered. -/
def PlpColumnStream.tryBeginBuffered (metadata : ColumnMetadata) (bytes : List UInt8) :
    TdsResult (Option (Option PlpColumnStream × ℕ)) := do
  let (plpType, collation) ← typeFromMetadata metadata
  let begun ← PlpChunkStreamReader.tryBeginBuffered.run bytes
  pure (begun.map fun (inner, used) => (inner.map fun inner => ⟨plpType, collation, inner⟩, used))

/-- A column's value with its base type, if it is buffered. -/
def tryDecodeBufferedWithBase (row : RowPauseState) (metadata : ColumnMetadata)
    (bytes : List UInt8) : TdsResult (Option ((ColumnValues × Option TdsDataType) × ℕ)) :=
  if row.decryptor.isSome then .ok none
  else if metadata.dataType = .ssVariant then do
    let read ← tryDecodeBufferedVariant bytes
    pure (read.map fun ((base, value), used) => ((value, base), used))
  else do
    let read ← tryDecodeBuffered metadata bytes
    pure (read.map fun (value, used) => ((value, none), used))

def tryReadNextColumn (available : ℕ) (row : RowPauseState) (metadata : ColumnMetadata)
    (target : ℕ) : ResponseM (Option CursorColumn) := do
  let begun ← if metadata.isPlp then
      tryBuffered available (PlpColumnStream.tryBeginBuffered metadata)
    else pure none
  match begun with
  | some (some stream) => do
    modify fun r =>
      { r with activeRowReadState := .plpPaused (row.atColumn (target + 1)) stream }
    pure (some (.plpStreaming stream.collation))
  | some none => do
    modify fun r => { r with activeRowReadState := row.behind target }
    pure (some (.value .null none))
  | none => do
    match ← tryBuffered available (tryDecodeBufferedWithBase row metadata) with
    | none => pure none
    | some (value, variantBase) => do
      modify fun r => { r with activeRowReadState := row.behind target }
      pure (some (.value value variantBase))

def tryReadRowColumn (available : ℕ) (target : ℕ) : ResponseM (Option CursorColumn) :=
  settling .endWalkOnTryReadError do
    match (← get).activeRowReadState with
    | .idle => pure (some .rowEnded)
    | .plpPaused _ _ => pure none
    | .rowPaused row =>
      match row.columns[target]? with
      | none => throw (columnOutOfRange target row.columns.length)
      | some metadata =>
        if target < row.nextColumnIndex then pure (some .alreadyConsumed)
        else if target ≠ row.nextColumnIndex then pure none
        else if row.isNull target then do
          modify fun r => { r with activeRowReadState := row.behind target }
          pure (some (.value .null none))
        else tryReadNextColumn available row metadata target

/-- The whole of a value whose only chunk is buffered. -/
def tryReadCompleteColumn (metadata : ColumnMetadata) (outLen : ℕ) (bytes : List UInt8) :
    TdsResult (Option (Option PlpChunk × ℕ)) := do
  match ← PlpColumnStream.tryBeginBuffered metadata bytes with
  | none => pure none
  | some (none, headerUsed) => pure (some (none, headerUsed))
  | some (some stream, headerUsed) =>
    let read ← (stream.inner.tryReadCompleteBuffered outLen).run (bytes.drop headerUsed)
    pure (read.map fun ((payload, inner), payloadUsed) =>
      (some (ResponseContext.chunk payload inner), headerUsed + payloadUsed))

/-- Read the whole of column `target`, which is the next one of the row; the inner `none` is `NULL`.
-/
def tryReadRowPlpComplete (available : ℕ) (target outLen : ℕ) :
    ResponseM (Option (Option PlpChunk)) :=
  settling .endWalkOnTryReadError do
    match (← get).activeRowReadState with
    | .rowPaused row =>
      match row.columns[target]? with
      | none => pure none
      | some metadata =>
        if target ≠ row.nextColumnIndex then pure none
        else do
          let result ← if row.isNull target then pure (some none)
            else tryBuffered available (tryReadCompleteColumn metadata outLen)
          match result with
          | none => pure none
          | some read => do
            modify fun r => { r with activeRowReadState := row.behind target }
            pure (some read)
    | _ => pure none

/-- Read the next piece of the active value.  `attempts` are the numbers of bytes that are buffered
at first and after each packet that is at hand. -/
def tryReadActivePlpChunk (attempts : List ℕ) (outLen : ℕ) : ResponseM (Option PlpChunk) :=
  settling .endWalkOnTryReadError do
    match (← get).activeRowReadState with
    | .plpPaused row stream => go row stream attempts
    | _ => throw (.usageError "try_read_active_plp_chunk called with no active PLP stream")
where
  go (row : RowPauseState) (stream : PlpColumnStream) : List ℕ → ResponseM (Option PlpChunk)
    | [] => pure none
    | available :: attempts => fun r =>
      let (result, inner) := stream.inner.tryReadBuffered (r.unread.take available) outLen
      let stream := { stream with inner := inner }
      let r := { r with activeRowReadState := .plpPaused row stream }
      match result with
      | .ok (some (used, bytes)) =>
        .ok (some (ResponseContext.chunk bytes inner)) { r with unread := r.unread.drop used }
      | .ok none => go row stream attempts r
      | .error e => .error (bufferedReadError e) r

/-- Finish the row the cursor stands on, as far as it is buffered; `true` if it is complete. -/
def tryFinishRowInto (available : ℕ) : ResponseM (Bool × List RowCall) :=
  settling .endWalkOnTryReadError do
    match (← get).activeRowReadState with
    | .rowPaused row => do
      let done ← ResponseContext.tryReadBufferedRowInto row available
      modify fun r =>
        { r with activeRowReadState := .rowPaused (row.atColumn done.nextColumnIndex) }
      let complete ← ofResult (done.outcome.mapError bufferedReadError)
      (if complete then modify fun r => { r with activeRowReadState := .idle } else pure ())
      pure (complete, done.calls)
    | .plpPaused _ _ => pure (false, [])
    | .idle => throw (.usageError "try_finish_row_into called without a positioned row")

end MssqlTds
