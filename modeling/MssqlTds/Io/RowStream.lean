import MssqlTds.Datatypes.BufferedDecoder
import MssqlTds.Datatypes.PlpStream

/-!
# Reading the columns of a row

A `ROW` or `NBCROW` token is followed by the values of its columns.  `driveRowColumns` reads them,
from any column on and as far as its plan says, and may leave the row paused.  At every column it
first tries the bytes that are buffered.  How many bytes are buffered when depends on the packets
the message came in, so it is a parameter.

`tryReadBufferedRowPrefixInto` decodes as many columns as are buffered, and never awaits.
-/

namespace MssqlTds

open Reader RowCall GenericDecoder

/-- Turns the cipher bytes of a cell into its value. -/
abbrev CellDecryptor := CryptoMetadata → List UInt8 → TdsResult ColumnValues

structure RowPauseState where
  /-- The first column that has not been decoded. -/
  nextColumnIndex : ℕ
  columns : List ColumnMetadata
  /-- One bit for each column, low bit first; `none` for a plain `ROW`. -/
  nbcNullBitmap : Option (List UInt8)
  decryptor : Option CellDecryptor
  /-- The bitmap has a bit for every column. -/
  covers : ∀ bitmap ∈ nbcNullBitmap, columns.length ≤ 8 * bitmap.length

namespace RowPauseState

variable (row : RowPauseState)

/-- The bitmap says that the column is `NULL`; it has no bytes in the row. -/
def isNull (col : ℕ) : Bool :=
  match row.nbcNullBitmap with
  | some bitmap => bitmap.getD (col / 8) 0 &&& (1 <<< UInt8.ofNat (col % 8)) != 0
  | none => false

/-- The same row at another column. -/
def atColumn (col : ℕ) : RowPauseState := { row with nextColumnIndex := col }

end RowPauseState

/-- A partially length-prefixed column that is read in pieces. -/
structure PlpColumnStream where
  plpType : PartialLengthType
  collation : Option SqlCollation
  inner : PlpChunkStreamReader

namespace PlpColumnStream

def typeFromMetadata (metadata : ColumnMetadata) :
    TdsResult (PartialLengthType × Option SqlCollation) :=
  match metadata.typeInfo.typeInfoVariant with
  | .partialLen plpType _ collation => .ok (plpType, collation)
  | _ => .error (.protocolError (s!"Column '{metadata.columnName}' " ++
      s!"(type {metadata.dataType.name}) is not a PLP type"))

/-- Read the length prefix; `none` for `NULL`. -/
def begin (metadata : ColumnMetadata) : TdsReader (Option PlpColumnStream) := do
  let (plpType, collation) ← liftReader (typeFromMetadata metadata)
  let inner ← PlpChunkStreamReader.begin
  pure (inner.map fun inner => ⟨plpType, collation, inner⟩)

def skipToEnd (stream : PlpColumnStream) : TdsReader PlpColumnStream := do
  let inner ← stream.inner.skipToEnd
  pure { stream with inner := inner }

end PlpColumnStream

/-- How far to decode a row. -/
inductive ColumnPolicy where
  | decodeAll
  /-- Decode the columns before `endColumn`, then pause. -/
  | decodePrefix (endColumn : ℕ)
  /-- Skip the columns before `target`, decode it, then pause. -/
  | decodeOne (target : ℕ)
  | skipAll
  deriving DecidableEq, Repr

namespace ColumnPolicy

/-- The row is paused before column `col`. -/
def endsBefore : ColumnPolicy → ℕ → Bool
  | decodePrefix endColumn, col => decide (col ≥ endColumn)
  | _, _ => false

def stopHere : ColumnPolicy → ℕ → Bool
  | decodeOne target, col => target == col
  | _, _ => false

def skip : ColumnPolicy → ℕ → Bool
  | skipAll, _ => true
  | decodeOne target, col => decide (col < target)
  | decodeAll, _ | decodePrefix _, _ => false

end ColumnPolicy

inductive RowReadResult where
  | rowWritten
  | rowPaused (state : RowPauseState)
  /-- At a partially length-prefixed column, before its payload. -/
  | plpPaused (state : RowPauseState) (stream : PlpColumnStream)

/-! ### One column -/

section

variable (cs : Codecs) (row : RowPauseState) (metadata : ColumnMetadata) (col : ℕ)

/-- The cipher bytes of a column, or `none` for `NULL`. -/
def cipherBytes : ColumnValues → TdsResult (Option (List UInt8))
  | .null => .ok none
  | .bytes bytes => .ok (some bytes)
  | other => .error (.columnEncryptionError (s!"Encrypted column '{metadata.columnName}' was " ++
      "expected to arrive as varbinary cipher bytes, but decoded as " ++ reprStr other))

def decryptEncryptedColumn (decryptor : CellDecryptor) : TdsReader ColumnValues := do
  let value ← decode cs metadata
  match ← liftReader (cipherBytes metadata value) with
  | none => pure .null
  | some cipher =>
    match metadata.cryptoMetadata with
    | some cryptoMetadata => liftReader (decryptor cryptoMetadata cipher)
    | none => throw (.columnEncryptionError
        s!"decrypt_encrypted_column called for non-encrypted column '{metadata.columnName}'")

/-- Without a decryptor an encrypted column is read as it is on the wire. -/
def decodeOrDecryptColumn : TdsReader (List RowCall) :=
  match metadata.cryptoMetadata.isSome, row.decryptor with
  | true, some decryptor =>
    wrote (writeColumnValue col) (decryptEncryptedColumn cs metadata decryptor)
  | true, none => decodeInto metadata col cs
  | false, _ => decodeInto metadata col cs

/-- Read a column, from the first `buffered` bytes of the message if they hold it. -/
def readColumn (buffered : ℕ) : TdsReader (List RowCall) := fun q =>
  let bufferedSlice := q.take buffered
  if bufferedSlice.isEmpty then decodeOrDecryptColumn cs row metadata col q
  else match tryDecodeBufferedInto metadata col bufferedSlice with
    | .ok (some (calls, consumed)) =>
      if consumed ≤ bufferedSlice.length then .ok (calls, q.drop consumed)
      else .error (.protocolError "Buffered column bytes disappeared before consumption")
    | .ok none => decodeOrDecryptColumn cs row metadata col q
    | .error e => .error e

/-- Read a column and drop its value. -/
def skipColumn : TdsReader Unit :=
  if metadata.isPlp then do
    match ← PlpColumnStream.begin metadata with
    | some stream => (fun _ => ()) <$> stream.skipToEnd
    | none => pure ()
  else (fun _ => ()) <$> decodeInto metadata col cs

/-- The result for a row that stops after column `col`. -/
def pauseAfterColumn : RowReadResult :=
  if col + 1 < row.columns.length then .rowPaused (row.atColumn (col + 1)) else .rowWritten

/-- Stop at a partially length-prefixed column.  An encrypted one cannot be streamed. -/
def pausePlpColumn : TdsReader (List RowCall × RowReadResult) :=
  if metadata.cryptoMetadata.isSome then
    throw (.unimplementedFeature "Always Encrypted paused PLP streaming"
      (s!"Encrypted PLP column '{metadata.columnName}' cannot be streamed via " ++
        "read_active_plp_bytes yet."))
  else do
    match ← PlpColumnStream.begin metadata with
    | none => pure ([writeNull col], pauseAfterColumn row col)
    | some stream => pure ([], .plpPaused (row.atColumn (col + 1)) stream)

end

/-! ### All columns -/

/-- Put the calls of earlier columns in front. -/
def behind (calls : List RowCall) (rest : List RowCall × RowReadResult) :
    List RowCall × RowReadResult :=
  (calls ++ rest.1, rest.2)

section

variable (cs : Codecs) (row : RowPauseState) (plan : ColumnPolicy) (buffered : ℕ → ℕ)

/-- The calls of a column, and the result if the row ends with it. -/
def driveColumn (metadata : ColumnMetadata) (col : ℕ) :
    TdsReader (List RowCall × Option RowReadResult) :=
  let stop := if plan.stopHere col then some (pauseAfterColumn row col) else none
  if row.isNull col then
    pure (if plan.skip col then [] else [writeNull col], stop)
  else if plan.skip col then (fun _ => ([], none)) <$> skipColumn cs metadata col
  else if plan.stopHere col && metadata.isPlp then
    (fun (calls, result) => (calls, some result)) <$> pausePlpColumn row metadata col
  else (fun calls => (calls, stop)) <$> readColumn cs row metadata col (buffered col)

def driveRowColumnsLoop : ℕ → List ColumnMetadata → TdsReader (List RowCall × RowReadResult)
  | _, [] => pure ([], .rowWritten)
  | col, metadata :: columns =>
    if plan.endsBefore col then pure ([], .rowPaused (row.atColumn col))
    else do
      match ← driveColumn cs row plan buffered metadata col with
      | (calls, some result) => pure (calls, result)
      | (calls, none) => behind calls <$> driveRowColumnsLoop (col + 1) columns

/-- Read the columns of a row from `nextColumnIndex` on.  When column `col` comes up, `buffered col`
bytes of the message are buffered. -/
def driveRowColumns : TdsReader (List RowCall × RowReadResult) :=
  driveRowColumnsLoop cs row plan buffered row.nextColumnIndex
    (row.columns.drop row.nextColumnIndex)

end

/-! ### The buffered columns -/

/-- How far the buffered columns of a row have been decoded. -/
structure RowPrefix where
  calls : List RowCall
  nextColumnIndex : ℕ
  consumed : ℕ
  outcome : TdsResult Bool

/-- In front of the first column that is left. -/
def RowPrefix.start (row : RowPauseState) : RowPrefix := ⟨[], row.nextColumnIndex, 0, .ok true⟩

section

variable (row : RowPauseState) (endColumn : ℕ) (bufferedBytes : List UInt8)

/-- The columns from `done.nextColumnIndex` on, with the bytes behind those of the columns before.
-/
def bufferedRowLoop (done : RowPrefix) : List ColumnMetadata → RowPrefix
  | [] => done
  | metadata :: columns =>
    let col := done.nextColumnIndex
    if ¬ col < endColumn then done
    else if row.isNull col then
      bufferedRowLoop { done with calls := done.calls ++ [writeNull col]
                                  nextColumnIndex := col + 1 } columns
    else if done.consumed > bufferedBytes.length then
      { done with outcome := .error (.protocolError
          "Buffered row decoder consumed past the available data") }
    else match tryDecodeBufferedInto metadata col (bufferedBytes.drop done.consumed) with
      | .ok (some (calls, used)) =>
        bufferedRowLoop { done with calls := done.calls ++ calls
                                    nextColumnIndex := col + 1
                                    consumed := done.consumed + used } columns
      | .ok none => { done with outcome := .ok false }
      | .error e => { done with outcome := .error e }

/-- Take the bytes of the decoded columns off the buffer. -/
def RowPrefix.consume (done : RowPrefix) : RowPrefix :=
  if done.consumed > bufferedBytes.length then
    { done with consumed := 0
                outcome := .error (.protocolError
                  (s!"Cannot consume {done.consumed} byte(s) from the packet buffer: only " ++
                    s!"{bufferedBytes.length} remain")) }
  else { done with outcome := (· && (decide (done.nextColumnIndex ≥ endColumn) ||
      decide (done.nextColumnIndex ≥ row.columns.length))) <$> done.outcome }

/-- Decode the buffered columns before `endColumn`; `false` if one of them has to be awaited. -/
def tryReadBufferedRowPrefixInto : RowPrefix :=
  if row.decryptor.isSome then { RowPrefix.start row with outcome := .ok false }
  else (bufferedRowLoop row endColumn bufferedBytes (.start row)
    (row.columns.drop row.nextColumnIndex)).consume row endColumn bufferedBytes

end

/-! ### A whole row -/

/-- Read the rest of a row with attempts on the bytes that are buffered, each with the number of
such bytes and the column to stop at, and then await what is left. -/
def readRow (cs : Codecs) (buffered : ℕ → ℕ) (row : RowPauseState) :
    List (ℕ × ℕ) → TdsReader (List RowCall × RowReadResult)
  | [] => driveRowColumns cs row .decodeAll buffered
  | (bufferedLen, endColumn) :: attempts => fun q =>
    let done := tryReadBufferedRowPrefixInto row endColumn (q.take bufferedLen)
    match done.outcome with
    | .ok _ => (behind done.calls <$> readRow cs buffered
        (row.atColumn done.nextColumnIndex) attempts)
        (q.drop done.consumed)
    | .error e => .error e

end MssqlTds
