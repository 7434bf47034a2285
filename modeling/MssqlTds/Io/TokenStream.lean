import MssqlTds.Io.RowStream
import MssqlTds.Token.Tokens

/-!
# Reading tokens and rows

Between the results of a response the client reads tokens (`receiveToken`).  Inside a result set it
reads rows and the tokens between them: whole rows (`receiveRowInto`), or only the header of a row,
whose columns are then read by `resumeRowInto`.
-/

namespace MssqlTds

open Reader

/-- What row reading needs to know about the result set. -/
structure RowContext where
  metadata : ColMetadataToken
  decryptor : Option CellDecryptor

namespace RowContext

variable (context : RowContext)

def columns : List ColumnMetadata := context.metadata.columns.map (·.toColumnMetadata)

/-- The place before the first column of a plain row. -/
def rowStart : RowPauseState where
  nextColumnIndex := 0
  columns := context.columns
  nbcNullBitmap := none
  decryptor := context.decryptor
  covers := by simp

/-- The place before the first column of a row with a bitmap of its `NULL`s. -/
def nbcRowStart (bitmap : List UInt8) (h : context.columns.length ≤ 8 * bitmap.length) :
    RowPauseState where
  nextColumnIndex := 0
  columns := context.columns
  nbcNullBitmap := some bitmap
  decryptor := context.decryptor
  covers := by simpa using h

def nbcBitmapLength : ℕ := (context.columns.length + 7) / 8

def readNbcBitmap : TdsReader RowPauseState := do
  let bitmap ← readBytes context.nbcBitmapLength
  if h : context.columns.length ≤ 8 * bitmap.length then pure (context.nbcRowStart bitmap h)
  else throw (.protocolError (s!"NBCROW null bitmap truncated: expected " ++
    s!"{context.nbcBitmapLength} bytes, read {bitmap.length}"))

end RowContext

inductive RowHeader where
  | positioned (row : RowPauseState)
  | token (token : Tokens)

/-- A row with the calls its writer received, or a token that is not a row. -/
inductive RowRead where
  | row (calls : List RowCall) (result : RowReadResult)
  | token (token : Tokens)

section

variable (registry : TokenParserRegistry)

def receiveToken (isColumnEncryptionSupported : Bool) : TdsReader Tokens := do
  let tokenTypeByte ← readByte
  let tokenType ← liftReader (TokenType.tryFrom tokenTypeByte)
  dispatchToken registry isColumnEncryptionSupported tokenType

def receiveRowHeader (context : RowContext) : TdsReader RowHeader := do
  let tokenTypeByte ← readByte
  let tokenType ← liftReader (TokenType.tryFrom tokenTypeByte)
  match tokenType with
  | .row => pure (.positioned context.rowStart)
  | .nbcRow => .positioned <$> context.readNbcBitmap
  | tokenType => .token <$> dispatchToken registry false tokenType

variable (cs : Codecs) (buffered : ℕ → ℕ)

/-- Go on with a row whose token has been read. -/
def resumeRowInto (row : RowPauseState) (plan : ColumnPolicy) :
    TdsReader (List RowCall × RowReadResult) :=
  driveRowColumns cs row plan buffered

def receiveRowInto (context : RowContext) (plan : ColumnPolicy) : TdsReader RowRead := do
  match ← receiveRowHeader registry context with
  | .positioned row =>
    let (calls, result) ← resumeRowInto cs buffered row plan
    pure (.row calls result)
  | .token token => pure (.token token)

end

/-! ### From the buffer -/

/-- The header of a row, if the first `available` bytes of the message hold it. -/
def tryReceiveRowHeader (context : RowContext) (available : ℕ) (q : List UInt8) :
    Option (RowPauseState × List UInt8) :=
  match q.take available with
  | [] => none
  | token :: payload =>
    if token = TokenType.row.code then some (context.rowStart, q.drop 1)
    else if token = TokenType.nbcRow.code then
      let bitmap := payload.take context.nbcBitmapLength
      if h : context.columns.length ≤ 8 * bitmap.length then
        some (context.nbcRowStart bitmap h, q.drop (1 + context.nbcBitmapLength))
      else none
    else none

end MssqlTds
