import MssqlTds.Token.ColMetadata

/-!
# Tokens

A response is a sequence of tokens, each behind a byte that says what it is.  Rows are read by
`Io.TokenStream`.  Of the other tokens those that steer the reading of a response are parsed here;
the parsers of the rest are a parameter, and the model keeps of such a token what the client decides
by.
-/

namespace MssqlTds

open Reader

inductive TokenType where
  | altMetadata | altRow | colMetadata | colInfo | dataClassification | done | doneProc | doneInProc
  | envChange | error | featureExtAck | fedAuthInfo | info | loginAck | nbcRow | offset | order
  | returnStatus | returnValue | row | sessionState | sspi | tabName
  deriving DecidableEq, Repr

namespace TokenType

def code : TokenType → UInt8
  | altMetadata => 0x88
  | altRow => 0xD3
  | colMetadata => 0x81
  | colInfo => 0xA5
  | dataClassification => 0xA3
  | done => 0xFD
  | doneProc => 0xFE
  | doneInProc => 0xFF
  | envChange => 0xE3
  | error => 0xAA
  | featureExtAck => 0xAE
  | fedAuthInfo => 0xEE
  | info => 0xAB
  | loginAck => 0xAD
  | nbcRow => 0xD2
  | offset => 0x78
  | order => 0xA9
  | returnStatus => 0x79
  | returnValue => 0xAC
  | row => 0xD1
  | sessionState => 0xE4
  | sspi => 0xED
  | tabName => 0xA4

def all : List TokenType :=
  [altMetadata, altRow, colMetadata, colInfo, dataClassification, done, doneProc, doneInProc,
    envChange, error, featureExtAck, fedAuthInfo, info, loginAck, nbcRow, offset, order,
    returnStatus, returnValue, row, sessionState, sspi, tabName]

/-- How the errors for a token that cannot be read past begin. -/
def unknownTokenText : String := "Unknown token type: "

def noParserText : String := "No parser implemented for token type: "

def classificationText : String := "DATACLASSIFICATION: "

def tryFrom (value : UInt8) : TdsResult TokenType :=
  match all.find? (·.code == value) with
  | some tokenType => .ok tokenType
  | none => .error (.protocolError (unknownTokenText ++ "0x" ++
      String.ofList ((Nat.toDigits 16 value.toNat).map Char.toUpper)))

end TokenType

/-- The end of a statement. -/
structure DoneToken where
  status : UInt16
  curCmd : UInt16
  rowCount : UInt64
  deriving DecidableEq, Repr

namespace DoneToken

variable (done : DoneToken)

def hasMore : Bool := done.status &&& 0x0001 ≠ 0

def hasError : Bool := done.status &&& 0x0002 ≠ 0

def hasCount : Bool := done.status &&& 0x0010 ≠ 0

/-- The token ends one call of a batch of calls. -/
def rpcInBatch : Bool := done.status &&& 0x0080 ≠ 0

end DoneToken

def commandSelect : UInt16 := 0x00C1

def readDoneToken : TdsReader DoneToken := do
  let status ← readUint16
  let command ← readUint16
  let rowCount ← u64 pastEndOfMessageError
  pure ⟨status, command, rowCount⟩

abbrev ErrorToken := SqlErrorInfo

/-- The value of an output parameter. -/
structure ReturnValueToken where
  paramOrdinal : UInt16
  /-- Empty if the parameter was bound by its place. -/
  paramName : String
  value : ColumnValues
  columnMetadata : ColumnMetadata
  deriving DecidableEq

/-- A token that is not a row.  Where the client processes the payload by means outside the model,
the token carries the outcome. -/
inductive Tokens where
  | done (done : DoneToken)
  | doneInProc (done : DoneToken)
  | doneProc (done : DoneToken)
  | envChange (captured : TdsResult Unit)
  | error (errorToken : ErrorToken)
  | info (message : String)
  | sessionState (processed : TdsResult Unit)
  | colMetadata (metadata : ColMetadataToken)
  | dataClassification
  | order
  | returnStatus (value : Int32)
  | returnValue (returnValue : ReturnValueToken)
  | tabName
  | colInfo
  /-- A token of the login. -/
  | other

/-- The parsers of the tokens behind their type byte.  The argument says whether column encryption
was negotiated. -/
abbrev TokenParserRegistry := Bool → TokenType → TdsReader Tokens

def dispatchToken (registry : TokenParserRegistry) (isColumnEncryptionSupported : Bool) :
    TokenType → TdsReader Tokens
  | .done => .done <$> readDoneToken
  | .doneProc => .doneProc <$> readDoneToken
  | .doneInProc => .doneInProc <$> readDoneToken
  | .returnStatus => .returnStatus <$> i32 pastEndOfMessageError
  | .colMetadata => .colMetadata <$> parseColMetadata isColumnEncryptionSupported
  | tokenType => registry isColumnEncryptionSupported tokenType

/-- The read failed inside a token whose end cannot be found. -/
def leavesATokenUnread : Error → Bool
  | .protocolError message =>
    message.startsWith TokenType.classificationText ||
      message.startsWith TokenType.unknownTokenText || message.startsWith TokenType.noParserText
  | _ => false

end MssqlTds
