import Mathlib.Tactic.Common

/-!
# Errors

The part of the driver's error type that the modelled functions produce.  `panic` stands for a
Rust panic (a failed `unwrap`, `assert!` or `unimplemented!`), `dropped` for an awaiting call whose
future is dropped by its caller, and `outOfFuel` for a loop that does not end.
-/

namespace MssqlTds

/-- An error the server reports. -/
structure SqlErrorInfo where
  message : String
  severity : UInt8
  serverName : Option String
  procName : Option String
  deriving DecidableEq, Repr

/-- Errors a modelled call can end with. -/
inductive Error where
  | io (message : String)
  /-- TDS protocol violation or unexpected server response. -/
  | protocolError (message : String)
  | timeoutError (message : String)
  | operationCancelledError (message : String)
  | usageError (message : String)
  /-- Internal logic error that should not occur. -/
  | implementationError (message : String)
  /-- Feature recognized but not yet implemented. -/
  | unimplementedFeature (feature context : String)
  /-- Value could not be converted to the target SQL type. -/
  | typeConversionError (message : String)
  /-- A value's encoded bytes exceed the caller's declared limit. -/
  | encodedValueTooLong (actual maximum : ℕ)
  | columnEncryptionError (message : String)
  | connectionClosed (message : String)
  | sqlServerError (errors : List SqlErrorInfo)
  | panic (message : String)
  /-- The caller dropped the future before it was ready. -/
  | dropped
  /-- The loop does not end. -/
  | outOfFuel
  deriving DecidableEq, Repr

instance : Inhabited Error := ⟨.dropped⟩

/-- Result type of the driver's fallible functions. -/
abbrev TdsResult := Except Error

end MssqlTds
