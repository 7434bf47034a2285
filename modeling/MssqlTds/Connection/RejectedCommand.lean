import MssqlTds.Connection.TdsClient
import MssqlTds.Security.CellRoundTrip

/-!
# A rejected command

A busy client rejects every command (`call_busy`).  Most commands are rejected before they have
touched anything.  Three of them keep their column encryption setting first, and with it the open
response is read from then on.

`rejected_changes_nothing_iff` says when the caller cannot tell: the command is one of the others,
or its setting comes to the same as that of the open response.
-/

namespace MssqlTds

open EState

namespace EntryPoint

/-- The command is rejected before it touches the client. -/
def checksFirst : EntryPoint → Bool
  | execute | executeSpExecutesql | executeStoredProcedure => false
  | beginSpExecutesql | executePrepared | executePreparedBatch | beginExecutePreparedBatch
  | beginExecutePrepared | unprepare => true

/-- The client after it has rejected the command. -/
def rejected (entry : EntryPoint) (options : ExecuteOptions) (c : TdsClient) : TdsClient :=
  if entry.checksFirst then c
  else { c with currentCommandCeSetting := options.columnEncryption }

end EntryPoint

section

variable {α : Type} {options : ExecuteOptions} {accepted : ClientM α} {c : TdsClient}

theorem rejectIfBusy_busy (h : c.commandIsBusy = true) :
    rejectIfBusy c = .error alreadyExecuting c := by
  unfold rejectIfBusy
  rw [bind_apply, get_apply]
  dsimp only
  rw [if_pos h]
  rfl

theorem checkFirst_busy (h : c.commandIsBusy = true) :
    checkFirst accepted c = .error alreadyExecuting c :=
  bind_error (rejectIfBusy_busy h)

theorem keepSettingThenCheck_busy (h : c.commandIsBusy = true) :
    keepSettingThenCheck options accepted c =
      .error alreadyExecuting { c with currentCommandCeSetting := options.columnEncryption } := by
  let kept : TdsClient := { c with currentCommandCeSetting := options.columnEncryption }
  have hkept : kept.commandIsBusy = true := h
  unfold keepSettingThenCheck
  rw [bind_ok (modify_apply _)]
  exact bind_error (rejectIfBusy_busy hkept)

/-- **A busy client rejects every command.** -/
theorem EntryPoint.call_busy (entry : EntryPoint) (h : c.commandIsBusy = true) :
    entry.call options accepted c = .error alreadyExecuting (entry.rejected options c) := by
  cases entry with
  | execute | executeSpExecutesql | executeStoredProcedure => exact keepSettingThenCheck_busy h
  | beginSpExecutesql | executePrepared | executePreparedBatch | beginExecutePreparedBatch
  | beginExecutePrepared | unprepare => exact checkFirst_busy h

end

namespace TdsClient

/-- The two clients differ at most in a setting that comes to the same. -/
structure Agrees (c c' : TdsClient) : Prop where
  stream : c'.stream = c.stream
  response : c'.response = c.response
  enabled : c'.columnEncryptionEnabled = c.columnEncryptionEnabled
  effective : c'.effectiveCommandCeSetting = c.effectiveCommandCeSetting

/-! ### The operations see no more than the effective setting -/

section

variable {ctx : ResponseContext} {serializeTable : TvpTypeName → Option TvpTableData → WriterM Unit}
  {retract : SuspendedMessage → StreamClient → StreamClient} {α : Type} {c c' : TdsClient}

theorem Agrees.withResponse (h : Agrees c c') (response : Response) :
    Agrees { c with response := response } { c' with response := response } :=
  ⟨h.stream, rfl, h.enabled, h.effective⟩

theorem Agrees.withStream (h : Agrees c c') (stream : StreamClient) :
    Agrees { c with stream := stream } { c' with stream := stream } :=
  ⟨rfl, h.response, h.enabled, h.effective⟩

theorem Agrees.withSetting (h : Agrees c c') (setting : ExecutionColumnEncryptionSetting) :
    Agrees { c with currentCommandCeSetting := setting }
      { c' with currentCommandCeSetting := setting } :=
  ⟨h.stream, h.response, h.enabled, congrArg (setting.effective ·) h.enabled⟩

theorem onResponse_respects (m : ResponseContext → ResponseM α) :
    Respects Agrees (onResponse ctx m) := by
  intro c c' h
  unfold onResponse
  rw [h.effective, h.response]
  split
  · exact .ok _ (h.withResponse _)
  · exact .error _ (h.withResponse _)

theorem onStream_respects (m : StreamM α) : Respects Agrees (onStream m) := by
  intro c c' h
  unfold onStream
  rw [h.stream]
  split
  · exact .ok _ (h.withStream _)
  · exact .error _ (h.withStream _)

theorem closeQuery_respects : Respects Agrees (closeQuery ctx) := by
  intro c c' h
  have hclose : SameResult Agrees (onResponse ctx (·.closeQuery) c)
      (onResponse ctx (·.closeQuery) c') := onResponse_respects _ c c' h
  unfold closeQuery
  rw [h.response]
  revert hclose
  generalize onResponse ctx (·.closeQuery) c = result
  generalize onResponse ctx (·.closeQuery) c' = result'
  intro hclose
  -- The setting is forgotten on success and on failure, if a batch was open.
  cases hclose with
  | ok _ h =>
    refine .ok () ?_
    split
    · exact h.withSetting _
    · exact h
  | error e h =>
    refine .error e ?_
    split
    · exact h.withSetting _
    · exact h

theorem endStreamedParam_respects (prepared : Bool) (answer : List UInt8) :
    Respects Agrees (endStreamedParam ctx serializeTable retract prepared answer) := by
  refine (onStream_respects _).bind fun status => ?_
  cases status with
  | needData name => exact .pure _
  | complete =>
    refine .bind (.modify fun c c' h => ?_) fun _ =>
      (onResponse_respects _).bind fun result => .pure _
    rw [h.response]
    exact h.withResponse _

/-- What the response holds is read off alike. -/
theorem observe_respects (f : Response → Outcome) :
    Respects Agrees (do pure (f (← get).response) : ClientM Outcome) :=
  .get_bind fun c c' h => by
    rw [h.response]
    exact .ok _ h

theorem perform_respects (operation : Operation) :
    Respects Agrees (perform ctx serializeTable retract operation) := by
  cases operation with
  | nextRowInto | tryFinishRowInto => exact (onResponse_respects _).bind fun _ => .pure _
  | nextRowCursor | tryNextRowCursor | peekPastCurrentRow | tryPeekPastCurrentRow | readRowColumn
  | tryReadRowColumn | tryReadRowPlpComplete | readActivePlpChunk | tryReadActivePlpChunk
  | finishRowInto | advance | advanceToRows | completeCurrentResult =>
    exact (onResponse_respects _).map _
  | closeQuery => exact closeQuery_respects.map _
  | getReturnValues => exact observe_respects (.returnValues ·.returnValues)
  | getReturnStatus => exact observe_respects (.returnStatus ·.lastReturnStatus)
  | takeInfoMessages =>
    refine .get_bind fun c c' h => ?_
    rw [h.response]
    exact .ok _ (h.withResponse _)
  | writeStreamedChunk | writeStreamedNull => exact (onStream_respects _).map _
  | endStreamedParam prepared answer =>
    exact (endStreamedParam_respects prepared answer).bind fun _ => .pure _

/-- **Clients that agree cannot be told apart** by any operations. -/
theorem performAll_eq (operations : List Operation) (h : Agrees c c') :
    performAll ctx serializeTable retract operations c' =
      performAll ctx serializeTable retract operations c := by
  induction operations generalizing c c' with
  | nil => rfl
  | cons operation operations ih =>
    have hstep : SameResult Agrees (perform ctx serializeTable retract operation c)
        (perform ctx serializeTable retract operation c') := perform_respects operation c c' h
    unfold performAll
    revert hstep
    generalize perform ctx serializeTable retract operation c = result
    generalize perform ctx serializeTable retract operation c' = result'
    intro hstep
    cases hstep with
    | ok outcome h => exact congrArg (.ok outcome :: ·) (ih h)
    | error e h => exact congrArg (.error e :: ·) (ih h)

end

theorem agrees_rejected {entry : EntryPoint} {options : ExecuteOptions} {c : TdsClient}
    (h : entry.checksFirst = true ∨
      options.columnEncryption.effective c.columnEncryptionEnabled = c.effectiveCommandCeSetting) :
    Agrees c (entry.rejected options c) := by
  unfold EntryPoint.rejected
  split
  case isTrue => exact ⟨rfl, rfl, rfl, rfl⟩
  case isFalse hfirst => exact ⟨rfl, rfl, rfl, h.resolve_left hfirst⟩

end TdsClient

/-! ### Responses that tell the settings apart -/

/-- An open response, in the result set with the given columns or behind it. -/
def openResponse (unread : List UInt8) (metadata : Option ColMetadataToken) : Response where
  unread := unread
  parkedToken := none
  connectionKnownDead := false
  hasOpenBatch := true
  currentMetadata := metadata
  currentResultSetHasBeenReadTillEnd := metadata.isNone
  currentResultEndedWithDoneInProc := false
  batchErrorMode := .abort
  statementErrorCompletionPending := false
  failedStatementDonePending := false
  rowSetErrors := []
  rowSetErrorTokens := 0
  rowSetErrorBytes := 0
  lastRowsAffected := -1
  dmlResultCounts := []
  lastResultRowCount := none
  returnValues := []
  lastReturnStatus := .notReceived
  infoMessages := []
  outputParamCeks := []
  outputNamesByOrdinal := []
  pendingCapture := none
  preparedHandles := []
  preparedBatch := none
  activeRowReadState := .idle
  rowAlreadyPositioned := false

def encryptedColumn : ColumnMetadata where
  typeInfo := ⟨.bigVarBinary, 100, .varLen ⟨.bigVarBinary, by decide⟩ 100⟩
  dataType := .bigVarBinary
  columnName := "secret"
  cryptoMetadata := some ⟨0, .intN, ⟨.intN, 4, .varLen .intN 4⟩, 2, none, 1, 1⟩

def encryptedResultSet (cekTable : List CekTableEntry) : ColMetadataToken :=
  ⟨1, [⟨encryptedColumn, 0, 0x0801, none⟩], cekTable⟩

/-- The token of type `RETURNVALUE` is an encrypted output value, and every cell decrypts to `7`. -/
def exampleContext : ResponseContext where
  codecs := .latin1
  registry := fun _ _ => pure (.returnValue ⟨0, "@secret", .bytes [1], encryptedColumn⟩)
  crypto := Security.Crypto.transparent
  isColumnEncryptionSupported := true
  resolveKeys := fun _ _ _ => .ok (.int 7)
  afterFailure := id
  effectiveCeSetting := .enabled

def readingClient (response : Response) (setting : ExecutionColumnEncryptionSetting)
    (enabled : Bool) : TdsClient :=
  ⟨⟨readyNetwork 512, .idle, false⟩, response, setting, enabled⟩

def outputValueResponse : Response :=
  openResponse [0xAC, 0xFD, 0, 0, 0, 0, 0, 0, 0, 0, 0, 0, 0, 0] none

/-- A row of a result set whose keys are missing. -/
def keylessResponse : Response := openResponse [0xD1, 1, 0, 9] (some (encryptedResultSet []))

section

variable (serializeTable : TvpTypeName → Option TvpTableData → WriterM Unit)
  (retract : SuspendedMessage → StreamClient → StreamClient)
  (setting : ExecutionColumnEncryptionSetting) (enabled : Bool)

theorem advance_outputValue :
    TdsClient.performAll exampleContext serializeTable retract [.advance]
        (readingClient outputValueResponse setting enabled) =
      if setting.effective enabled = .enabled then
        [.error (.columnEncryptionError ("No column encryption key available to decrypt " ++
          "encrypted output parameter @secret"))]
      else [.ok (.statement .end)] := by
  cases setting <;> cases enabled <;> rfl

theorem nextRowCursor_keyless :
    TdsClient.performAll exampleContext serializeTable retract [.nextRowCursor]
        (readingClient keylessResponse setting enabled) =
      if setting.effective enabled = .disabled then [.ok (.flag true)]
      else [.error (.columnEncryptionError
        ("Result set has encrypted column metadata but an empty CEK table; cannot resolve " ++
          "column encryption keys"))] := by
  cases setting <;> cases enabled <;> rfl

end

/-! ### When a rejected command changes nothing -/

/-- The command fails with the usage error, no byte is sent, and all that the caller does later with
the open response gives the same outcomes as without the command. -/
def ChangesNothing (entry : EntryPoint) (options : ExecuteOptions) (c : TdsClient) : Prop :=
  ∃ c', (∀ (α : Type) (accepted : ClientM α),
      entry.call options accepted c = .error alreadyExecuting c') ∧
    c'.stream.network = c.stream.network ∧
    ∀ ctx serializeTable retract operations,
      TdsClient.performAll ctx serializeTable retract operations c' =
        TdsClient.performAll ctx serializeTable retract operations c

theorem changesNothing_iff {entry : EntryPoint} {options : ExecuteOptions} {c : TdsClient}
    (hbusy : c.commandIsBusy = true) :
    ChangesNothing entry options c ↔
      (entry.rejected options c).stream.network = c.stream.network ∧
        ∀ ctx serializeTable retract operations,
          TdsClient.performAll ctx serializeTable retract operations (entry.rejected options c) =
            TdsClient.performAll ctx serializeTable retract operations c := by
  constructor
  · rintro ⟨c', hcall, hsame⟩
    have hc' : entry.rejected options c = c' := by
      have h := hcall Unit (pure ())
      rw [entry.call_busy hbusy] at h
      cases h
      rfl
    rwa [hc']
  · intro hsame
    exact ⟨_, fun _ _ => entry.call_busy hbusy, hsame⟩

/-- Two settings that no response can tell apart come to the same. -/
theorem effective_eq_of_iff {enabled : Bool} {s s' : ExecutionColumnEncryptionSetting}
    (henabled : s.effective enabled = .enabled ↔ s'.effective enabled = .enabled)
    (hdisabled : s.effective enabled = .disabled ↔ s'.effective enabled = .disabled) :
    s.effective enabled = s'.effective enabled := by
  revert henabled hdisabled
  cases enabled <;> cases s <;> cases s' <;> decide

/-- A value that depends on a condition gives the condition away. -/
theorem iff_of_ite_eq {β : Type} {p q : Prop} [Decidable p] [Decidable q] {a b : β}
    (h : (if p then a else b) = if q then a else b) (hne : a ≠ b) : p ↔ q := by
  constructor
  · intro hp
    by_contra hq
    rw [if_pos hp, if_neg hq] at h
    exact hne h
  · intro hq
    by_contra hp
    rw [if_neg hp, if_pos hq] at h
    exact hne h.symm

/-- **When a rejected command changes nothing.**  For every command, options and settings: whatever
response or streamed write the client is busy with, the rejected command leaves no trace, if and
only if it is one that checks first, or the setting in its options comes to the same as the current
one. -/
theorem rejected_changes_nothing_iff (entry : EntryPoint) (options : ExecuteOptions)
    (setting : ExecutionColumnEncryptionSetting) (enabled : Bool) :
    (∀ c : TdsClient, c.commandIsBusy = true → c.currentCommandCeSetting = setting →
        c.columnEncryptionEnabled = enabled → ChangesNothing entry options c) ↔
      entry.checksFirst = true ∨
        options.columnEncryption.effective enabled = setting.effective enabled := by
  constructor
  · intro h
    by_cases hfirst : entry.checksFirst = true
    · exact .inl hfirst
    refine .inr ?_
    have hsame (response : Response) (hopen : response.hasOpenBatch = true) (operations) :
        TdsClient.performAll exampleContext (fun _ _ => pure ()) (fun _ c => c) operations
            (readingClient response options.columnEncryption enabled) =
          TdsClient.performAll exampleContext (fun _ _ => pure ()) (fun _ c => c) operations
            (readingClient response setting enabled) := by
      have hbusy : (readingClient response setting enabled).commandIsBusy = true := by
        show (response.hasOpenBatch || _) = true
        rw [hopen, Bool.true_or]
      have hnothing := ((changesNothing_iff hbusy).mp (h _ hbusy rfl rfl)).2
      rw [EntryPoint.rejected, if_neg hfirst] at hnothing
      exact hnothing _ _ _ _
    -- An output value tells `enabled` from the rest, a result set without keys `disabled`.
    have henabled := hsame outputValueResponse rfl [.advance]
    have hdisabled := hsame keylessResponse rfl [.nextRowCursor]
    rw [advance_outputValue, advance_outputValue] at henabled
    rw [nextRowCursor_keyless, nextRowCursor_keyless] at hdisabled
    exact effective_eq_of_iff (iff_of_ite_eq henabled nofun) (iff_of_ite_eq hdisabled nofun)
  · rintro h c hbusy rfl rfl
    have hagrees : c.Agrees (entry.rejected options c) := TdsClient.agrees_rejected h
    refine (changesNothing_iff hbusy).mpr ⟨?_, ?_⟩
    · rw [hagrees.stream]
    · intro ctx serializeTable retract operations
      exact TdsClient.performAll_eq operations hagrees

def encryptedRowClient : TdsClient :=
  readingClient (openResponse [0xD1, 1, 0, 9]
    (some (encryptedResultSet [⟨1, 1, 1, .replicate 8 0, []⟩]))) .useConnectionSetting true

def disabledOptions : ExecuteOptions := ⟨none, none, .disabled, .abort⟩

/-- `execute` with the setting that the connection has anyway is rejected without a trace. -/
theorem rejected_execute_changes_nothing :
    encryptedRowClient.commandIsBusy = true ∧
      ChangesNothing .execute { disabledOptions with columnEncryption := .enabled }
        encryptedRowClient :=
  ⟨rfl, (rejected_changes_nothing_iff .execute _ .useConnectionSetting true).mpr (.inr rfl)
    encryptedRowClient rfl rfl rfl⟩

/-- A rejected `execute` that asks for no encryption: the next row of the open response, whose cell
was to be decrypted to `7`, is then returned with the cipher bytes. -/
theorem rejected_execute_disables_decryption :
    encryptedRowClient.commandIsBusy = true ∧
      ¬ ChangesNothing .execute disabledOptions encryptedRowClient ∧
      ∃ c', MssqlTds.execute disabledOptions (pure ()) encryptedRowClient =
          .error alreadyExecuting c' ∧
        ∀ serializeTable retract,
          TdsClient.performAll exampleContext serializeTable retract
              [.nextRowInto 0 fun _ => 0] encryptedRowClient =
            [.ok (.row true [RowCall.writeI32 0 7])] ∧
          TdsClient.performAll exampleContext serializeTable retract
              [.nextRowInto 0 fun _ => 0] c' =
            [.ok (.row true [RowCall.writeBytes 0 [9]])] := by
  refine ⟨rfl, ?_, _, rfl, fun _ _ => ⟨rfl, rfl⟩⟩
  intro hnothing
  have hrow := ((changesNothing_iff rfl).mp hnothing).2 exampleContext (fun _ _ => pure ())
    (fun _ c => c) [.nextRowInto 0 fun _ => 0]
  cases hrow

end MssqlTds
