import Mathlib.Data.List.Nodup
import MssqlTds.Message.SessionRecovery

/-!
# Session states, written and parsed

The states of a session are written for a reconnect in the same packed form in which an
acknowledgement brings them.  Both sides of that form are compared here.

* `parseFeatureAck_written` : what is written for a table of slots is parsed to the states and
  values of the table, if no value is longer than the four bytes of a length can say.
* `seedInitialStateFromFeatureAck_malformed`, `applyFeatureAckToDelta_malformed` : a payload that is
  not packed entries leaves nothing of it in the table, and `disabled_run` : the session is not
  recoverable from then on.

A value of `2 ^ 32` bytes or more is written behind its length modulo `2 ^ 32`.  No token and no
acknowledgement can bring one, since its length has four bytes there as well.
-/

namespace MssqlTds

open Bytes PacketWriter SessionStateTable List

variable {slots : StateSlots} {table : SessionStateTable} {data : List UInt8}

/-! ### The round trip -/

theorem mem_filledSlots {stateId : UInt8} {record : SessionStateRecord} :
    (stateId, record) ∈ filledSlots slots ↔ slots stateId = some record := by
  unfold filledSlots
  rw [mem_filterMap]
  constructor
  · rintro ⟨id, -, hid⟩
    obtain ⟨r, hr, heq⟩ := Option.map_eq_some_iff.mp hid
    cases heq
    exact hr
  · intro h
    exact ⟨stateId, mem_stateIds stateId, by rw [h]; rfl⟩

theorem stateIds_nodup : stateIds.Nodup := by
  refine List.Nodup.map_on ?_ nodup_range
  intro i hi j hj h
  have hnat := congrArg UInt8.toNat h
  rw [UInt8.toNat_ofNat', UInt8.toNat_ofNat'] at hnat
  rw [mem_range] at hi hj
  omega

/-- No state is written twice. -/
theorem filledSlots_nodup (slots : StateSlots) : ((filledSlots slots).map Prod.fst).Nodup := by
  have hsub : ((filledSlots slots).map Prod.fst).Sublist stateIds := by
    unfold filledSlots
    induction stateIds with
    | nil => exact List.Sublist.refl _
    | cons id ids ih =>
      cases hslot : slots id with
      | none =>
        rw [filterMap_cons_none (by rw [hslot]; rfl)]
        exact ih.cons id
      | some record =>
        rw [filterMap_cons_some (by rw [hslot]; rfl), map_cons]
        exact ih.cons_cons id
  exact stateIds_nodup.sublist hsub

/-- The entries that a table of slots is parsed back to. -/
def packedSlots (slots : StateSlots) : List (UInt8 × List UInt8) :=
  (filledSlots slots).map fun entry => (entry.1, entry.2.data)

theorem packedEntries_written {entries : List (UInt8 × SessionStateRecord)}
    (hlen : ∀ entry ∈ entries, entry.2.data.length < 2 ^ 32) :
    PackedEntries (entries.flatMap wireStateEntry)
      (entries.map fun entry => (entry.1, entry.2.data)) := by
  induction entries with
  | nil => exact .nil
  | cons entry entries ih =>
    have hrest := ih fun e he => hlen e (mem_cons_of_mem _ he)
    rw [flatMap_cons, map_cons, wireStateEntry, wireStateLength]
    split
    · rename_i hshort
      simpa using PackedEntries.short entry.1 entry.2.data hshort hrest
    · simpa using PackedEntries.long entry.1 entry.2.data (hlen entry mem_cons_self) hrest

/-- The entries say of each state what the slots say. -/
def SaysSlots (entries : List (UInt8 × List UInt8)) (slots : StateSlots) : Prop :=
  (entries.map Prod.fst).Nodup ∧
    ∀ stateId value, (stateId, value) ∈ entries ↔
      (slots stateId).map SessionStateRecord.data = some value

theorem saysSlots_packedSlots (slots : StateSlots) : SaysSlots (packedSlots slots) slots := by
  constructor
  · unfold packedSlots
    rw [map_map]
    exact filledSlots_nodup slots
  · intro stateId value
    unfold packedSlots
    rw [mem_map, Option.map_eq_some_iff]
    constructor
    · rintro ⟨⟨id, record⟩, hmem, heq⟩
      cases heq
      exact ⟨record, mem_filledSlots.mp hmem, rfl⟩
    · rintro ⟨record, hslot, rfl⟩
      exact ⟨(stateId, record), mem_filledSlots.mpr hslot, rfl⟩

theorem parseFeatureAck_written
    (hlen : ∀ stateId record, slots stateId = some record → record.data.length < 2 ^ 32) :
    parseFeatureAck (wireStateEntries slots) = .ok (packedSlots slots) := by
  refine parseFeatureAck_eq_ok.mpr (packedEntries_written ?_)
  rintro ⟨stateId, record⟩ hmem
  exact hlen stateId record (mem_filledSlots.mp hmem)

/-! ### Malformed payloads -/

theorem parseFeatureAck_malformed (h : MalformedAck data) :
    ∃ e, parseFeatureAck data = .error e := by
  cases hparse : parseFeatureAck data with
  | error e => exact ⟨e, rfl⟩
  | ok entries => exact absurd (parseFeatureAck_eq_ok.mp hparse) (h entries)

theorem seedInitialStateFromFeatureAck_malformed (h : MalformedAck data) :
    table.seedInitialStateFromFeatureAck data = { table with masterRecoveryDisabled := true } := by
  obtain ⟨e, hparse⟩ := parseFeatureAck_malformed h
  rw [seedInitialStateFromFeatureAck, hparse]
  rfl

theorem applyFeatureAckToDelta_malformed (h : MalformedAck data) :
    table.applyFeatureAckToDelta data
      = { table with delta := emptyStateSlots, masterRecoveryDisabled := true } := by
  obtain ⟨e, hparse⟩ := parseFeatureAck_malformed h
  rw [applyFeatureAckToDelta]
  rw [hparse]
  rfl

/-- A fold of steps that leave recovery disabled leaves it disabled. -/
theorem disabled_foldl {α : Type} {step : SessionStateTable → α → SessionStateTable}
    (hstep : ∀ t a, t.masterRecoveryDisabled = true → (step t a).masterRecoveryDisabled = true)
    (xs : List α) (h : table.masterRecoveryDisabled = true) :
    (xs.foldl step table).masterRecoveryDisabled = true := by
  induction xs generalizing table with
  | nil => exact h
  | cons x xs ih => exact ih (hstep table x h)

theorem disabled_processSessionState (token : SessionStateToken)
    (h : table.masterRecoveryDisabled = true) :
    (table.processSessionState token).masterRecoveryDisabled = true := by
  unfold processSessionState
  split
  · rfl
  · refine disabled_foldl ?_ _ h
    exact fun _ _ ht => ht

theorem disabled_seedInitialStateFromFeatureAck (data : List UInt8)
    (h : table.masterRecoveryDisabled = true) :
    (table.seedInitialStateFromFeatureAck data).masterRecoveryDisabled = true := by
  unfold seedInitialStateFromFeatureAck
  split
  · refine disabled_foldl ?_ _ h
    exact fun _ _ ht => ht
  · rfl

/-- No operation enables recovery again. -/
theorem disabled_apply (op : SessionOp) (h : table.masterRecoveryDisabled = true) :
    (table.apply op).masterRecoveryDisabled = true := by
  cases op with
  | seedInitialState database language collation tokens ack =>
    refine disabled_foldl (fun _ token => disabled_processSessionState token) tokens ?_
    cases ack with
    | none => exact h
    | some data => exact disabled_seedInitialStateFromFeatureAck data h
  | processSessionState token => exact disabled_processSessionState token h
  | applyFeatureAckToDelta data =>
    show (applyFeatureAckToDelta table data).masterRecoveryDisabled = true
    unfold applyFeatureAckToDelta
    split
    · refine disabled_foldl ?_ _ h
      exact fun _ _ ht => ht
    · rfl
  | reset => exact h

theorem disabled_run (ops : List SessionOp) (h : table.masterRecoveryDisabled = true) :
    (ops.foldl apply table).isSessionRecoverable = false := by
  have hoff := disabled_foldl (fun _ op => disabled_apply op) ops h
  unfold isSessionRecoverable
  rw [hoff]
  rfl

/-- Nothing of a payload is in the table, and the session is not recoverable, now or after any
operations. -/
structure Refused (table table' : SessionStateTable) : Prop where
  baseline : table'.initialState = table.initialState
  delta : table'.delta = table.delta ∨ table'.delta = emptyStateSlots
  unrecoverable : ∀ ops : List SessionOp,
    (ops.foldl apply table').isSessionRecoverable = false

/-- **Session states survive the wire, and a malformed payload is refused as a whole.** -/
theorem sessionState_payload (slots : StateSlots)
    (hlen : ∀ stateId record, slots stateId = some record → record.data.length < 2 ^ 32) :
    (∃ bs entries, Emits (writeStateEntries slots) bs ∧ parseFeatureAck bs = .ok entries ∧
      SaysSlots entries slots) ∧
    ∀ data table, MalformedAck data →
      Refused table (table.seedInitialStateFromFeatureAck data) ∧
        Refused table (table.applyFeatureAckToDelta data) := by
  refine ⟨⟨_, _, writeStateEntries_emits slots, parseFeatureAck_written hlen,
    saysSlots_packedSlots slots⟩, fun data table hbad => ⟨?_, ?_⟩⟩
  · rw [seedInitialStateFromFeatureAck_malformed hbad]
    exact ⟨rfl, .inl rfl, fun ops => disabled_run ops rfl⟩
  · rw [applyFeatureAckToDelta_malformed hbad]
    exact ⟨rfl, .inr rfl, fun ops => disabled_run ops rfl⟩

theorem sessionState_payload_changedDatabase :
    ∃ bs entries, Emits (writeStateEntries changedDatabase.initialState) bs ∧
      parseFeatureAck bs = .ok entries ∧ SaysSlots entries changedDatabase.initialState := by
  refine (sessionState_payload changedDatabase.initialState ?_).1
  intro stateId record h
  by_cases hid : stateId = 3
  · subst hid
    cases h
    decide
  · rw [show changedDatabase.initialState stateId = none from Function.update_of_ne hid _ _] at h
    cases h

/-- State 3 with the given value, and nothing else. -/
def oneState (value : List UInt8) : StateSlots :=
  Function.update emptyStateSlots 3 (some ⟨true, 0, value⟩)

set_option maxRecDepth 4000 in
theorem filledSlots_oneState (value : List UInt8) :
    filledSlots (oneState value) = [(3, ⟨true, 0, value⟩)] := rfl

/-- A value whose length is a multiple of `2 ^ 32` is parsed as an empty value and more entries. -/
theorem sessionState_length_wraps :
    ∃ bs, Emits (writeStateEntries (oneState (List.replicate (2 ^ 32) 0))) bs ∧
      ∀ entries, parseFeatureAck bs = .ok entries →
        ¬ SaysSlots entries (oneState (List.replicate (2 ^ 32) 0)) := by
  refine ⟨_, writeStateEntries_emits _, fun entries hparse hdenotes => ?_⟩
  obtain ⟨value, hvalue⟩ : ∃ value : List UInt8, value = List.replicate (2 ^ 32) 0 := ⟨_, rfl⟩
  have hlen : value.length = 2 ^ 32 := by rw [hvalue, length_replicate]
  rw [← hvalue] at hparse hdenotes
  -- the length field is zero
  have hbytes : wireStateEntries (oneState value) = 3 :: 0xFF :: 0 :: 0 :: 0 :: 0 :: value := by
    rw [wireStateEntries, filledSlots_oneState, flatMap_singleton, wireStateEntry, wireStateLength,
      if_neg (by simp [hlen])]
    simp only [hlen]
    rfl
  rw [hbytes] at hparse
  have hzero : (3, []) ∈ entries := by
    unfold parseFeatureAck at hparse
    rw [length_cons, parseFeatureAckLoop] at hparse
    have hack : ackLength (0xFF :: 0 :: 0 :: 0 :: 0 :: value) = some (0, value) := rfl
    obtain ⟨rest, -, hrest⟩ := EState.result_bind_eq_ok.mp hparse
    cases hrest
    exact mem_cons_self
  have hslot := (hdenotes.2 3 []).mp hzero
  have hnil : value = [] := Option.some.inj hslot
  rw [hnil] at hlen
  exact absurd hlen (by decide)

end MssqlTds
