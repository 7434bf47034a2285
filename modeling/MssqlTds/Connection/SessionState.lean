import Mathlib.Data.List.Basic
import MssqlTds.Datatypes.SqlString

/-!
# Session state for idle connection resiliency

The server describes the session by numbered states: a baseline in its acknowledgement of the
session recovery feature, and `SESSIONSTATE` tokens afterwards.  `SessionStateTable` keeps the
latest record of every state for the reconnect, and `isSessionRecoverable` says whether one can be
attempted.

* `parseFeatureAck_eq_ok` : what the parser of the acknowledgement accepts are packed entries.
* `isSessionRecoverable_iff` : over every run of the table, a session is recoverable exactly if
  nothing disabled recovery and the most recent record of every state is recoverable.
-/

namespace MssqlTds

open List Bytes

/-- A state entry the server has sent. -/
structure SessionStateRecord where
  recoverable : Bool
  sequence : UInt32
  data : List UInt8
  deriving DecidableEq, Repr

/-- One slot for each of the 256 state ids. -/
abbrev StateSlots := UInt8 → Option SessionStateRecord

def stateIds : List UInt8 := (List.range 256).map UInt8.ofNat

def emptyStateSlots : StateSlots := fun _ => none

structure SessionStateEntry where
  stateId : UInt8
  recoverable : Bool
  data : List UInt8
  deriving DecidableEq, Repr

structure SessionStateToken where
  sequenceNumber : UInt32
  states : List SessionStateEntry
  deriving DecidableEq, Repr

structure SessionStateTable where
  /-- The baseline from the initial acknowledgement. -/
  initialState : StateSlots
  /-- What has been received since. -/
  delta : StateSlots
  initialDatabase : List Char
  initialLanguage : List Char
  initialCollation : SqlCollation
  /-- The server has disabled recovery for this session. -/
  masterRecoveryDisabled : Bool

/-! ### The acknowledgement -/

/-- The length of an entry's value, with the bytes after it. -/
def ackLength : List UInt8 → Option (ℕ × List UInt8)
  | [] => none
  | lenByte :: rest =>
    if lenByte = 0xFF then
      if rest.length < 4 then none else some (ofLe (rest.take 4), rest.drop 4)
    else some (lenByte.toNat, rest)

/-- Parse the entries from `offset` on.  Every entry takes a byte at least, so the bytes left are
fuel enough. -/
def parseFeatureAckLoop : ℕ → ℕ → List UInt8 → Except (ℕ × UInt8) (List (UInt8 × List UInt8))
  | _, _, [] => .ok []
  | 0, offset, stateId :: _ => .error (offset, stateId)
  | fuel + 1, offset, stateId :: rest =>
    match ackLength rest with
    | none => .error (offset, stateId)
    | some (len, value) =>
      if value.length < len then .error (offset, stateId)
      else do
        let next := offset + 1 + (rest.length - value.length) + len
        let entries ← parseFeatureAckLoop fuel next (value.drop len)
        pure ((stateId, value.take len) :: entries)

/-- The packed entries of an acknowledgement, or where it is truncated and in which state. -/
def parseFeatureAck (data : List UInt8) : Except (ℕ × UInt8) (List (UInt8 × List UInt8)) :=
  parseFeatureAckLoop data.length 0 data

/-- The entries packed in an acknowledgement: the state, the length of its value in a byte or after
`0xFF` in four, and the value. -/
inductive PackedEntries : List UInt8 → List (UInt8 × List UInt8) → Prop
  | nil : PackedEntries [] []
  | short (stateId : UInt8) (value : List UInt8) {rest : List UInt8}
      {entries : List (UInt8 × List UInt8)} (hlen : value.length < 255)
      (hrest : PackedEntries rest entries) :
      PackedEntries (stateId :: UInt8.ofNat value.length :: (value ++ rest))
        ((stateId, value) :: entries)
  | long (stateId : UInt8) (value : List UInt8) {rest : List UInt8}
      {entries : List (UInt8 × List UInt8)} (hlen : value.length < 2 ^ 32)
      (hrest : PackedEntries rest entries) :
      PackedEntries (stateId :: 0xFF :: (leBytes 4 value.length ++ (value ++ rest)))
        ((stateId, value) :: entries)

theorem ackLength_short {len : ℕ} (h : len < 255) (value : List UInt8) :
    ackLength (UInt8.ofNat len :: value) = some (len, value) := by
  have hnat : (UInt8.ofNat len).toNat = len := by
    rw [UInt8.toNat_ofNat']
    omega
  have hne : UInt8.ofNat len ≠ 0xFF := by
    intro heq
    have := congrArg UInt8.toNat heq
    simp at this
    omega
  simp [ackLength, hne, hnat]

theorem ackLength_long {len : ℕ} (h : len < 2 ^ 32) (value : List UInt8) :
    ackLength (0xFF :: (leBytes 4 len ++ value)) = some (len, value) := by
  have hlen : (leBytes 4 len).length = 4 := length_leBytes 4 len
  have hval : ofLe (leBytes 4 len) = len := by
    rw [ofLe_leBytes]
    omega
  simp [ackLength, hlen, hval]

theorem ackLength_eq_some {bs value : List UInt8} {len : ℕ} (h : ackLength bs = some (len, value)) :
    (len < 255 ∧ bs = UInt8.ofNat len :: value) ∨
      (len < 2 ^ 32 ∧ bs = 0xFF :: (leBytes 4 len ++ value)) := by
  match bs, h with
  | lenByte :: rest, h =>
    simp only [ackLength] at h
    split_ifs at h with hff hshort
    · obtain ⟨rfl, rfl⟩ := by simpa using h
      have hfour : (rest.take 4).length = 4 := by
        rw [length_take]
        omega
      refine .inr ⟨?_, ?_⟩
      · have := ofLe_lt (rest.take 4)
        rw [hfour] at this
        omega
      · have hback := leBytes_ofLe (rest.take 4)
        rw [hfour] at hback
        rw [hff, hback, take_append_drop]
    · obtain ⟨rfl, rfl⟩ := by simpa using h
      refine .inl ⟨?_, by simp⟩
      have hlt := lenByte.toNat_lt
      have hne : lenByte.toNat ≠ 255 := fun heq => hff (UInt8.toNat_inj.mp heq)
      omega

variable {entries : List (UInt8 × List UInt8)} {data : List UInt8}

theorem packedEntries_of_parseFeatureAckLoop {fuel offset : ℕ}
    (h : parseFeatureAckLoop fuel offset data = .ok entries) :
    PackedEntries data entries := by
  induction fuel generalizing offset data entries with
  | zero =>
    cases data with
    | nil =>
      cases h
      exact .nil
    | cons stateId rest => exact absurd h (by simp [parseFeatureAckLoop])
  | succ fuel ih =>
    cases data with
    | nil =>
      cases h
      exact .nil
    | cons stateId rest =>
      cases hlen : ackLength rest with
      | none => simp [parseFeatureAckLoop, hlen] at h
      | some lv =>
        obtain ⟨len, value⟩ := lv
        simp only [parseFeatureAckLoop, hlen] at h
        split at h
        · cases h
        · rename_i hfits
          rcases htail : parseFeatureAckLoop fuel (offset + 1 + (rest.length - value.length) + len)
            (value.drop len) with e | tail
          · rw [htail] at h
            cases h
          rw [htail] at h
          cases h
          have hpacked := ih htail
          have htake : (value.take len).length = len := by
            rw [length_take]
            omega
          -- the value and what follows it are the two halves of the bytes left
          rcases ackLength_eq_some hlen with ⟨hlt, rfl⟩ | ⟨hlt, rfl⟩
          · have := PackedEntries.short stateId (value.take len) (by rwa [htake]) hpacked
            rwa [htake, take_append_drop] at this
          · have := PackedEntries.long stateId (value.take len) (by rwa [htake]) hpacked
            rwa [htake, take_append_drop] at this

theorem parseFeatureAckLoop_packed {fuel offset : ℕ} (h : PackedEntries data entries)
    (hfuel : data.length ≤ fuel) : parseFeatureAckLoop fuel offset data = .ok entries := by
  induction h generalizing fuel offset with
  | nil => cases fuel <;> rfl
  | short stateId value hlen hrest ih =>
    obtain ⟨fuel, rfl⟩ : ∃ n, fuel = n + 1 :=
      Nat.exists_eq_succ_of_ne_zero (by simp at hfuel; omega)
    simp only [length_cons, length_append] at hfuel
    simp only [parseFeatureAckLoop, ackLength_short hlen]
    rw [if_neg (by simp), drop_left, ih (by omega)]
    simp
  | long stateId value hlen hrest ih =>
    obtain ⟨fuel, rfl⟩ : ∃ n, fuel = n + 1 :=
      Nat.exists_eq_succ_of_ne_zero (by simp at hfuel; omega)
    simp only [length_cons, length_append, length_leBytes] at hfuel
    simp only [parseFeatureAckLoop, ackLength_long hlen]
    rw [if_neg (by simp), drop_left, ih (by omega)]
    simp

/-- The parser accepts the packed entries, and nothing else. -/
theorem parseFeatureAck_eq_ok :
    parseFeatureAck data = .ok entries ↔ PackedEntries data entries :=
  ⟨packedEntries_of_parseFeatureAckLoop, fun h => parseFeatureAckLoop_packed h le_rfl⟩

/-- No entries are packed in the acknowledgement: one is truncated. -/
def MalformedAck (data : List UInt8) : Prop := ∀ entries, ¬ PackedEntries data entries

theorem malformedAck_of_parse {e : ℕ × UInt8}
    (h : parseFeatureAck data = .error e) : MalformedAck data := by
  intro entries hpacked
  rw [parseFeatureAck_eq_ok.mpr hpacked] at h
  cases h

namespace SessionStateTable

def new : SessionStateTable where
  initialState := emptyStateSlots
  delta := emptyStateSlots
  initialDatabase := []
  initialLanguage := []
  initialCollation := .default
  masterRecoveryDisabled := false

variable (table : SessionStateTable)

def updateState (stateId : UInt8) (sequence : UInt32) (recoverable : Bool) (data : List UInt8) :
    SessionStateTable :=
  { table with delta := Function.update table.delta stateId (some ⟨recoverable, sequence, data⟩) }

/-- Apply a `SESSIONSTATE` token; the largest sequence number disables recovery. -/
def processSessionState (token : SessionStateToken) : SessionStateTable :=
  if token.sequenceNumber = 0xFFFFFFFF then { table with masterRecoveryDisabled := true }
  else token.states.foldl (fun table entry =>
    table.updateState entry.stateId token.sequenceNumber entry.recoverable entry.data) table

/-- A malformed acknowledgement disables recovery. -/
def abortPartialBaseline : SessionStateTable := { table with masterRecoveryDisabled := true }

/-- Take the baseline from the acknowledgement of the login. -/
def seedInitialStateFromFeatureAck (data : List UInt8) : SessionStateTable :=
  match parseFeatureAck data with
  | .ok entries => entries.foldl (fun table (stateId, value) =>
      { table with initialState :=
          Function.update table.initialState stateId (some ⟨true, 0, value⟩) }) table
  | .error _ => table.abortPartialBaseline

/-- Seed the table after a login. -/
def seedInitialState (database language : List Char) (collation : SqlCollation)
    (tokens : List SessionStateToken) (featureAckInitialState : Option (List UInt8)) :
    SessionStateTable :=
  let table := { table with initialDatabase := database
                            initialLanguage := language
                            initialCollation := collation }
  let table := match featureAckInitialState with
    | some data => table.seedInitialStateFromFeatureAck data
    | none => table
  tokens.foldl processSessionState table

/-- Replace the current state by the acknowledgement of a recovery login. -/
def applyFeatureAckToDelta (data : List UInt8) : SessionStateTable :=
  let table := { table with delta := emptyStateSlots }
  match parseFeatureAck data with
  | .ok entries => entries.foldl
      (fun table (stateId, value) => table.updateState stateId 0 true value)
      table
  | .error _ => table.abortPartialBaseline

/-- Evaluated on demand, over the baseline and the current state. -/
def isSessionRecoverable : Bool :=
  !table.masterRecoveryDisabled &&
    !(stateIds.filterMap table.initialState ++ stateIds.filterMap table.delta).any
      fun record => !record.recoverable

/-- Forget the current state; the baseline stays, and so does a disabled recovery. -/
def reset : SessionStateTable := { table with delta := emptyStateSlots }

end SessionStateTable

/-! ### Runs of the table -/

/-- What the connection does to its table. -/
inductive SessionOp
  | seedInitialState (database language : List Char) (collation : SqlCollation)
      (tokens : List SessionStateToken) (featureAckInitialState : Option (List UInt8))
  | processSessionState (token : SessionStateToken)
  | applyFeatureAckToDelta (data : List UInt8)
  | reset

def SessionStateTable.apply (table : SessionStateTable) : SessionOp → SessionStateTable
  | .seedInitialState database language collation tokens ack =>
    table.seedInitialState database language collation tokens ack
  | .processSessionState token => table.processSessionState token
  | .applyFeatureAckToDelta data => table.applyFeatureAckToDelta data
  | .reset => table.reset

/-- The table after the operations, oldest first. -/
def SessionStateTable.run (ops : List SessionOp) : SessionStateTable :=
  ops.foldl SessionStateTable.apply .new

/-- What an operation has to say about the current state of the session. -/
inductive SessionNote
  /-- A record of a state came in. -/
  | received (stateId : UInt8) (recoverable : Bool)
  /-- The records so far are void. -/
  | cleared
  deriving DecidableEq

def SessionStateToken.Disables (token : SessionStateToken) : Prop :=
  token.sequenceNumber = 0xFFFFFFFF

def SessionStateToken.notes (token : SessionStateToken) : List SessionNote :=
  if token.sequenceNumber = 0xFFFFFFFF then []
  else token.states.map fun entry => .received entry.stateId entry.recoverable

/-- The records of an acknowledgement are all recoverable. -/
def ackNotes (data : List UInt8) : List SessionNote :=
  match parseFeatureAck data with
  | .ok entries => entries.map fun entry => .received entry.1 true
  | .error _ => []

namespace SessionOp

/-- A malformed acknowledgement or a disabling token is part of the operation. -/
def Disables : SessionOp → Prop
  | .seedInitialState _ _ _ tokens ack =>
    (∃ data, ack = some data ∧ MalformedAck data) ∨ ∃ token ∈ tokens, token.Disables
  | .processSessionState token => token.Disables
  | .applyFeatureAckToDelta data => MalformedAck data
  | .reset => False

/-- The baseline of a login is no record of the current state, which a recovery login replaces. -/
def notes : SessionOp → List SessionNote
  | .seedInitialState _ _ _ tokens _ => tokens.flatMap SessionStateToken.notes
  | .processSessionState token => token.notes
  | .applyFeatureAckToDelta data => .cleared :: ackNotes data
  | .reset => [.cleared]

end SessionOp

/-- The most recent record of the state since the last clearing note says `recoverable`. -/
def MostRecent (notes : List SessionNote) (stateId : UInt8) (recoverable : Bool) : Prop :=
  ∃ before after, notes = before ++ .received stateId recoverable :: after ∧
    ∀ note ∈ after, note ≠ .cleared ∧ ∀ r, note ≠ .received stateId r

theorem mostRecent_nil {stateId : UInt8} {r : Bool} : ¬ MostRecent [] stateId r := by
  rintro ⟨before, after, heq, -⟩
  simp at heq

variable {notes : List SessionNote}

theorem mostRecent_cleared {stateId : UInt8} {r : Bool} :
    ¬ MostRecent (notes ++ [.cleared]) stateId r := by
  rintro ⟨before, after, heq, hafter⟩
  rcases eq_nil_or_concat after with rfl | ⟨after, note, rfl⟩
  · simpa using congrArg List.getLast? heq
  · rw [concat_eq_append, ← cons_append, ← append_assoc] at heq
    obtain ⟨-, hlast⟩ := append_inj' heq rfl
    exact (hafter note (by simp)).1 (singleton_inj.mp hlast).symm

theorem mostRecent_received {stateId id : UInt8} {recoverable r : Bool} :
    MostRecent (notes ++ [.received id r]) stateId recoverable ↔
      if stateId = id then recoverable = r else MostRecent notes stateId recoverable := by
  constructor
  · rintro ⟨before, after, heq, hafter⟩
    rcases eq_nil_or_concat after with rfl | ⟨after, note, rfl⟩
    · -- the record asked for is the one just received
      have hlast : id = stateId ∧ r = recoverable := by
        simpa using congrArg List.getLast? heq
      rw [if_pos hlast.1.symm, hlast.2]
    · rw [concat_eq_append, ← cons_append, ← append_assoc] at heq
      obtain ⟨hnotes, hlast⟩ := append_inj' heq rfl
      have hne : stateId ≠ id := by
        rintro rfl
        exact (hafter note (by simp)).2 r (singleton_inj.mp hlast).symm
      rw [if_neg hne]
      exact ⟨before, after, hnotes, fun n hn => hafter n (by simp [hn])⟩
  · intro h
    split_ifs at h with hid
    · subst hid h
      exact ⟨notes, [], rfl, by simp⟩
    · obtain ⟨before, after, rfl, hafter⟩ := h
      refine ⟨before, after ++ [.received id r], by simp, ?_⟩
      intro note hnote
      rcases mem_append.mp hnote with hnote | hnote
      · exact hafter note hnote
      · rw [mem_singleton.mp hnote]
        refine ⟨by simp, fun r' heq => hid ?_⟩
        injection heq with heq
        exact heq.symm

/-- The table says what the notes say: its baseline is recoverable, the record of every state is the
most recent one, and recovery is off exactly if `Off`. -/
structure Reflects (table : SessionStateTable) (notes : List SessionNote) (Off : Prop) : Prop where
  baseline : ∀ stateId record, table.initialState stateId = some record → record.recoverable = true
  delta : ∀ stateId r,
    (table.delta stateId).map SessionStateRecord.recoverable = some r ↔ MostRecent notes stateId r
  disabled : table.masterRecoveryDisabled = true ↔ Off

namespace Reflects

variable {table : SessionStateTable} {notes : List SessionNote} {Off : Prop}

theorem new : Reflects .new [] False where
  baseline := by
    intro stateId record h
    cases h
  delta := by
    intro stateId r
    exact ⟨fun h => (nomatch h), fun h => absurd h mostRecent_nil⟩
  disabled := by simp [SessionStateTable.new]

theorem updateState (h : Reflects table notes Off) (stateId : UInt8) (sequence : UInt32)
    (recoverable : Bool) (data : List UInt8) :
    Reflects (table.updateState stateId sequence recoverable data)
      (notes ++ [.received stateId recoverable]) Off where
  baseline := h.baseline
  delta := by
    intro id r
    rw [mostRecent_received]
    by_cases hid : id = stateId
    · subst hid
      simp [SessionStateTable.updateState, eq_comm]
    · simpa [SessionStateTable.updateState, hid] using h.delta id r
  disabled := h.disabled

/-- A fold of updates notes its records in order. -/
theorem foldl_updateState {α : Type} (h : Reflects table notes Off) (xs : List α)
    (id : α → UInt8) (sequence : UInt32) (recoverable : α → Bool) (data : α → List UInt8) :
    Reflects (xs.foldl (fun t x => t.updateState (id x) sequence (recoverable x) (data x)) table)
      (notes ++ xs.map fun x => .received (id x) (recoverable x)) Off := by
  induction xs generalizing table notes with
  | nil => simpa using h
  | cons x xs ih =>
    simpa using ih (h.updateState (id x) sequence (recoverable x) (data x))

theorem cleared (h : Reflects table notes Off) :
    Reflects { table with delta := emptyStateSlots } (notes ++ [.cleared]) Off where
  baseline := h.baseline
  delta := by
    intro stateId r
    exact ⟨fun hr => (nomatch hr), fun hr => absurd hr mostRecent_cleared⟩
  disabled := h.disabled

theorem off (h : Reflects table notes Off) {Off' : Prop} (hoff : Off') :
    Reflects { table with masterRecoveryDisabled := true } notes Off' where
  baseline := h.baseline
  delta := h.delta
  disabled := by simp [hoff]

theorem iff {Off' : Prop} (h : Reflects table notes Off) (hoff : Off ↔ Off') :
    Reflects table notes Off' := ⟨h.baseline, h.delta, h.disabled.trans hoff⟩

theorem processSessionState (h : Reflects table notes Off) (token : SessionStateToken) :
    Reflects (table.processSessionState token) (notes ++ token.notes) (Off ∨ token.Disables) := by
  unfold SessionStateTable.processSessionState SessionStateToken.notes SessionStateToken.Disables
  split_ifs with hmax
  · simpa using h.off (Or.inr hmax)
  · exact (h.foldl_updateState token.states (·.stateId) token.sequenceNumber (·.recoverable)
      (·.data)).iff (by simp [hmax])

theorem foldl_processSessionState (h : Reflects table notes Off) (tokens : List SessionStateToken) :
    Reflects (tokens.foldl SessionStateTable.processSessionState table)
      (notes ++ tokens.flatMap SessionStateToken.notes)
      (Off ∨ ∃ token ∈ tokens, token.Disables) := by
  induction tokens generalizing table notes Off with
  | nil => simpa using h
  | cons token tokens ih =>
    have := ih (h.processSessionState token)
    simpa [or_assoc] using this

theorem baselineEntries (h : Reflects table notes Off) (entries : List (UInt8 × List UInt8)) :
    Reflects (entries.foldl (fun t (stateId, value) =>
      { t with initialState := Function.update t.initialState stateId (some ⟨true, 0, value⟩) })
        table)
      notes Off := by
  induction entries generalizing table with
  | nil => exact h
  | cons entry entries ih =>
    refine ih ⟨?_, h.delta, h.disabled⟩
    intro stateId record hrecord
    by_cases hid : stateId = entry.1
    · subst hid
      simp only [Function.update_self, Option.some.injEq] at hrecord
      rw [← hrecord]
    · exact h.baseline stateId record (by simpa [hid] using hrecord)

theorem seedInitialStateFromFeatureAck (h : Reflects table notes Off) (data : List UInt8) :
    Reflects (table.seedInitialStateFromFeatureAck data) notes (Off ∨ MalformedAck data) := by
  unfold SessionStateTable.seedInitialStateFromFeatureAck
  split
  · rename_i entries hparse
    refine (h.baselineEntries entries).iff ?_
    have hnot : ¬ MalformedAck data := fun hbad => hbad entries (parseFeatureAck_eq_ok.mp hparse)
    simp [hnot]
  · rename_i e hparse
    exact h.off (.inr (malformedAck_of_parse hparse))

theorem applyFeatureAckToDelta (h : Reflects table notes Off) (data : List UInt8) :
    Reflects (table.applyFeatureAckToDelta data) (notes ++ .cleared :: ackNotes data)
      (Off ∨ MalformedAck data) := by
  rw [append_cons]
  unfold SessionStateTable.applyFeatureAckToDelta ackNotes
  rcases hparse : parseFeatureAck data with e | entries
  · rw [append_nil]
    exact h.cleared.off (.inr (malformedAck_of_parse hparse))
  · have hnot : ¬ MalformedAck data := fun hbad => hbad entries (parseFeatureAck_eq_ok.mp hparse)
    exact (h.cleared.foldl_updateState entries (·.1) 0 (fun _ => true) (·.2)).iff (by simp [hnot])

/-- One operation adds its notes, and whether it disables recovery. -/
theorem apply (h : Reflects table notes Off) (op : SessionOp) :
    Reflects (table.apply op) (notes ++ op.notes) (Off ∨ op.Disables) := by
  cases op with
  | seedInitialState database language collation tokens ack =>
    have hnamed : Reflects { table with initialDatabase := database
                                        initialLanguage := language
                                        initialCollation := collation } notes Off :=
      ⟨h.baseline, h.delta, h.disabled⟩
    cases ack with
    | none =>
      exact (hnamed.foldl_processSessionState tokens).iff (by simp [SessionOp.Disables])
    | some data =>
      have hseeded := hnamed.seedInitialStateFromFeatureAck data
      exact (hseeded.foldl_processSessionState tokens).iff (by simp [SessionOp.Disables, or_assoc])
  | processSessionState token => exact h.processSessionState token
  | applyFeatureAckToDelta data => exact h.applyFeatureAckToDelta data
  | reset => exact h.cleared.iff (by simp [SessionOp.Disables])

theorem foldl_apply (h : Reflects table notes Off) (ops : List SessionOp) :
    Reflects (ops.foldl SessionStateTable.apply table) (notes ++ ops.flatMap SessionOp.notes)
      (Off ∨ ∃ op ∈ ops, op.Disables) := by
  induction ops generalizing table notes Off with
  | nil => simpa using h
  | cons op ops ih =>
    have := ih (h.apply op)
    simpa [or_assoc] using this

end Reflects

/-- Over every run, the table says what the notes of its operations say. -/
theorem run_reflects (ops : List SessionOp) :
    Reflects (SessionStateTable.run ops) (ops.flatMap SessionOp.notes)
      (∃ op ∈ ops, op.Disables) := by
  simpa [SessionStateTable.run] using Reflects.new.foldl_apply ops

theorem mem_stateIds (stateId : UInt8) : stateId ∈ stateIds := by
  refine mem_map.mpr ⟨stateId.toNat, mem_range.mpr stateId.toNat_lt, ?_⟩
  simp

theorem isSessionRecoverable_eq_true {table : SessionStateTable} :
    table.isSessionRecoverable = true ↔ table.masterRecoveryDisabled = false ∧
      ∀ stateId record, table.initialState stateId = some record ∨
        table.delta stateId = some record →
        record.recoverable = true := by
  simp only [SessionStateTable.isSessionRecoverable, Bool.and_eq_true, Bool.not_eq_true',
    any_eq_false, mem_append, mem_filterMap, mem_stateIds, true_and]
  refine and_congr_right fun _ => ⟨fun h stateId record hr => ?_, fun h record hr => ?_⟩
  · simpa using h record (hr.imp (⟨stateId, ·⟩) (⟨stateId, ·⟩))
  · rcases hr with ⟨stateId, hr⟩ | ⟨stateId, hr⟩
    · simpa using h stateId record (.inl hr)
    · simpa using h stateId record (.inr hr)

/-- **A session is recoverable exactly if nothing disabled recovery and the most recent record of
every state is recoverable**, over every run of the table; and the record of a state in the table is
its most recent one.  A reset and the acknowledgement of a recovery login void the records so far.
-/
theorem isSessionRecoverable_iff (ops : List SessionOp) :
    ((SessionStateTable.run ops).isSessionRecoverable = true ↔
      (∀ op ∈ ops, ¬ op.Disables) ∧
        ∀ stateId, ¬ MostRecent (ops.flatMap SessionOp.notes) stateId false) ∧
    ∀ stateId recoverable,
      ((SessionStateTable.run ops).delta stateId).map SessionStateRecord.recoverable =
          some recoverable ↔
        MostRecent (ops.flatMap SessionOp.notes) stateId recoverable := by
  have hrun := run_reflects ops
  refine ⟨?_, hrun.delta⟩
  have hoff : (SessionStateTable.run ops).masterRecoveryDisabled = false ↔
      ∀ op ∈ ops, ¬ op.Disables := by
    rw [← Bool.not_eq_true, hrun.disabled]
    simp
  rw [isSessionRecoverable_eq_true, hoff]
  refine and_congr_right fun _ => ⟨fun h stateId hrecent => ?_, fun h stateId record hr => ?_⟩
  · obtain ⟨record, hrecord, hfalse⟩ :=
      Option.map_eq_some_iff.mp ((hrun.delta stateId false).mpr hrecent)
    simp [h stateId record (.inr hrecord)] at hfalse
  · rcases hr with hr | hr
    · exact hrun.baseline stateId record hr
    · by_contra hfalse
      refine h stateId ((hrun.delta stateId false).mp ?_)
      simpa [hr] using hfalse

/-- No reset comes between a record that is not recoverable and the acknowledgement of a recovery
login, and the session is recoverable after it. -/
theorem isSessionRecoverable_after_featureAck :
    (SessionStateTable.run [.processSessionState ⟨1, [⟨5, false, []⟩]⟩]).isSessionRecoverable
        = false ∧
      (SessionStateTable.run [.processSessionState ⟨1, [⟨5, false, []⟩]⟩,
        .applyFeatureAckToDelta []]).isSessionRecoverable = true := by
  constructor
  · decide +kernel
  · decide +kernel

end MssqlTds
