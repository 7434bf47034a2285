import MssqlTds.Io.RowStream
import MssqlTds.Datatypes.BufferedAgreement

/-!
# A row is the same however it is buffered

The bytes of a row reach the reader in packets, and the row is decoded from the buffer as far as the
bytes there allow.  `readRow_sameResults` says that this cannot be seen in the result: the calls the
writer receives and the bytes left in the message are those of a row that is awaited column by
column.
-/

namespace MssqlTds

open Reader RowCall GenericDecoder List

variable {cs : Codecs} {row : RowPauseState} {metadata : ColumnMetadata} {col : ℕ} {q : List UInt8}

/-- The most bytes in which the buffered decoder cannot meet a variant that the awaiting decoder
rejects for its size. -/
def bufferedLimit : ℕ := maxAllocSize + 13

/-! ### One column -/

theorem decodeOrDecryptColumn_eq (h : requiresAsync metadata = false) :
    decodeOrDecryptColumn cs row metadata col = decodeInto metadata col cs := by
  simp only [requiresAsync, Bool.or_eq_false_iff] at h
  unfold decodeOrDecryptColumn
  rw [h.2]

theorem anticipates_column (h : Encoded metadata) (hq : q.length ≤ bufferedLimit) :
    Anticipates (bufferedInto metadata col) (decodeOrDecryptColumn cs row metadata col) q := by
  by_cases hasync : requiresAsync metadata = true
  · unfold bufferedInto
    rw [if_pos hasync]
    exact .giveUp
  · rw [decodeOrDecryptColumn_eq (Bool.not_eq_true _ ▸ hasync)]
    exact anticipates_bufferedInto h hq

/-- A column is the same whether or not it is found in the buffer. -/
theorem readColumn_sameResults {buffered : ℕ} (h : Encoded metadata)
    (hbuffered : buffered ≤ bufferedLimit) :
    SameResults (readColumn cs row metadata col buffered)
      (decodeOrDecryptColumn cs row metadata col) := by
  intro q r
  have hlen : (q.take buffered).length ≤ bufferedLimit :=
    (length_take_le _ _).trans hbuffered
  have hcolumn : Anticipates (bufferedInto metadata col)
      (decodeOrDecryptColumn cs row metadata col) (q.take buffered) := anticipates_column h hlen
  unfold readColumn
  dsimp only
  split
  · rfl
  split
  · rename_i calls consumed hrun
    obtain ⟨hconsumed, hawait⟩ := hcolumn.run hrun (q.drop buffered)
    rw [take_append_drop] at hawait
    rw [if_pos hconsumed, hawait]
  · rfl
  · rename_i e hrun
    obtain ⟨e', hawait⟩ := hcolumn.run_error hrun (q.drop buffered)
    rw [take_append_drop] at hawait
    rw [hawait]
    exact ⟨nofun, nofun⟩

theorem readColumn_zero :
    readColumn cs row metadata col 0 = decodeOrDecryptColumn cs row metadata col :=
  rfl

/-! ### All columns -/

variable {buffered : ℕ → ℕ} {plan : ColumnPolicy}

theorem driveColumn_sameResults (h : Encoded metadata)
    (hbuffered : ∀ col, buffered col ≤ bufferedLimit) :
    SameResults (driveColumn cs row plan buffered metadata col)
      (driveColumn cs row plan (fun _ => 0) metadata col) := by
  refine .ite (.refl _) (.ite (.refl _) (.ite (.refl _) (.map ?_ _)))
  exact readColumn_sameResults h (hbuffered col)

theorem driveRowColumnsLoop_sameResults
    (hbuffered : ∀ col, buffered col ≤ bufferedLimit) {columns : List ColumnMetadata}
    (h : ∀ metadata ∈ columns, Encoded metadata) (col : ℕ) :
    SameResults (driveRowColumnsLoop cs row plan buffered col columns)
      (driveRowColumnsLoop cs row plan (fun _ => 0) col columns) := by
  induction columns generalizing col with
  | nil => exact .refl _
  | cons metadata columns ih =>
    have hmetadata : Encoded metadata := h metadata (mem_cons_self ..)
    refine .ite (.refl _) ((driveColumn_sameResults hmetadata hbuffered).bind ?_)
    rintro ⟨calls, _ | result⟩
    · exact (ih (fun m hm => h m (mem_cons_of_mem _ hm)) (col + 1)).map _
    · exact .refl _

/-! ### The columns after a prefix -/

/-- The rest of a row, awaited column by column after the columns of `done`. -/
def awaitRest (cs : Codecs) (row : RowPauseState) (done : RowPrefix)
    (columns : List ColumnMetadata) : TdsReader (List RowCall × RowReadResult) := fun q =>
  (behind done.calls <$>
    driveRowColumnsLoop cs row .decodeAll (fun _ => 0) done.nextColumnIndex columns)
    (q.drop done.consumed)

def awaitColumn (cs : Codecs) (row : RowPauseState) (metadata : ColumnMetadata) (col : ℕ) :
    TdsReader (List RowCall) :=
  if row.isNull col then pure [writeNull col] else decodeOrDecryptColumn cs row metadata col

theorem driveColumn_decodeAll :
    driveColumn cs row .decodeAll (fun _ => 0) metadata col =
      (fun calls => (calls, none)) <$> awaitColumn cs row metadata col := by
  simp only [driveColumn, awaitColumn, ColumnPolicy.stopHere, ColumnPolicy.skip, readColumn_zero,
    Bool.false_eq_true, Bool.false_and, if_false]
  split <;> rfl

variable {done : RowPrefix} {columns : List ColumnMetadata}

theorem driveRowColumnsLoop_cons :
    driveRowColumnsLoop cs row .decodeAll (fun _ => 0) col (metadata :: columns) =
      awaitColumn cs row metadata col >>= fun calls =>
        behind calls <$> driveRowColumnsLoop cs row .decodeAll (fun _ => 0) (col + 1) columns := by
  rw [driveRowColumnsLoop, driveColumn_decodeAll, bind_map_left]
  rfl

theorem behind_behind (calls calls' : List RowCall) (rest : List RowCall × RowReadResult) :
    behind calls (behind calls' rest) = behind (calls ++ calls') rest := by
  simp only [behind, append_assoc]

/-- A column that is read moves on to the next one. -/
theorem awaitRest_cons {calls : List RowCall} {used : ℕ} {outcome : TdsResult Bool}
    (h : awaitColumn cs row metadata done.nextColumnIndex (q.drop done.consumed) =
      .ok (calls, q.drop (done.consumed + used))) :
    awaitRest cs row done (metadata :: columns) q =
      awaitRest cs row ⟨done.calls ++ calls, done.nextColumnIndex + 1,
        done.consumed + used, outcome⟩
        columns q := by
  unfold awaitRest
  rw [driveRowColumnsLoop_cons, map_bind, bind_ok h, Functor.map_map]
  simp only [behind_behind]

theorem awaitRest_cons_error {e : Error}
    (h : awaitColumn cs row metadata done.nextColumnIndex (q.drop done.consumed) = .error e) :
    awaitRest cs row done (metadata :: columns) q = .error e := by
  unfold awaitRest
  rw [driveRowColumnsLoop_cons, map_bind, bind_error h]

/-- What the rest of the row is after a prefix of it has been decoded from the buffer. -/
structure Continues (cs : Codecs) (row : RowPauseState) (bytes rest : List UInt8)
    (done : RowPrefix) (columns : List ColumnMetadata) (done' : RowPrefix) : Prop where
  consumed : done'.consumed ≤ bytes.length
  next : done.nextColumnIndex ≤ done'.nextColumnIndex
  ok : ∀ complete, done'.outcome = .ok complete →
    awaitRest cs row done columns (bytes ++ rest) =
      awaitRest cs row done' (columns.drop (done'.nextColumnIndex - done.nextColumnIndex))
        (bytes ++ rest)
  error : ∀ e, done'.outcome = .error e →
    ∃ e', awaitRest cs row done columns (bytes ++ rest) = .error e'

namespace Continues

variable {bytes rest : List UInt8} {done' : RowPrefix}

/-- No further column. -/
theorem stay (hconsumed : done.consumed ≤ bytes.length) (complete : Bool) :
    Continues cs row bytes rest done columns { done with outcome := .ok complete } := by
  refine ⟨hconsumed, le_refl _, fun _ _ => ?_, fun e he => (nomatch he)⟩
  simp only [Nat.sub_self, drop_zero]
  rfl

theorem stay_self (hconsumed : done.consumed ≤ bytes.length) {complete : Bool}
    (hok : done.outcome = .ok complete) : Continues cs row bytes rest done columns done := by
  have h : Continues cs row bytes rest done columns { done with outcome := .ok complete } :=
    stay hconsumed complete
  rwa [← hok] at h

/-- A column that cannot be decoded. -/
theorem fail {e e' : Error} (hconsumed : done.consumed ≤ bytes.length)
    (h : awaitColumn cs row metadata done.nextColumnIndex ((bytes ++ rest).drop done.consumed) =
      .error e') :
    Continues cs row bytes rest done (metadata :: columns) { done with outcome := .error e } :=
  ⟨hconsumed, le_refl _, fun _ hok => (nomatch hok), fun _ _ => ⟨e', awaitRest_cons_error h⟩⟩

/-- One more column. -/
theorem step {calls : List RowCall} {used : ℕ}
    (h : awaitColumn cs row metadata done.nextColumnIndex ((bytes ++ rest).drop done.consumed) =
      .ok (calls, (bytes ++ rest).drop (done.consumed + used)))
    (hrest : Continues cs row bytes rest
      ⟨done.calls ++ calls, done.nextColumnIndex + 1, done.consumed + used, done.outcome⟩ columns
      done') :
    Continues cs row bytes rest done (metadata :: columns) done' := by
  have hnext : done.nextColumnIndex + 1 ≤ done'.nextColumnIndex := hrest.next
  refine ⟨hrest.consumed, by omega, fun complete hok => ?_, fun e he => ?_⟩
  · rw [awaitRest_cons h, hrest.ok complete hok,
      show done'.nextColumnIndex - done.nextColumnIndex =
        done'.nextColumnIndex - (done.nextColumnIndex + 1) + 1 by omega, drop_succ_cons]
  · rw [awaitRest_cons h]
    exact hrest.error e he

end Continues

theorem continues_bufferedRowLoop {endColumn : ℕ} {bytes : List UInt8}
    (hencoded : ∀ metadata ∈ columns, Encoded metadata) (hbytes : bytes.length ≤ bufferedLimit)
    (hconsumed : done.consumed ≤ bytes.length) (hok : done.outcome = .ok true)
    (rest : List UInt8) :
    Continues cs row bytes rest done columns
      (bufferedRowLoop row endColumn bytes done columns) := by
  -- the place in the row moves on with the columns
  induction columns generalizing done with
  | nil => exact .stay_self hconsumed hok
  | cons metadata columns ih =>
    have hmetadata : Encoded metadata := hencoded metadata (mem_cons_self ..)
    have hcolumns : ∀ m ∈ columns, Encoded m := fun m hm => hencoded m (mem_cons_of_mem _ hm)
    have hdrop : (bytes ++ rest).drop done.consumed = bytes.drop done.consumed ++ rest :=
      drop_append_of_le_length hconsumed
    unfold bufferedRowLoop
    dsimp only
    split
    · exact .stay_self hconsumed hok
    split
    · rename_i hnull
      have hawait : awaitColumn cs row metadata done.nextColumnIndex
          ((bytes ++ rest).drop done.consumed) =
          .ok ([writeNull done.nextColumnIndex], (bytes ++ rest).drop (done.consumed + 0)) := by
        rw [awaitColumn, if_pos hnull]
        rfl
      exact .step hawait (ih hcolumns hconsumed hok)
    rename_i hnull
    have hcolumn : Anticipates (bufferedInto metadata done.nextColumnIndex)
        (awaitColumn cs row metadata done.nextColumnIndex) (bytes.drop done.consumed) := by
      rw [awaitColumn, if_neg hnull]
      exact anticipates_column hmetadata (by rw [length_drop]; omega)
    split
    · omega
    split
    · rename_i calls used hrun
      obtain ⟨hused, hawait⟩ := hcolumn.run hrun rest
      rw [length_drop] at hused
      rw [← hdrop, drop_drop] at hawait
      exact .step hawait (ih hcolumns (by dsimp only; omega) hok)
    · exact .stay hconsumed false
    · rename_i e hrun
      obtain ⟨e', hawait⟩ := hcolumn.run_error hrun rest
      rw [← hdrop] at hawait
      exact .fail hconsumed hawait

/-! ### A whole row -/

theorem driveRowColumnsLoop_atColumn (n : ℕ)
    (col : ℕ) (columns : List ColumnMetadata) :
    driveRowColumnsLoop cs (row.atColumn n) plan buffered col columns =
      driveRowColumnsLoop cs row plan buffered col columns := by
  induction columns generalizing col with
  | nil => rfl
  | cons metadata columns ih =>
    unfold driveRowColumnsLoop
    simp only [ih]
    rfl

def awaitRow (cs : Codecs) (row : RowPauseState) : TdsReader (List RowCall × RowReadResult) :=
  driveRowColumns cs row .decodeAll fun _ => 0

theorem map_behind_nil (m : TdsReader (List RowCall × RowReadResult)) : behind [] <$> m = m :=
  id_map m

theorem awaitRow_eq_awaitRest :
    awaitRow cs row = awaitRest cs row (.start row) (row.columns.drop row.nextColumnIndex) := by
  funext q
  simp only [awaitRest, RowPrefix.start, map_behind_nil, drop_zero]
  rfl

theorem awaitRest_eq_awaitRow :
    awaitRest cs row done (row.columns.drop done.nextColumnIndex) =
      fun q => (behind done.calls <$> awaitRow cs (row.atColumn done.nextColumnIndex))
        (q.drop done.consumed) := by
  funext q
  simp only [awaitRest, awaitRow, driveRowColumns, driveRowColumnsLoop_atColumn]
  rfl

/-- What a row is after an attempt on the bytes that are buffered. -/
theorem awaitRow_after_attempt {endColumn bufferedLen : ℕ}
    (hencoded : ∀ metadata ∈ row.columns, Encoded metadata) (hlen : bufferedLen ≤ bufferedLimit)
    (hdone : tryReadBufferedRowPrefixInto row endColumn (q.take bufferedLen) = done) :
    (∀ complete, done.outcome = .ok complete →
      awaitRow cs row q = (behind done.calls <$> awaitRow cs (row.atColumn done.nextColumnIndex))
        (q.drop done.consumed)) ∧
    ∀ e, done.outcome = .error e → ∃ e', awaitRow cs row q = .error e' := by
  unfold tryReadBufferedRowPrefixInto at hdone
  split at hdone
  · subst hdone
    refine ⟨fun _ _ => ?_, fun e he => (nomatch he)⟩
    simp only [RowPrefix.start, map_behind_nil, drop_zero]
    rfl
  have hencoded' : ∀ metadata ∈ row.columns.drop row.nextColumnIndex, Encoded metadata :=
    fun metadata hm => hencoded metadata (mem_of_mem_drop hm)
  have hloop : Continues cs row (q.take bufferedLen) (q.drop bufferedLen) (.start row)
      (row.columns.drop row.nextColumnIndex) (bufferedRowLoop row endColumn (q.take bufferedLen)
        (.start row) (row.columns.drop row.nextColumnIndex)) :=
    continues_bufferedRowLoop hencoded' ((length_take_le _ _).trans hlen) (Nat.zero_le _) rfl _
  generalize bufferedRowLoop row endColumn (q.take bufferedLen) (.start row)
    (row.columns.drop row.nextColumnIndex) = loop at hdone hloop
  obtain ⟨hconsumed, hnext, hok, herror⟩ := hloop
  rw [take_append_drop, ← awaitRow_eq_awaitRest] at hok herror
  rw [RowPrefix.consume, if_neg (Nat.not_lt.mpr hconsumed)] at hdone
  subst hdone
  cases houtcome : loop.outcome with
  | ok complete =>
    refine ⟨fun _ _ => ?_, fun e he => (nomatch he)⟩
    rw [hok complete houtcome, drop_drop,
      show row.nextColumnIndex + (loop.nextColumnIndex - (RowPrefix.start row).nextColumnIndex) =
        loop.nextColumnIndex from Nat.add_sub_of_le hnext, awaitRest_eq_awaitRow]
  | error e =>
    exact ⟨fun _ h => (nomatch h), fun _ _ => herror e houtcome⟩

/-- **A row is the same however it is buffered.**  Whatever attempts are made on the bytes that are
buffered at the time, and whatever is buffered when the rest is awaited, the calls and the bytes
left are those of a row that is awaited column by column. -/
theorem readRow_sameResults {attempts : List (ℕ × ℕ)}
    (hencoded : ∀ metadata ∈ row.columns, Encoded metadata)
    (hbuffered : ∀ col, buffered col ≤ bufferedLimit)
    (hattempts : ∀ attempt ∈ attempts, attempt.1 ≤ bufferedLimit) :
    SameResults (readRow cs buffered row attempts) (awaitRow cs row) := by
  induction attempts generalizing row with
  | nil =>
    exact driveRowColumnsLoop_sameResults hbuffered
      (fun metadata hm => hencoded metadata (mem_of_mem_drop hm)) _
  | cons attempt attempts ih =>
    obtain ⟨bufferedLen, endColumn⟩ := attempt
    intro q r
    have hlen : bufferedLen ≤ bufferedLimit := hattempts _ (mem_cons_self ..)
    unfold readRow
    dsimp only
    obtain ⟨hok, herror⟩ := @awaitRow_after_attempt cs row q _ endColumn _ hencoded hlen rfl
    split
    · rename_i complete houtcome
      rw [hok complete houtcome]
      refine SameResults.map (ih ?_ ?_) _ _ r
      · exact hencoded
      · exact fun a ha => hattempts a (mem_cons_of_mem _ ha)
    · rename_i e houtcome
      obtain ⟨e', he'⟩ := herror e houtcome
      rw [he']
      exact ⟨nofun, nofun⟩

/-! ### Giving up -/

/-- Nothing is decoded and nothing is taken off the buffer if the first column has to be awaited. -/
theorem prefix_of_none {endColumn : ℕ} {bytes : List UInt8}
    (hmetadata : row.columns[row.nextColumnIndex]? = some metadata)
    (hnull : row.isNull row.nextColumnIndex = false) (hend : row.nextColumnIndex < endColumn)
    (hnone : tryDecodeBufferedInto metadata row.nextColumnIndex bytes = .ok none) :
    tryReadBufferedRowPrefixInto row endColumn bytes = ⟨[], row.nextColumnIndex, 0, .ok false⟩ := by
  unfold tryReadBufferedRowPrefixInto
  split
  · rfl
  obtain ⟨hlt, rfl⟩ := List.getElem?_eq_some_iff.mp hmetadata
  have hloop : bufferedRowLoop row endColumn bytes (.start row)
      (row.columns.drop row.nextColumnIndex) = ⟨[], row.nextColumnIndex, 0, .ok false⟩ := by
    rw [drop_eq_getElem_cons hlt, bufferedRowLoop]
    simp only [RowPrefix.start, hend, not_true_eq_false, if_false, hnull, Bool.false_eq_true,
      Nat.not_lt_zero, gt_iff_lt, drop_zero, hnone]
  rw [hloop, RowPrefix.consume, if_neg (Nat.not_lt_zero _)]
  rfl

theorem readColumn_of_none {buffered : ℕ}
    (hnone : tryDecodeBufferedInto metadata col (q.take buffered) = .ok none) :
    readColumn cs row metadata col buffered q = decodeOrDecryptColumn cs row metadata col q := by
  unfold readColumn
  simp only [hnone, ite_self]

/-! ### The two decoders -/

/-- **The buffered decoder and the awaiting decoder agree.**  A value found in the buffer is the
value that the awaiting decoder returns from the same place, and takes the same bytes; giving up
takes none. So every row is the same however it is buffered. -/
theorem buffered_decoding_agrees (cs : Codecs) :
    (∀ metadata bytes v used rest, Encoded metadata →
      tryDecodeBuffered metadata bytes = .ok (some (v, used)) →
      used ≤ bytes.length ∧
        decode cs metadata (bytes ++ rest) = .ok (v, (bytes ++ rest).drop used)) ∧
    (∀ bytes v used rest, bytes.length ≤ bufferedLimit →
      tryDecodeBufferedVariant bytes = .ok (some (v, used)) →
      used ≤ bytes.length ∧
        readSqlVariantWithBase cs (bytes ++ rest) = .ok (v, (bytes ++ rest).drop used)) ∧
    (∀ metadata col bytes calls used rest, Encoded metadata → bytes.length ≤ bufferedLimit →
      tryDecodeBufferedInto metadata col bytes = .ok (some (calls, used)) →
      used ≤ bytes.length ∧
        decodeInto metadata col cs (bytes ++ rest) = .ok (calls, (bytes ++ rest).drop used)) ∧
    (∀ row metadata endColumn bytes, row.columns[row.nextColumnIndex]? = some metadata →
      row.isNull row.nextColumnIndex = false → row.nextColumnIndex < endColumn →
      tryDecodeBufferedInto metadata row.nextColumnIndex bytes = .ok none →
      tryReadBufferedRowPrefixInto row endColumn bytes = ⟨[], row.nextColumnIndex, 0, .ok false⟩) ∧
    (∀ row metadata col buffered q,
      tryDecodeBufferedInto metadata col (q.take buffered) = .ok none →
      readColumn cs row metadata col buffered q = decodeOrDecryptColumn cs row metadata col q) ∧
    ∀ row buffered attempts, (∀ metadata ∈ row.columns, Encoded metadata) →
      (∀ col, buffered col ≤ bufferedLimit) →
      (∀ attempt ∈ attempts, attempt.1 ≤ bufferedLimit) →
      ∀ q r, readRow cs buffered row attempts q = .ok r ↔ awaitRow cs row q = .ok r := by
  refine ⟨?_, ?_, ?_, ?_, ?_, ?_⟩
  · intro metadata bytes v used rest hencoded hrun
    exact (anticipates_bufferedValue hencoded).run hrun rest
  · intro bytes v used rest hlen hrun
    exact (anticipates_bufferedVariant hlen).run hrun rest
  · intro metadata col bytes calls used rest hencoded hlen hrun
    exact (anticipates_bufferedInto hencoded hlen).run hrun rest
  · intro row metadata endColumn bytes hmetadata hnull hend hnone
    exact prefix_of_none hmetadata hnull hend hnone
  · intro row metadata col buffered q hnone
    exact readColumn_of_none hnone
  · intro row buffered attempts hencoded hbuffered hattempts
    exact readRow_sameResults hencoded hbuffered hattempts

/-- The metadata of an `INT` column and of a `VARCHAR` column with or without a collation. -/
def intColumn : ColumnMetadata :=
  ⟨⟨.intN, 4, .varLen .intN 4⟩, .intN, "number", none⟩

def varCharColumn (collation : Option SqlCollation) : ColumnMetadata :=
  ⟨⟨.bigVarChar, 10, .varLenString ⟨.bigVarChar, by decide⟩ 10 collation⟩, .bigVarChar,
    "text", none⟩

def latinCollation : SqlCollation := ⟨0x409, 0x409, 0, 52⟩

/-- An `NBCROW` of three columns, the second of them `NULL`. -/
def nbcRow : RowPauseState where
  nextColumnIndex := 0
  columns := [intColumn, intColumn, varCharColumn (some latinCollation)]
  nbcNullBitmap := some [2]
  decryptor := none
  covers := by simp

/-- The row is cut in the length of its last column.  The attempt decodes the first two. -/
theorem buffered_decoding_agrees_nbcRow :
    (tryReadBufferedRowPrefixInto nbcRow 3 [4, 7, 0, 0, 0, 1]).nextColumnIndex = 2 ∧
      decode .latin1 intColumn [4, 7, 0, 0, 0, 1, 0, 0x61] = .ok (.int 7, [1, 0, 0x61]) ∧
      readRow .latin1 (fun _ => 2) nbcRow [(6, 3)] [4, 7, 0, 0, 0, 1, 0, 0x61] =
        .ok (([writeI32 0 7, writeNull 1,
          writeString 2 [0x61] (.lcidBased latinCollation)], .rowWritten), []) := by
  obtain ⟨hvalue, -, -, -, -, hrow⟩ := buffered_decoding_agrees .latin1
  refine ⟨rfl, ?_, ?_⟩
  · exact (hvalue intColumn [4, 7, 0, 0, 0, 1] (.int 7) 5 [0, 0x61] (by decide) rfl).2
  · exact (hrow nbcRow (fun _ => 2) [(6, 3)] (by decide) (fun _ => by decide)
      (by decide) _ _).mpr rfl

/-- Two values that only the buffered decoder has: a `NULL` in a narrow column without a collation,
for which the awaiting decoder panics, and a character variant with more data than the awaiting
decoder accepts. -/
theorem buffered_decoding_differs :
    (tryDecodeBuffered (varCharColumn none) [0xFF, 0xFF] = .ok (some (.null, 2)) ∧
      decode .latin1 (varCharColumn none) [0xFF, 0xFF] =
        .error (.panic "called `Option::unwrap()` on a `None` value")) ∧
    ∃ bytes v e, tryDecodeBufferedVariant bytes = .ok (some (v, bytes.length)) ∧
      readSqlVariantWithBase .latin1 bytes = .error e := by
  refine ⟨⟨rfl, rfl⟩, ?_⟩
  have hlen : 9 + (List.replicate (maxAllocSize + 1) (0 : UInt8)).length < 2 ^ 32 := by
    rw [length_replicate]
    decide
  have hdata : (List.replicate (maxAllocSize + 1) (0 : UInt8)).length > maxAllocSize := by
    rw [length_replicate]
    decide
  obtain ⟨e, he⟩ := @readSqlVariantWithBase_too_long .latin1 .nVarChar
    [0, 0, 0, 0, 0] _ _ 8000 rfl rfl
    hlen hdata
  exact ⟨_, _, e, run_reads (reads_bufferedVariant_string rfl rfl hlen), he⟩

end MssqlTds
