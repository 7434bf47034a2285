import MssqlTds.Datatypes.BufferedAgreement
import MssqlTds.Datatypes.PlpAgreement
import MssqlTds.Lib.EState

/-!
# Partially length-prefixed values in the buffer

`PlpChunkStreamReader` can also be given the bytes that are buffered, and gives up where they do not
hold what it is asked for.  While it works it changes its place among the chunks, so
`tryReadBuffered` first tries on a copy.

The attempts are compared with the awaiting reader: `tryBeginBuffered` with `begin`
(`anticipates_begin`) and `tryReadBuffered` with `readInto` (`tryReadBuffered_eq_some`).
`tryReadCompleteBuffered` takes a whole value that came in one chunk.
-/

namespace MssqlTds

open Bytes Reader GenericDecoder BufferedSlice List

namespace PlpChunkStreamReader

/-- The length prefix, if it is buffered; `none` for `NULL`. -/
def tryBeginBuffered : Buffered (Option PlpChunkStreamReader) := do
  let rawLen ← i64
  if rawLen.toUInt64 = sqlPlpNull then pure none
  else if rawLen.toUInt64 = sqlPlpUnknownLen ∨ rawLen.toUInt64 = sqlPlpMaxLen then
    pure (some (new .unknown))
  else if rawLen < 0 ∨ rawLen.toUInt64.toNat > maxPlpSize then throw (some (plpTooLong rawLen))
  else pure (some (new (.known rawLen.toUInt64.toNat)))

/-- The whole of a value whose announced length is that of its only chunk, if a slice of `outLen`
bytes has room for it. -/
def tryReadCompleteBuffered (s : PlpChunkStreamReader) (outLen : ℕ) :
    Buffered (List UInt8 × PlpChunkStreamReader) :=
  match s.length with
  | .unknown => throw none
  | .known length =>
    if s.reachedEnd ∨ s.chunkRemaining ≠ 0 ∨ s.totalRead ≠ 0 then throw none
    else if length > outLen then throw none
    else do
      let chunkLen ← u32
      if length = 0 ∧ chunkLen = 0 then pure ([], { s with reachedEnd := true })
      else if chunkLen.toNat ≠ length then throw none
      else do
        let payload ← takeSlice length
        let terminator ← u32
        if terminator ≠ 0 then throw none
        else pure (payload, { s with totalRead := length, reachedEnd := true })

/-! ### Filling a slice -/

/-- Working on a reader and the buffered bytes in front of it; the place reached so far stays when
it gives up. -/
abbrev InPlace := EStateM (Option Error) (PlpChunkStreamReader × List UInt8)

namespace InPlace

/-- Take bytes off the buffer. -/
def lift {α : Type} (m : Buffered α) : InPlace α := fun (s, bytes) =>
  match m bytes with
  | .ok (a, rest) => .ok a (s, rest)
  | .error e => .error e (s, bytes)

end InPlace

open InPlace

/-- `acceptChunkLength` in place.  A terminator that comes too early is also an end. -/
def acceptBufferedChunkLength (chunkLen : ℕ) : InPlace Bool := fun (s, bytes) =>
  match s.acceptChunkLength chunkLen with
  | .ok (active, s') => .ok active (s', bytes)
  | .error e => .error (some e) (if chunkLen = 0 then { s with reachedEnd := true } else s, bytes)

/-- The next chunk's length, if the current chunk is exhausted. -/
def tryEnsureActiveBufferedChunk : InPlace Bool := do
  let (s, _) ← get
  if s.reachedEnd then pure false
  else if s.chunkRemaining > 0 then pure true
  else do
    let chunkLen ← lift u32
    acceptBufferedChunkLength chunkLen.toNat

/-- Fill the `room` that is left behind `out`.  Every round takes a byte, so the room is fuel
enough. -/
def tryReadBufferedLoop : ℕ → ℕ → List UInt8 → InPlace (List UInt8)
  | 0, _, out => pure out
  | fuel + 1, room, out =>
    if room = 0 then pure out
    else do
      let active ← tryEnsureActiveBufferedChunk
      if !active then pure out
      else do
        let (s, _) ← get
        let toRead := min room s.chunkRemaining
        let payload ← lift (takeSlice toRead)
        modify fun (s, bytes) => (s.advance toRead, bytes)
        tryReadBufferedLoop fuel (room - toRead) (out ++ payload)

/-- Fill a slice of `outLen` bytes. -/
def tryReadBufferedInner (outLen : ℕ) : InPlace (List UInt8) :=
  if outLen = 0 then do
    let _ ← tryEnsureActiveBufferedChunk
    pure []
  else do
    let out ← tryReadBufferedLoop outLen outLen []
    let (s, _) ← get
    if out.length = outLen ∧ s.chunkRemaining = 0 ∧ s.reachedEnd = false then do
      let _ ← tryEnsureActiveBufferedChunk
      pure out
    else pure out

/-- The count of bytes taken and the bytes put into the slice, if the buffer holds them all, and the
reader afterwards. -/
def tryReadBuffered (s : PlpChunkStreamReader) (bytes : List UInt8) (outLen : ℕ) :
    TdsResult (Option (ℕ × List UInt8)) × PlpChunkStreamReader :=
  -- the copy is lost
  match tryReadBufferedInner outLen (s, bytes) with
  | .error none _ => (.ok none, s)
  | .error (some e) _ => (.error e, s)
  | .ok _ _ =>
    match tryReadBufferedInner outLen (s, bytes) with
    | .error none (s', _) => (.ok none, s')
    | .error (some e) (s', _) => (.error e, s')
    | .ok out (s', rest) => (.ok (some (bytes.length - rest.length, out)), s')

/-! ### The attempts anticipate the awaiting reader -/

/-- Work in place as a reader of bytes, with the reader as an argument and a result. -/
def InPlace.attempt {α : Type} (m : InPlace α) (s : PlpChunkStreamReader) :
    Buffered (α × PlpChunkStreamReader) := fun bytes =>
  match m (s, bytes) with
  | .ok a (s', rest) => .ok ((a, s'), rest)
  | .error e _ => .error e

namespace InPlace

variable {α β : Type} {s : PlpChunkStreamReader} {q : List UInt8}

theorem attempt_bind (m : InPlace α) (f : α → InPlace β) :
    (m >>= f).attempt s = m.attempt s >>= fun p => (f p.1).attempt p.2 := by
  funext bytes
  simp only [attempt, EState.bind_apply, Reader.bind_apply]
  cases m (s, bytes) <;> rfl

theorem attempt_lift (m : Buffered α) : (lift m).attempt s = (fun a => (a, s)) <$> m := by
  funext bytes
  simp only [attempt, lift, Reader.map_apply]
  cases m bytes <;> rfl

theorem attempt_accept (chunkLen : ℕ) :
    (acceptBufferedChunkLength chunkLen).attempt s =
      liftBuffered (s.acceptChunkLength chunkLen) := by
  funext bytes
  simp only [attempt, acceptBufferedChunkLength]
  cases s.acceptChunkLength chunkLen <;> rfl

theorem attempt_get_bind (f : PlpChunkStreamReader × List UInt8 → InPlace α) :
    (get >>= f).attempt s = fun bytes => (f (s, bytes)).attempt s bytes := rfl

theorem attempt_ite {c : Prop} [Decidable c] (m n : InPlace α) :
    (if c then m else n).attempt s = if c then m.attempt s else n.attempt s := by
  split <;> rfl

end InPlace

variable {s : PlpChunkStreamReader} {q : List UInt8}

theorem anticipates_ensureActiveChunk :
    Anticipates (tryEnsureActiveBufferedChunk.attempt s) s.ensureActiveChunk q := by
  have hattempt : tryEnsureActiveBufferedChunk.attempt s =
      if s.reachedEnd then pure (false, s)
      else if s.chunkRemaining > 0 then pure (true, s)
      else u32 >>= fun chunkLen => liftBuffered (s.acceptChunkLength chunkLen.toNat) := by
    unfold tryEnsureActiveBufferedChunk
    funext bytes
    simp only [attempt_ite, attempt_bind, attempt_lift,
      attempt_accept, bind_map_left]
    rfl
  rw [hattempt]
  refine .ite (fun _ => .pure _) fun _ => .ite (fun _ => .pure _) fun _ => ?_
  exact anticipates_u32.bind fun _ _ _ => anticipates_lift _

theorem anticipates_readIntoLoop {fuel room : ℕ} {out : List UInt8} :
    Anticipates ((tryReadBufferedLoop fuel room out).attempt s)
      (readIntoLoop fuel s room out) q := by
  induction fuel generalizing s room out q with
  | zero => exact .pure _
  | succ fuel ih =>
    unfold tryReadBufferedLoop readIntoLoop
    rw [attempt_ite, attempt_bind]
    refine .ite (fun _ => .pure _) fun _ => anticipates_ensureActiveChunk.bind fun p q' _ => ?_
    obtain ⟨active, s₁⟩ := p
    rw [attempt_ite]
    refine .ite (fun _ => .pure _) fun _ => ?_
    -- the payload is taken before the place moves on
    have hround : attempt (do
          let (s, _) ← get
          let toRead := min room s.chunkRemaining
          let payload ← lift (takeSlice toRead)
          modify fun (s, bytes) => (s.advance toRead, bytes)
          tryReadBufferedLoop fuel (room - toRead) (out ++ payload)) s₁ =
        takeSlice (min room s₁.chunkRemaining) >>= fun payload =>
          (tryReadBufferedLoop fuel (room - min room s₁.chunkRemaining) (out ++ payload)).attempt
            (s₁.advance (min room s₁.chunkRemaining)) := by
      funext bytes
      simp only [attempt_bind, attempt_lift, bind_map_left]
      rfl
    rw [hround]
    exact (anticipates_takeSlice _).bind fun _ _ _ => ih

/-- **A slice that is filled from the buffer is filled with what the awaiting reader would put
there.** -/
theorem anticipates_readInto {outLen : ℕ} :
    Anticipates ((tryReadBufferedInner outLen).attempt s) (s.readInto outLen) q := by
  unfold tryReadBufferedInner readInto
  rw [attempt_ite, attempt_bind, attempt_bind]
  refine .ite (fun _ => ?_) fun _ => ?_
  · exact anticipates_ensureActiveChunk.bind fun p _ _ => .pure _
  · refine anticipates_readIntoLoop.bind fun p q' _ => ?_
    obtain ⟨out, s₁⟩ := p
    rw [attempt_get_bind]
    simp only [attempt_ite, attempt_bind]
    refine .ite (fun _ => ?_) fun _ => .pure _
    exact anticipates_ensureActiveChunk.bind fun p _ _ => .pure _

variable {bytes : List UInt8}

/-- The second try is on what the first one was. -/
theorem run_tryReadBufferedInner {outLen : ℕ} :
    ((tryReadBufferedInner outLen).attempt s).run bytes =
      match s.tryReadBuffered bytes outLen with
      | (.ok (some (consumed, out)), s') => .ok (some ((out, s'), consumed))
      | (.ok none, _) => .ok none
      | (.error e, _) => .error e := by
  unfold Attempt.run attempt tryReadBuffered
  cases tryReadBufferedInner outLen (s, bytes) with
  | ok out place => rfl
  | error e place => cases e <;> rfl

variable {s' : PlpChunkStreamReader}

theorem tryReadBuffered_eq_some {bytes out : List UInt8} {outLen consumed : ℕ}
    (h : s.tryReadBuffered bytes outLen = (.ok (some (consumed, out)), s'))
    (rest : List UInt8) :
    consumed ≤ bytes.length ∧
      s.readInto outLen (bytes ++ rest) = .ok ((out, s'), (bytes ++ rest).drop consumed) := by
  refine (@anticipates_readInto s bytes outLen).run ?_ rest
  rw [run_tryReadBufferedInner, h]

theorem tryReadBuffered_eq_none {outLen : ℕ}
    (h : (s.tryReadBuffered bytes outLen).1 = .ok none) :
    (s.tryReadBuffered bytes outLen).2 = s := by
  unfold tryReadBuffered at h ⊢
  cases hinner : tryReadBufferedInner outLen (s, bytes) with
  | ok out place =>
    rw [hinner] at h
    cases h
  | error e place => cases e <;> rfl

theorem tryReadBuffered_eq_error {outLen : ℕ} {e : Error}
    (h : s.tryReadBuffered bytes outLen = (.error e, s'))
    (rest : List UInt8) : ∃ e', s.readInto outLen (bytes ++ rest) = .error e' := by
  refine (@anticipates_readInto s bytes outLen).run_error (e := e) ?_ rest
  rw [run_tryReadBufferedInner, h]

/-! ### A value in one chunk -/

/-- What a whole value in the buffer looks like: a chunk and the terminator, or the terminator
only. -/
theorem tryReadCompleteBuffered_eq_ok {outLen : ℕ} {out q' : List UInt8}
    (h : s.tryReadCompleteBuffered outLen q = .ok ((out, s'), q')) :
    (s.reachedEnd = false ∧ s.chunkRemaining = 0 ∧ s.totalRead = 0) ∧
      s.length = .known out.length ∧ out.length ≤ outLen ∧
      (∃ chunkLen : UInt32, chunkLen.toNat = out.length ∧
        q = leBytes 4 chunkLen.toNat ++ out ++ (if out = [] then [] else leBytes 4 0) ++ q') ∧
      s' = { s with totalRead := out.length, reachedEnd := true } := by
  unfold tryReadCompleteBuffered at h
  cases hlength : s.length with
  | unknown => rw [hlength] at h; cases h
  | known length =>
    rw [hlength] at h
    dsimp only at h
    split at h
    · cases h
    rename_i hfresh
    push Not at hfresh
    obtain ⟨hended, hchunk, htotal⟩ := hfresh
    rw [ne_eq, Bool.not_eq_true] at hended
    split at h
    · cases h
    obtain ⟨chunkLen, q₁, hread, h⟩ := bind_eq_ok.mp h
    -- nothing follows the buffer here
    obtain ⟨-, hheader⟩ := anticipates_u32.ok hread []
    have hbytes := readUint32_eq_ok.mp hheader
    rw [append_nil, append_nil] at hbytes
    refine ⟨⟨hended, hchunk, htotal⟩, ?_⟩
    split at h
    · rename_i hzero
      cases h
      obtain ⟨rfl, rfl⟩ := hzero
      refine ⟨rfl, Nat.zero_le _, ⟨0, rfl, by simpa using hbytes⟩, ?_⟩
      rw [length_nil, htotal]
    rename_i hzero
    split at h
    · cases h
    rename_i hlen
    rw [not_not] at hlen
    obtain ⟨chunk, q₂, hpayload, h⟩ := bind_eq_ok.mp h
    obtain ⟨terminator, q₃, hlast, h⟩ := bind_eq_ok.mp h
    obtain ⟨-, hchunk'⟩ := (anticipates_takeSlice _).ok hpayload []
    obtain ⟨-, hterminator⟩ := anticipates_u32.ok hlast []
    obtain ⟨hq₁, hsize⟩ := readBytes_eq_ok.mp hchunk'
    have hq₂ := readUint32_eq_ok.mp hterminator
    rw [append_nil, append_nil] at hq₁ hq₂
    split at h
    · cases h
    rename_i hend
    rw [not_not] at hend
    cases h
    have hne : out ≠ [] := by
      rintro rfl
      exact hzero ⟨hsize.symm, UInt32.toNat_inj.mp (by rw [hlen, ← hsize]; rfl)⟩
    refine ⟨by rw [hsize], by omega, ⟨chunkLen, by omega, ?_⟩, by rw [hsize]⟩
    rw [hbytes, hq₁, hq₂, hend, if_neg hne]
    simp only [append_assoc]
    rfl

/-- A value starts with none of its bytes read. -/
theorem begin_eq_some {r : List UInt8} (h : begin q = .ok (some s, r)) :
    s.WellFormed ∧ s = new s.length := by
  obtain ⟨rawLen, q₁, -, h⟩ := bind_eq_ok.mp h
  split at h
  · cases h
  split at h
  · cases h
    exact ⟨wellFormed_new (Nat.le_refl _), rfl⟩
  split at h
  · cases h
  rename_i hsize
  cases h
  push Not at hsize
  exact ⟨wellFormed_new hsize.2, rfl⟩

/-! ### Slices -/

variable {payload rest : List UInt8}

/-- **A slice takes the next bytes of the value**, and what is left of it is the rest. -/
theorem readInto_of_left (hs : s.WellFormed)
    (hleft : s.Left q payload rest) (outLen : ℕ) :
    ∃ s' q', s.readInto outLen q = .ok ((payload.take outLen, s'), q') ∧ s'.WellFormed ∧
      s'.Left q' (payload.drop outLen) rest := by
  rcases Nat.eq_zero_or_pos outLen with rfl | hpos
  · cases hensure : s.ensureActiveChunk q with
    | error e => exact absurd hleft ((ensureActiveChunk_ends hs).error hensure _ _)
    | ok p =>
      obtain ⟨⟨active, s'⟩, q'⟩ := p
      obtain ⟨hmoves, -⟩ := (ensureActiveChunk_ends hs).ok hensure
      obtain ⟨payload', rfl, hleft'⟩ := (hmoves.left_iff _ _).mp hleft
      refine ⟨s', q', ?_, hmoves.wellFormed, hleft'⟩
      rw [readInto, if_pos rfl, bind_ok hensure]
      rfl
  · cases hread : s.readInto outLen q with
    | error e => exact absurd hleft ((readInto_ends hs hpos).error hread _ _)
    | ok p =>
      obtain ⟨⟨out, s'⟩, q'⟩ := p
      obtain ⟨hmoves, hle, hfills, -⟩ := (readInto_ends hs hpos).ok hread
      obtain ⟨payload', rfl, hleft'⟩ := (hmoves.left_iff _ _).mp hleft
      rcases hfills with hfull | hended
      · subst hfull
        exact ⟨s', q', by rw [take_left], hmoves.wellFormed, by rwa [drop_left]⟩
      · -- the value ends in this slice
        have hnil : payload' = [] := by
          have := hleft'.2
          rw [hended, if_pos rfl] at this
          exact this.1
        subst hnil
        rw [append_nil] at hleft ⊢
        refine ⟨s', q', by rw [take_of_length_le hle], hmoves.wellFormed, ?_⟩
        rwa [drop_of_length_le hle]

/-- A request for a slice of `outLen` bytes: awaited, or from the first bytes of the message that
are buffered. -/
inductive SliceRead where
  | await (outLen : ℕ)
  | attempt (bufferedLen outLen : ℕ)

namespace SliceRead

def outLen : SliceRead → ℕ
  | await outLen => outLen
  | attempt _ outLen => outLen

/-- The bytes put into the slice, or `none` if the attempt gave up. -/
def run (s : PlpChunkStreamReader) : SliceRead →
    TdsReader (Option (List UInt8) × PlpChunkStreamReader)
  | await outLen => (fun (out, s') => (some out, s')) <$> s.readInto outLen
  | attempt bufferedLen outLen => fun q =>
    match s.tryReadBuffered (q.take bufferedLen) outLen with
    | (.ok (some (consumed, out)), s') => .ok ((some out, s'), q.drop consumed)
    | (.ok none, s') => .ok ((none, s'), q)
    | (.error e, _) => .error e

/-- One request after the other. -/
def runAll (s : PlpChunkStreamReader) : List SliceRead →
    TdsReader (List (Option (List UInt8)) × PlpChunkStreamReader)
  | [] => pure ([], s)
  | read :: reads => do
    let (out, s) ← read.run s
    let (outs, s) ← runAll s reads
    pure (out :: outs, s)

/-- All that was put into the slices. -/
def output (outs : List (Option (List UInt8))) : List UInt8 := (outs.map (·.getD [])).flatten

/-- The room in the slices of the requests that were served. -/
def room : List SliceRead → List (Option (List UInt8)) → ℕ
  | read :: reads, out :: outs => (if out.isSome then read.outLen else 0) + room reads outs
  | _, _ => 0

theorem run_of_left (hs : s.WellFormed)
    (hleft : s.Left q payload rest) (read : SliceRead) :
    ∃ out s' q', read.run s q = .ok ((out, s'), q') ∧ s'.WellFormed ∧
      out.getD [] = payload.take (if out.isSome then read.outLen else 0) ∧
      s'.Left q' (payload.drop (if out.isSome then read.outLen else 0)) rest := by
  cases read with
  | await outLen =>
    obtain ⟨s', q', hread, hs', hleft'⟩ := readInto_of_left hs hleft outLen
    refine ⟨some (payload.take outLen), s', q', ?_, hs', rfl, hleft'⟩
    rw [run, map_apply, hread]
  | attempt bufferedLen outLen =>
    obtain ⟨s', q', hread, hs', hleft'⟩ := readInto_of_left hs hleft outLen
    rw [run]
    cases htry : s.tryReadBuffered (q.take bufferedLen) outLen with
    | mk result s₁ =>
      match result, htry with
      | .error e, htry =>
        obtain ⟨e', he'⟩ := tryReadBuffered_eq_error htry (q.drop bufferedLen)
        rw [take_append_drop, hread] at he'
        cases he'
      | .ok none, htry =>
        have hsame := tryReadBuffered_eq_none (by rw [htry])
        rw [htry] at hsame
        subst hsame
        refine ⟨none, s₁, q, ?_, hs, rfl, hleft⟩
        dsimp only at htry ⊢
        rw [htry]
      | .ok (some (consumed, out)), htry =>
        obtain ⟨-, hsame⟩ := tryReadBuffered_eq_some htry (q.drop bufferedLen)
        rw [take_append_drop, hread] at hsame
        cases hsame
        refine ⟨some (payload.take outLen), _, _, ?_, hs', rfl, hleft'⟩
        dsimp only
        rw [htry]

theorem runAll_of_left (hs : s.WellFormed)
    (hleft : s.Left q payload rest) (reads : List SliceRead) :
    ∃ outs s' q', runAll s reads q = .ok ((outs, s'), q') ∧ s'.WellFormed ∧
      output outs = payload.take (room reads outs) ∧
      s'.Left q' (payload.drop (room reads outs)) rest := by
  induction reads generalizing s q payload with
  | nil => exact ⟨[], s, q, rfl, hs, rfl, hleft⟩
  | cons read reads ih =>
    obtain ⟨out, s₁, q₁, hrun, hs₁, hout, hleft₁⟩ := run_of_left hs hleft read
    obtain ⟨outs, s₂, q₂, hruns, hs₂, houts, hleft₂⟩ := ih hs₁ hleft₁
    refine ⟨out :: outs, s₂, q₂, ?_, hs₂, ?_, ?_⟩
    · rw [runAll, bind_ok hrun]
      show (runAll s₁ reads >>= fun p => pure (out :: p.1, p.2)) q₁ = _
      rw [bind_ok hruns]
      rfl
    · rw [output, map_cons, flatten_cons, hout, ← output, houts, room, take_add]
    · rw [room, ← drop_drop]
      exact hleft₂

end SliceRead

/-! ### Chunks -/

/-- Chunks that a value announced with `length` can come in. -/
structure Announced (length : PlpChunkReadLength) (chunks : List (List UInt8)) : Prop where
  chunk_pos : ∀ chunk ∈ chunks, 0 < chunk.length
  chunk_le : ∀ chunk ∈ chunks, chunk.length ≤ maxPlpChunkSize
  total_le : chunks.flatten.length ≤ maxPlpSize
  known : ∀ n, length = .known n → chunks.flatten.length = n

theorem left_wireChunks {length : PlpChunkReadLength} {chunks : List (List UInt8)}
    (h : Announced length chunks) (rest : List UInt8) :
    (new length).Left (wireChunks chunks ++ rest) chunks.flatten rest := by
  have hcomplete : (new length).Complete chunks.flatten.length := by
    intro n hn
    exact (Nat.zero_add _).trans (h.known n hn)
  refine ⟨hcomplete, ?_⟩
  refine chunkStream_wireChunks h.chunk_pos h.chunk_le ?_
  cases hlength : length with
  | unknown => exact (Nat.zero_add _).trans_le h.total_le
  | known n => exact (Nat.zero_add _).trans_le (h.known n hlength).le

/-- **The readers of a value's chunks agree.**  A slice filled from the buffer is the slice the
awaiting reader fills, with the same reader behind it and the same bytes taken; giving up changes
nothing; a value taken whole is all its chunks, up to and with the terminator; and in whatever
slices a value is read, from the buffer or awaited, they hold its chunks one after the other. -/
theorem plp_buffered_reads_agree :
    (∀ (s s' : PlpChunkStreamReader) bytes outLen consumed out rest,
      s.tryReadBuffered bytes outLen = (.ok (some (consumed, out)), s') →
      consumed ≤ bytes.length ∧
        s.readInto outLen (bytes ++ rest) = .ok ((out, s'), (bytes ++ rest).drop consumed)) ∧
    (∀ (s : PlpChunkStreamReader) bytes outLen, (s.tryReadBuffered bytes outLen).1 = .ok none →
      (s.tryReadBuffered bytes outLen).2 = s) ∧
    (∀ (s s' : PlpChunkStreamReader) bytes outLen out consumed,
      (s.tryReadCompleteBuffered outLen).run bytes = .ok (some ((out, s'), consumed)) →
      s'.reachedEnd = true ∧ ∃ chunks rest, (∀ chunk ∈ chunks, 0 < chunk.length) ∧
        out = chunks.flatten ∧ bytes = wireChunks chunks ++ rest ∧
        consumed = (wireChunks chunks).length) ∧
    ∀ (s : PlpChunkStreamReader) q chunks rest reads,
      begin q = .ok (some s, wireChunks chunks ++ rest) → Announced s.length chunks →
      ∃ outs s' q', SliceRead.runAll s reads (wireChunks chunks ++ rest) = .ok ((outs, s'), q') ∧
        SliceRead.output outs = chunks.flatten.take (SliceRead.room reads outs) ∧
        (s'.reachedEnd = true → SliceRead.output outs = chunks.flatten ∧ q' = rest) := by
  refine ⟨?_, ?_, ?_, ?_⟩
  · intro s s' bytes outLen consumed out rest h
    exact tryReadBuffered_eq_some h rest
  · intro s bytes outLen h
    exact tryReadBuffered_eq_none h
  · intro s s' bytes outLen out consumed h
    unfold Attempt.run at h
    split at h <;> cases h
    rename_i q' hq
    obtain ⟨-, -, -, ⟨chunkLen, hlen, rfl⟩, rfl⟩ := tryReadCompleteBuffered_eq_ok hq
    refine ⟨rfl, if out = [] then [] else [out], q', ?_⟩
    by_cases hout : out = []
    · subst hout
      rw [if_pos rfl, if_pos rfl, hlen]
      simp [wireChunks]
    · rw [if_neg hout, if_neg hout, hlen]
      refine ⟨by simp [length_pos_iff.mpr hout], by simp, by simp [wireChunks], ?_⟩
      simp only [wireChunks, length_append, length_leBytes]
      omega
  · intro s q chunks rest reads hbegin hchunks
    obtain ⟨hs, hnew⟩ := begin_eq_some hbegin
    have hleft : s.Left (wireChunks chunks ++ rest) chunks.flatten rest := by
      rw [hnew]
      exact left_wireChunks hchunks rest
    obtain ⟨outs, s', q', hrun, hs', hout, hleft'⟩ := SliceRead.runAll_of_left hs hleft reads
    refine ⟨outs, s', q', hrun, hout, fun hended => ?_⟩
    -- nothing is left behind the end
    obtain ⟨-, hrest⟩ := hleft'
    rw [hended, if_pos rfl] at hrest
    refine ⟨?_, hrest.2.symm⟩
    rw [hout, take_of_length_le (drop_eq_nil_iff.mp hrest.1)]

/-- A value of three bytes in two chunks, read from the buffer and awaited. -/
theorem plp_buffered_reads_agree_twoChunks :
    (new (.known 3)).readInto 1 ([2, 0, 0, 0, 7, 8] ++ [1, 0, 0, 0, 9, 0, 0, 0, 0]) =
        .ok (([7], ⟨.known 3, 1, false, 1⟩), [8, 1, 0, 0, 0, 9, 0, 0, 0, 0]) ∧
      ((new (.known 3)).tryReadBuffered [2, 0, 0] 1).2 = new (.known 3) ∧
      (∃ chunks rest, [7] = chunks.flatten ∧
        [1, 0, 0, 0, 7, 0, 0, 0, 0, 5] = wireChunks chunks ++ rest ∧
          9 = (wireChunks chunks).length) ∧
      ∃ outs s' q', SliceRead.runAll (new (.known 3)) [.attempt 3 2, .await 2, .attempt 99 2]
          (wireChunks [[7, 8], [9]] ++ [5]) = .ok ((outs, s'), q') ∧
        SliceRead.output outs = [7, 8, 9] := by
  obtain ⟨hsame, hnone, hcomplete, hslices⟩ := plp_buffered_reads_agree
  refine ⟨?_, ?_, ?_, ?_⟩
  · exact (hsame (new (.known 3)) _ [2, 0, 0, 0, 7, 8] 1 5 _ _ rfl).2
  · exact hnone (new (.known 3)) [2, 0, 0] 1 rfl
  · obtain ⟨-, chunks, rest, -, hout, hbytes, hlen⟩ :=
      hcomplete (new (.known 1)) _ [1, 0, 0, 0, 7, 0, 0, 0, 0, 5] 4 [7] 9 rfl
    exact ⟨chunks, rest, hout, hbytes, hlen⟩
  · obtain ⟨outs, s', q', hrun, hout, -⟩ := hslices (new (.known 3))
      ([3, 0, 0, 0, 0, 0, 0, 0] ++ (wireChunks [[7, 8], [9]] ++ [5])) [[7, 8], [9]] [5]
      [.attempt 3 2, .await 2, .attempt 99 2] rfl
      ⟨by decide, by decide, by decide, fun n hn => by cases hn; rfl⟩
    refine ⟨outs, s', q', hrun, ?_⟩
    have hruns : SliceRead.runAll (new (.known 3)) [.attempt 3 2, .await 2, .attempt 99 2]
        (wireChunks [[7, 8], [9]] ++ [5]) =
          .ok (([none, some [7, 8], some [9]], ⟨.known 3, 0, true, 3⟩), [5]) := rfl
    cases hrun
    rfl

end PlpChunkStreamReader

end MssqlTds
