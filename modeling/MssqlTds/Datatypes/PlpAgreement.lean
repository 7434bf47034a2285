import MssqlTds.Datatypes.PlpStream

/-!
# The two readers of a partially length-prefixed value

`Chunks` describes the chunks of a value on the wire.  Both readers are compared with it: the one
that reads a whole value (`readPlpChunksUnknownLen_eq_ok`, `readPlpChunksIntoSlice_eq_ok`), and the
one that keeps its place among the chunks (`readSlices_eq_ok`), for which `Left` says what is left
of the value at a place.

`plp_readers_agree` is the result: the readers accept the same byte strings with the same values,
whatever the sizes of the slices, but for two kinds.  A value shorter than it was announced is
filled up with zeros by one and rejected by the other; and the length prefix `sqlPlpMaxLen` is an
unknown length for one and an invalid length for the other.
-/

namespace MssqlTds

open Bytes Reader GenericDecoder List

/-! ### Chunks on the wire -/

/-- What follows a chunk length of `len`, after `total` bytes of payload: the chunks up to the empty
one hold `payload`, and `rest` comes after them.  The payload is at most `limit` bytes long. -/
inductive Chunks (limit : ℕ) : ℕ → ℕ → List UInt8 → List UInt8 → List UInt8 → Prop
  | nil (total : ℕ) (q : List UInt8) : Chunks limit total 0 q [] q
  | cons {total : ℕ} {chunk q payload rest : List UInt8} {next : UInt32} (hne : chunk ≠ [])
      (hchunk : chunk.length ≤ maxPlpChunkSize) (htotal : total + chunk.length ≤ limit)
      (htail : Chunks limit (total + chunk.length) next.toNat q payload rest) :
      Chunks limit total chunk.length (chunk ++ (leBytes 4 next.toNat ++ q)) (chunk ++ payload) rest

/-- The chunks of a value behind its length prefix. -/
def ChunkStream (limit total : ℕ) (q payload rest : List UInt8) : Prop :=
  ∃ (next : UInt32) (q₁ : List UInt8), q = leBytes 4 next.toNat ++ q₁ ∧
    Chunks limit total next.toNat q₁ payload rest

/-- What is left of the chunks when `remaining` bytes of the current one are. -/
def ChunksFrom (limit total remaining : ℕ) (q payload rest : List UInt8) : Prop :=
  if 0 < remaining then Chunks limit total remaining q payload rest
  else ChunkStream limit total q payload rest

variable {limit total len : ℕ} {q payload rest : List UInt8}

theorem chunks_zero_iff : Chunks limit total 0 q payload rest ↔ payload = [] ∧ rest = q := by
  constructor
  · intro h
    generalize hlen : 0 = len at h
    cases h with
    | nil => exact ⟨rfl, rfl⟩
    | cons hne => exact absurd (length_eq_zero_iff.mp hlen.symm) hne
  · rintro ⟨rfl, rfl⟩
    exact .nil total rest

theorem chunks_pos_iff (hpos : 0 < len) :
    Chunks limit total len q payload rest ↔ len ≤ maxPlpChunkSize ∧ total + len ≤ limit ∧
      ∃ chunk q₁ payload', q = chunk ++ q₁ ∧ chunk.length = len ∧ payload = chunk ++ payload' ∧
        ChunkStream limit (total + len) q₁ payload' rest := by
  constructor
  · intro h
    cases h with
    | nil => omega
    | cons hne hchunk htotal htail =>
      exact ⟨hchunk, htotal, _, _, _, rfl, rfl, rfl, _, _, rfl, htail⟩
  · rintro ⟨hchunk, htotal, chunk, q₁, payload', rfl, rfl, rfl, next, q₂, rfl, htail⟩
    exact .cons (ne_nil_of_length_pos hpos) hchunk htotal htail

variable {next : UInt32}

theorem chunkStream_header_iff :
    ChunkStream limit total (leBytes 4 next.toNat ++ q) payload rest ↔
      Chunks limit total next.toNat q payload rest := by
  refine ⟨?_, fun h => ⟨next, q, rfl, h⟩⟩
  rintro ⟨next', q₁, hq, hchunks⟩
  obtain ⟨hbytes, rfl⟩ := append_inj hq (by simp)
  have hnext : next.toNat = next'.toNat := by
    have h := congrArg ofLe hbytes
    rwa [ofLe_leBytes_of_lt next.toNat_lt, ofLe_leBytes_of_lt next'.toNat_lt] at h
  rwa [hnext]

variable {bytes : List UInt8} {n : ℕ}

/-- A chunk is as good as its first bytes and a chunk of the others. -/
theorem chunks_split_iff (hpos : 0 < n) (hn : n ≤ len)
    (hlen : bytes.length = n) (hchunk : len ≤ maxPlpChunkSize) (htotal : total + len ≤ limit) :
    Chunks limit total len (bytes ++ q) payload rest ↔
      ∃ payload', payload = bytes ++ payload' ∧
        ChunksFrom limit (total + n) (len - n) q payload' rest := by
  subst hlen
  rw [chunks_pos_iff (by omega)]
  simp only [ChunksFrom]
  rcases Nat.lt_or_eq_of_le hn with hlt | rfl
  · simp only [if_pos (show 0 < len - bytes.length by omega),
      chunks_pos_iff (show 0 < len - bytes.length by omega),
      show total + bytes.length + (len - bytes.length) = total + len by omega]
    constructor
    · rintro ⟨-, -, chunk, q₁, payload', hq, hlen, rfl, hstream⟩
      obtain ⟨chunk', rfl, rfl⟩ : ∃ chunk', chunk = bytes ++ chunk' ∧ q = chunk' ++ q₁ := by
        rcases append_eq_append_iff.mp hq with ⟨as, rfl, h⟩ | ⟨bs, rfl, h⟩
        · exact ⟨as, rfl, h⟩
        · rw [length_append] at hlt
          omega
      rw [length_append] at hlen
      exact ⟨chunk' ++ payload', by rw [append_assoc], by omega, by omega, chunk', q₁,
        payload', rfl, by omega, rfl, hstream⟩
    · rintro ⟨_, rfl, -, -, chunk, q₁, payload', rfl, hlen, rfl, hstream⟩
      exact ⟨hchunk, htotal, bytes ++ chunk, q₁, payload', by rw [append_assoc],
        by rw [length_append]; omega, by rw [append_assoc], hstream⟩
  · simp only [Nat.sub_self, Nat.lt_irrefl, if_false]
    constructor
    · rintro ⟨-, -, chunk, q₁, payload', hq, hlen, rfl, hstream⟩
      obtain ⟨rfl, rfl⟩ := append_inj hq hlen.symm
      exact ⟨payload', rfl, hstream⟩
    · rintro ⟨payload', rfl, hstream⟩
      exact ⟨hchunk, htotal, bytes, q, payload', rfl, rfl, rfl, hstream⟩

theorem chunks_mono {limit' : ℕ} (hle : limit ≤ limit')
    (h : Chunks limit total len q payload rest) :
    Chunks limit' total len q payload rest := by
  induction h with
  | nil total q => exact .nil total q
  | cons hne hchunk htotal _ ih => exact .cons hne hchunk (Nat.le_trans htotal hle) ih

theorem chunks_total_le (htotal : total ≤ limit) (h : Chunks limit total len q payload rest) :
    total + payload.length ≤ limit := by
  induction h with
  | nil => simpa
  | cons _ _ hle _ ih =>
    rw [length_append]
    have := ih hle
    omega

/-! ### Reading a whole value -/

/-- One round of a reader's loop: the payload of a chunk and the length of the next. -/
theorem chunk_round_eq_ok {α : Type} {k : List UInt8 → UInt32 → TdsReader α} {a : α} :
    (do let bytes ← readBytes len
        let next ← readUint32
        k bytes next) q = .ok (a, rest) ↔
      ∃ chunk next q₁, q = chunk ++ (leBytes 4 next.toNat ++ q₁) ∧ chunk.length = len ∧
        k chunk next q₁ = .ok (a, rest) := by
  simp only [bind_eq_ok, readBytes_eq_ok, readUint32_eq_ok]
  constructor
  · rintro ⟨chunk, q', ⟨rfl, hlen⟩, next, q₁, rfl, hk⟩
    exact ⟨chunk, next, q₁, rfl, hlen, hk⟩
  · rintro ⟨chunk, next, q₁, rfl, hlen, hk⟩
    exact ⟨chunk, _, ⟨rfl, hlen⟩, next, q₁, rfl, hk⟩

variable {loop : ℕ → ℕ → List UInt8 → TdsReader (List UInt8)}

/-- Any loop over the chunks that gathers the payload in a buffer, and finishes with `fin`. -/
theorem chunk_loop_eq_ok
    {fin : List UInt8 → List UInt8} {tooLong : List UInt8 → ℕ → Error}
    (hloop : ∀ fuel len buffer, loop (fuel + 1) len buffer =
      if len = 0 then pure (fin buffer)
      else do
        checkPlpChunk len
        if buffer.length + len > limit then throw (tooLong buffer len)
        else do
          let bytes ← readBytes len
          let next ← readUint32
          loop fuel next.toNat (buffer ++ bytes))
    {fuel : ℕ} {buffer r : List UInt8} (hfuel : q.length < fuel) :
    loop fuel len buffer q = .ok (r, rest) ↔
      ∃ payload, r = fin (buffer ++ payload) ∧
        Chunks limit buffer.length len q payload rest := by
  induction fuel generalizing len buffer q with
  | zero => omega
  | succ fuel ih =>
    rw [hloop]
    by_cases hzero : len = 0
    · subst hzero
      simp [chunks_zero_iff, eq_comm]
    have hpos : 0 < len := Nat.pos_of_ne_zero hzero
    simp only [if_neg hzero, chunks_pos_iff hpos, checkPlpChunk]
    by_cases hchunk : len ≤ maxPlpChunkSize
    swap
    · simp [hchunk, Nat.lt_of_not_le hchunk]
    by_cases htotal : buffer.length + len ≤ limit
    swap
    · simp [htotal, Nat.lt_of_not_le htotal, Nat.not_lt.mpr hchunk]
    simp only [if_neg (Nat.not_lt.mpr hchunk), if_neg (Nat.not_lt.mpr htotal), pure_bind,
      chunk_round_eq_ok, hchunk, htotal, true_and]
    constructor
    · rintro ⟨chunk, next, q₁, rfl, rfl, h⟩
      have hless : q₁.length < fuel := by
        simp only [length_append, length_leBytes] at hfuel
        omega
      obtain ⟨payload, rfl, hchunks⟩ := (ih hless).mp h
      rw [length_append] at hchunks
      exact ⟨chunk ++ payload, by rw [append_assoc], chunk, _, payload, rfl, rfl, rfl,
        next, q₁, rfl, hchunks⟩
    · rintro ⟨_, rfl, chunk, _, payload, rfl, rfl, rfl, next, q₁, rfl, hchunks⟩
      have hless : q₁.length < fuel := by
        simp only [length_append, length_leBytes] at hfuel
        omega
      refine ⟨chunk, next, q₁, rfl, rfl, (ih hless).mpr ⟨payload, by rw [append_assoc], ?_⟩⟩
      rwa [length_append]

/-- What is left of a destination of `declaredLen` bytes is zero-filled. -/
def zeroFilled (declaredLen : ℕ) (payload : List UInt8) : List UInt8 :=
  payload ++ List.replicate (declaredLen - payload.length) 0

variable {r : List UInt8}

/-- A loop after the first chunk length, bounded by the bytes that are there. -/
theorem chunk_reader_eq_ok
    {f : List UInt8 → List UInt8}
    (hloop : ∀ len q, loop (q.length + 1) len [] q = .ok (r, rest) ↔
      ∃ payload, r = f ([] ++ payload) ∧ Chunks limit 0 len q payload rest) :
    (do let chunkLen ← readUint32
        let queue ← get
        loop (queue.length + 1) chunkLen.toNat []) q = .ok (r, rest) ↔
      ∃ payload, r = f payload ∧ ChunkStream limit 0 q payload rest := by
  simp only [bind_eq_ok, readUint32_eq_ok]
  constructor
  · rintro ⟨next, q₁, rfl, queue, q₂, hget, h⟩
    obtain ⟨rfl, rfl⟩ : q₁ = queue ∧ q₁ = q₂ := by cases hget; exact ⟨rfl, rfl⟩
    obtain ⟨payload, hr, hchunks⟩ := (hloop _ _).mp h
    exact ⟨payload, hr, next, q₁, rfl, hchunks⟩
  · rintro ⟨payload, hr, next, q₁, rfl, hchunks⟩
    exact ⟨next, q₁, rfl, q₁, q₁, rfl, (hloop _ _).mpr ⟨payload, hr, hchunks⟩⟩

theorem zeroFilled_of_length_eq {declaredLen : ℕ} (h : payload.length = declaredLen) :
    zeroFilled declaredLen payload = payload := by
  rw [zeroFilled, h, Nat.sub_self, replicate_zero, append_nil]

theorem chunkStream_length_le (h : ChunkStream limit 0 q payload rest) :
    payload.length ≤ limit := by
  obtain ⟨_, _, -, hchunks⟩ := h
  simpa using chunks_total_le (Nat.zero_le limit) hchunks

theorem readPlpChunksUnknownLen_eq_ok :
    readPlpChunksUnknownLen q = .ok (r, rest) ↔ ChunkStream maxPlpSize 0 q r rest := by
  refine (chunk_reader_eq_ok (f := id) fun _ _ => chunk_loop_eq_ok
    (fun fuel len buffer => by rw [unknownLenLoop]; rfl) (Nat.lt_succ_self _)).trans ?_
  simp

/-- Chunks hold one payload only. -/
theorem chunkStream_unique {payload' rest' : List UInt8} (hlimit : limit ≤ maxPlpSize)
    (h : ChunkStream limit 0 q payload rest) (h' : ChunkStream limit 0 q payload' rest') :
    payload = payload' ∧ rest = rest' := by
  have hread {payload rest : List UInt8} (h : ChunkStream limit 0 q payload rest) :
      readPlpChunksUnknownLen q = .ok (payload, rest) := by
    obtain ⟨next, q₁, rfl, hchunks⟩ := h
    exact readPlpChunksUnknownLen_eq_ok.mpr ⟨next, q₁, rfl, chunks_mono hlimit hchunks⟩
  have heq := (hread h).symm.trans (hread h')
  cases heq
  exact ⟨rfl, rfl⟩

theorem readPlpChunksIntoSlice_eq_ok {declaredLen : ℕ} :
    readPlpChunksIntoSlice declaredLen q = .ok (r, rest) ↔
      ∃ payload, r = zeroFilled declaredLen payload ∧
        ChunkStream declaredLen 0 q payload rest :=
  chunk_reader_eq_ok fun _ _ => chunk_loop_eq_ok
    (fun fuel len buffer => by rw [intoSliceLoop]; rfl) (Nat.lt_succ_self _)

/-! ### Keeping a place among the chunks -/

/-- Most bytes of a value announced so. -/
def PlpChunkReadLength.maximum : PlpChunkReadLength → ℕ
  | .unknown => maxPlpSize
  | .known length => length

namespace PlpChunkStreamReader

variable {s s' s'' : PlpChunkStreamReader} {q' q'' : List UInt8}

/-- The payload has the length the value was announced with, if any, once `n` more bytes are read.
-/
def Complete (s : PlpChunkStreamReader) (n : ℕ) : Prop :=
  ∀ length, s.length = .known length → s.totalRead + n = length

/-- What holds at every place a reader can be. -/
structure WellFormed (s : PlpChunkStreamReader) : Prop where
  maximum_le : s.length.maximum ≤ maxPlpSize
  chunk_le : s.chunkRemaining ≤ maxPlpChunkSize
  total_le : s.totalRead + s.chunkRemaining ≤ s.length.maximum
  ended : s.reachedEnd = true → s.chunkRemaining = 0 ∧ s.Complete 0

/-- What is left of the value: `payload`, in front of `rest`. -/
def Left (s : PlpChunkStreamReader) (q payload rest : List UInt8) : Prop :=
  s.Complete payload.length ∧
    if s.reachedEnd then payload = [] ∧ rest = q
    else ChunksFrom s.length.maximum s.totalRead s.chunkRemaining q payload rest

/-- `bytes` of the payload lie between two places. -/
structure Moves (s : PlpChunkStreamReader) (q bytes : List UInt8) (s' : PlpChunkStreamReader)
    (q' : List UInt8) : Prop where
  wellFormed : s'.WellFormed
  left_iff : ∀ payload rest, s.Left q payload rest ↔
    ∃ payload', payload = bytes ++ payload' ∧ s'.Left q' payload' rest
  length_le : q'.length + bytes.length ≤ q.length

theorem Moves.refl (hs : s.WellFormed) : Moves s q [] s q :=
  ⟨hs, fun payload rest => by simp, by simp⟩

theorem Moves.trans {bytes bytes' : List UInt8} (h : Moves s q bytes s' q')
    (h' : Moves s' q' bytes' s'' q'') : Moves s q (bytes ++ bytes') s'' q'' := by
  refine ⟨h'.wellFormed, fun payload rest => ?_, ?_⟩
  · rw [h.left_iff]
    constructor
    · rintro ⟨_, rfl, hleft⟩
      obtain ⟨payload', rfl, hleft'⟩ := (h'.left_iff _ _).mp hleft
      exact ⟨payload', by rw [append_assoc], hleft'⟩
    · rintro ⟨payload', rfl, hleft⟩
      exact ⟨bytes' ++ payload', by rw [append_assoc], (h'.left_iff _ _).mpr ⟨_, rfl, hleft⟩⟩
  · have := h.length_le
    have := h'.length_le
    rw [length_append]
    omega

/-- No value is left: whatever comes, the reader will reject it. -/
def Stuck (s : PlpChunkStreamReader) (q : List UInt8) : Prop :=
  ∀ payload rest, ¬ s.Left q payload rest

theorem Moves.stuck (h : Moves s q bytes s' q') (h' : s'.Stuck q') :
    s.Stuck q := by
  intro payload rest hleft
  obtain ⟨payload', -, hleft'⟩ := (h.left_iff _ _).mp hleft
  exact h' _ _ hleft'

theorem acceptChunkLength_zero (s : PlpChunkStreamReader) :
    (s.Complete 0 ∧ s.acceptChunkLength 0 = .ok (false, { s with reachedEnd := true })) ∨
      (¬ s.Complete 0 ∧ ∃ e, s.acceptChunkLength 0 = .error e) := by
  obtain ⟨length, _, _, totalRead⟩ := s
  cases length with
  | unknown => exact .inl ⟨fun _ h => (nomatch h), rfl⟩
  | known knownLen =>
    by_cases htotal : totalRead = knownLen
    · refine .inl ⟨fun _ h => ?_, by simp [acceptChunkLength, htotal]⟩
      cases h
      exact htotal
    · exact .inr ⟨fun h => htotal (h _ rfl), by simp [acceptChunkLength, htotal]⟩

theorem acceptChunkLength_pos (hs : s.WellFormed) (hpos : 0 < len) :
    ((len ≤ maxPlpChunkSize ∧ s.totalRead + len ≤ s.length.maximum) ∧
        s.acceptChunkLength len = .ok (true, { s with chunkRemaining := len })) ∨
      (¬ (len ≤ maxPlpChunkSize ∧ s.totalRead + len ≤ s.length.maximum) ∧
        ∃ e, s.acceptChunkLength len = .error e) := by
  have hmaximum := hs.maximum_le
  obtain ⟨length, _, _, totalRead⟩ := s
  rw [acceptChunkLength, if_neg (Nat.ne_of_gt hpos)]
  by_cases hchunk : len ≤ maxPlpChunkSize
  swap
  · exact .inr ⟨fun h => hchunk h.1, by rw [if_pos (Nat.lt_of_not_le hchunk)]; exact ⟨_, rfl⟩⟩
  rw [if_neg (Nat.not_lt.mpr hchunk)]
  cases length with
  | unknown =>
    by_cases htotal : totalRead + len ≤ maxPlpSize
    · exact .inl ⟨⟨hchunk, htotal⟩, if_neg (Nat.not_lt.mpr htotal)⟩
    · exact .inr ⟨fun h => htotal h.2, _, if_pos (Nat.lt_of_not_le htotal)⟩
  | known knownLen =>
    by_cases hknown : totalRead + len ≤ knownLen
    · have htotal : totalRead + len ≤ maxPlpSize := Nat.le_trans hknown hmaximum
      refine .inl ⟨⟨hchunk, hknown⟩, ?_⟩
      rw [if_neg (Nat.not_lt.mpr htotal)]
      exact if_neg (Nat.not_lt.mpr hknown)
    · refine .inr ⟨fun h => hknown h.2, ?_⟩
      split
      · exact ⟨_, rfl⟩
      · exact ⟨_, if_pos (Nat.lt_of_not_le hknown)⟩

theorem left_at_header_iff (hended : s.reachedEnd = false) (hchunk : s.chunkRemaining = 0) :
    s.Left q payload rest ↔
      s.Complete payload.length ∧ ChunkStream s.length.maximum s.totalRead q payload rest := by
  simp [Left, ChunksFrom, hended, hchunk]

theorem moves_terminator (hs : s.WellFormed) (hended : s.reachedEnd = false)
    (hchunk : s.chunkRemaining = 0) (hcomplete : s.Complete 0)
    (hzero : next.toNat = 0) :
    Moves s (leBytes 4 next.toNat ++ q) [] { s with reachedEnd := true } q := by
  refine ⟨⟨hs.maximum_le, hs.chunk_le, hs.total_le, fun _ => ⟨hchunk, hcomplete⟩⟩,
    fun payload rest => ?_, by simp⟩
  rw [left_at_header_iff hended hchunk, chunkStream_header_iff, hzero, chunks_zero_iff]
  simp [Left, Complete]

theorem moves_header (hs : s.WellFormed) (hended : s.reachedEnd = false)
    (hchunk : s.chunkRemaining = 0) (hpos : 0 < next.toNat)
    (hnext : next.toNat ≤ maxPlpChunkSize ∧ s.totalRead + next.toNat ≤ s.length.maximum) :
    Moves s (leBytes 4 next.toNat ++ q) [] { s with chunkRemaining := next.toNat } q := by
  refine ⟨⟨hs.maximum_le, hnext.1, hnext.2, fun h => ?_⟩, fun payload rest => ?_, by simp⟩
  · rw [hended] at h
    cases h
  · rw [left_at_header_iff hended hchunk, chunkStream_header_iff]
    simp [Left, ChunksFrom, Complete, hended, hpos]

/-- How reading from a place ends: as `P` says, or no value is left. -/
def Ends {α : Type} (s : PlpChunkStreamReader) (q : List UInt8) (P : α → List UInt8 → Prop) :
    Except Error (α × List UInt8) → Prop
  | .ok (a, q') => P a q'
  | .error _ => s.Stuck q

section

variable {α β : Type} {P : α → List UInt8 → Prop} {Q : β → List UInt8 → Prop}
  {x : Except Error (α × List UInt8)}

theorem Ends.ok {a : α} (h : s.Ends q P x) (hx : x = .ok (a, q')) : P a q' := by
  rwa [hx] at h

theorem Ends.error {e : Error} (h : s.Ends q P x) (hx : x = .error e) : s.Stuck q := by
  rwa [hx] at h

theorem Ends.mono {P' : α → List UInt8 → Prop} (h : s.Ends q P x)
    (hP : ∀ a q', P a q' → P' a q') : s.Ends q P' x := by
  cases x with
  | error e => exact h
  | ok r => exact hP _ _ h

theorem Ends.bind {m : TdsReader α} {k : α → TdsReader β} (h : s.Ends q P (m q'))
    (hk : ∀ a q', P a q' → s.Ends q Q (k a q')) : s.Ends q Q ((m >>= k) q') := by
  cases hm : m q' with
  | error e =>
    rw [bind_error hm]
    exact h.error hm
  | ok r =>
    rw [bind_ok hm]
    exact hk _ _ (h.ok hm)

theorem Ends.moves (h : s'.Ends q' P x) (hmoves : Moves s q bytes s' q') :
    s.Ends q P x := by
  cases x with
  | error e => exact hmoves.stuck h
  | ok r => exact h

end

theorem ensureActiveChunk_ends (hs : s.WellFormed) :
    s.Ends q (fun (active, s') q' => Moves s q [] s' q' ∧ s'.reachedEnd = !active ∧
      (active = true → 0 < s'.chunkRemaining) ∧
      (s.reachedEnd = false → active = false → q'.length < q.length)) (s.ensureActiveChunk q) := by
  rw [ensureActiveChunk]
  split
  · rename_i hended
    exact ⟨.refl hs, hended, fun h => (nomatch h), fun h => by simp [hended] at h⟩
  rename_i hended
  rw [Bool.not_eq_true] at hended
  split
  · rename_i hchunk
    exact ⟨.refl hs, hended, fun _ => hchunk, fun _ h => (nomatch h)⟩
  have hchunk : s.chunkRemaining = 0 := by omega
  cases hread : readUint32 q with
  | error e =>
    rw [bind_error hread]
    intro payload rest hleft
    obtain ⟨-, next, q₁, rfl, -⟩ := (left_at_header_iff hended hchunk).mp hleft
    cases hread
  | ok p =>
    obtain ⟨next, q₁⟩ := p
    obtain rfl := readUint32_eq_ok.mp hread
    rw [bind_ok hread]
    rcases Nat.eq_zero_or_pos next.toNat with hzero | hpos
    · rcases s.acceptChunkLength_zero with ⟨hcomplete, haccept⟩ | ⟨hnot, e, haccept⟩
      · rw [hzero, haccept, ← hzero]
        exact ⟨moves_terminator hs hended hchunk hcomplete hzero, rfl, fun h => (nomatch h),
          fun _ _ => by simp⟩
      · rw [hzero, haccept, ← hzero]
        intro payload rest hleft
        obtain ⟨hcomplete, hchunks⟩ := (left_at_header_iff hended hchunk).mp hleft
        rw [chunkStream_header_iff, hzero] at hchunks
        obtain ⟨rfl, -⟩ := chunks_zero_iff.mp hchunks
        exact hnot hcomplete
    · rcases acceptChunkLength_pos hs hpos with ⟨hnext, haccept⟩ | ⟨hnot, e, haccept⟩
      · rw [haccept]
        exact ⟨moves_header hs hended hchunk hpos hnext, hended, fun _ => hpos, fun _ _ => by simp⟩
      · rw [haccept]
        intro payload rest hleft
        have hchunks := ((left_at_header_iff hended hchunk).mp hleft).2
        rw [chunkStream_header_iff, chunks_pos_iff hpos] at hchunks
        exact hnot ⟨hchunks.1, hchunks.2.1⟩

theorem moves_advance (hs : s.WellFormed)
    (hended : s.reachedEnd = false) (hpos : 0 < n) (hn : n ≤ s.chunkRemaining)
    (hlen : bytes.length = n) : Moves s (bytes ++ q) bytes (s.advance n) q := by
  have htotal := hs.total_le
  have hchunk := hs.chunk_le
  refine ⟨⟨hs.maximum_le, by simp only [advance]; omega, by simp only [advance]; omega,
    fun h => ?_⟩, fun payload rest => ?_, by rw [length_append]; omega⟩
  · rw [show (s.advance n).reachedEnd = s.reachedEnd from rfl, hended] at h
    cases h
  have hcomplete (payload' : List UInt8) :
      s.Complete (bytes ++ payload').length ↔ (s.advance n).Complete payload'.length := by
    simp only [Complete, advance, length_append, hlen, Nat.add_assoc]
  have hactive : 0 < s.chunkRemaining := by omega
  simp only [Left, hended, show (s.advance n).reachedEnd = false from hended, ChunksFrom,
    if_pos hactive, Bool.false_eq_true, if_false,
    chunks_split_iff hpos hn hlen hchunk htotal]
  constructor
  · rintro ⟨h, payload', rfl, hleft⟩
    exact ⟨payload', rfl, (hcomplete _).mp h, hleft⟩
  · rintro ⟨payload', rfl, h, hleft⟩
    exact ⟨(hcomplete _).mpr h, payload', rfl, hleft⟩

theorem readBytes_ends (hs : s.WellFormed) (hended : s.reachedEnd = false) (hpos : 0 < n)
    (hn : n ≤ s.chunkRemaining) :
    s.Ends q (fun bytes q' => bytes.length = n ∧ Moves s q bytes (s.advance n) q')
      (readBytes n q) := by
  cases hread : readBytes n q with
  | ok p =>
    obtain ⟨bytes, q₁⟩ := p
    obtain ⟨rfl, hlen⟩ := readBytes_eq_ok.mp hread
    exact ⟨hlen, moves_advance hs hended hpos hn hlen⟩
  | error e =>
    rintro payload rest ⟨-, hleft⟩
    have hactive : 0 < s.chunkRemaining := by omega
    rw [hended, if_neg (by decide), ChunksFrom, if_pos hactive, chunks_pos_iff hactive] at hleft
    obtain ⟨-, -, chunk, q₁, -, rfl, hlen, -⟩ := hleft
    rw [readBytes, Reader.take, if_pos (by rw [length_append]; omega)] at hread
    cases hread

/-- The loop of `readInto` fills its room or comes to the end. -/
theorem readIntoLoop_ends {fuel room : ℕ} {out : List UInt8} (hs : s.WellFormed)
    (hfuel : room ≤ fuel) :
    s.Ends q (fun (out', s') q' => ∃ bytes, out' = out ++ bytes ∧ Moves s q bytes s' q' ∧
      bytes.length ≤ room ∧ (bytes.length = room ∨ s'.reachedEnd = true) ∧
      (0 < room → s.reachedEnd = false → q'.length < q.length))
      (readIntoLoop fuel s room out q) := by
  induction fuel generalizing s room out q with
  | zero => exact ⟨[], by simp, .refl hs, by simp, .inl (by simp; omega), fun _ => by omega⟩
  | succ fuel ih =>
    rw [readIntoLoop]
    split
    · exact ⟨[], by simp, .refl hs, by simp, .inl (by simp; omega), fun _ => by omega⟩
    refine (ensureActiveChunk_ends hs).bind ?_
    rintro ⟨active, s₁⟩ q₁ ⟨hmoves, hended, hpos, hless⟩
    cases active with
    | false => exact ⟨[], by simp, hmoves, by simp, .inr hended, fun _ h => hless h rfl⟩
    | true =>
      have hpos := hpos rfl
      refine ((readBytes_ends hmoves.wellFormed hended
        (show 0 < min room s₁.chunkRemaining by omega) (Nat.min_le_right _ _)).bind ?_).moves hmoves
      rintro bytes q₂ ⟨hlen, hadvance⟩
      refine ((ih hadvance.wellFormed (by omega)).mono ?_).moves hadvance
      rintro ⟨_, s₂⟩ q₃ ⟨bytes', rfl, hmoves', hle, hfull, -⟩
      have hmoves'' := (hmoves.trans hadvance).trans hmoves'
      refine ⟨bytes ++ bytes', by rw [append_assoc], hmoves'',
        by rw [length_append]; omega, ?_, fun _ _ => ?_⟩
      · rcases hfull with hfull | hend
        · exact .inl (by rw [length_append]; omega)
        · exact .inr hend
      · have hlength := hmoves''.length_le
        simp only [length_append] at hlength ⊢
        omega

/-- Reading into a slice takes its bytes off the value, and fills the slice unless the value ends in
it.  Unless the value had ended before, it takes bytes off the message. -/
theorem readInto_ends {outLen : ℕ} (hs : s.WellFormed) (hpos : 0 < outLen) :
    s.Ends q (fun (out, s') q' =>
      Moves s q out s' q' ∧ out.length ≤ outLen ∧
        (out.length = outLen ∨ s'.reachedEnd = true) ∧
        (s.reachedEnd = false → q'.length < q.length)) (s.readInto outLen q) := by
  rw [readInto, if_neg (Nat.ne_of_gt hpos)]
  refine (readIntoLoop_ends hs (Nat.le_refl _)).bind ?_
  rintro ⟨out, s₁⟩ q₁ ⟨_, rfl, hmoves, hle, hfull, hless⟩
  have hless := hless hpos
  dsimp only
  split
  · rename_i hboundary
    refine ((ensureActiveChunk_ends hmoves.wellFormed).moves hmoves).bind ?_
    rintro ⟨_, s₂⟩ q₂ ⟨hmoves', -⟩
    have hlength := hmoves'.length_le
    exact ⟨by simpa using hmoves.trans hmoves', hle, .inl hboundary.1,
      fun h => by have := hless h; simp at hlength; omega⟩
  · exact ⟨hmoves, hle, hfull, hless⟩

/-- Slices of any sizes yield what is left of the value. -/
theorem readSlices_eq_ok {sizes : ℕ → ℕ} (hsizes : ∀ i, 0 < sizes i) {fuel i : ℕ}
    {read r : List UInt8} (hs : s.WellFormed) (hfuel : q.length < fuel) :
    readSlices sizes fuel i s read q = .ok (r, rest) ↔
      ∃ payload, r = read ++ payload ∧ s.Left q payload rest := by
  induction fuel generalizing i s read q with
  | zero => omega
  | succ fuel ih =>
    rw [readSlices]
    split
    · rename_i hended
      have hcomplete := (hs.ended hended).2
      simp only [Left, hended, if_true]
      constructor
      · intro h
        cases h
        exact ⟨[], by simp, hcomplete, rfl, rfl⟩
      · rintro ⟨_, rfl, -, rfl, rfl⟩
        simp
    rename_i hended
    rw [Bool.not_eq_true] at hended
    cases hinto : s.readInto (sizes i) q with
    | error e =>
      rw [bind_error hinto]
      refine ⟨fun h => (nomatch h), ?_⟩
      rintro ⟨payload, -, hleft⟩
      exact absurd hleft ((readInto_ends hs (hsizes i)).error hinto _ _)
    | ok p =>
      obtain ⟨⟨out, s₁⟩, q₁⟩ := p
      obtain ⟨hmoves, -, -, hless⟩ := (readInto_ends hs (hsizes i)).ok hinto
      have hless := hless hended
      rw [bind_ok hinto]
      simp only [ih hmoves.wellFormed (show q₁.length < fuel by omega), hmoves.left_iff]
      constructor
      · rintro ⟨payload, rfl, hleft⟩
        exact ⟨out ++ payload, by rw [append_assoc], payload, rfl, hleft⟩
      · rintro ⟨_, rfl, payload, rfl, hleft⟩
        exact ⟨payload, by rw [append_assoc], hleft⟩

end PlpChunkStreamReader

/-! ### Agreement -/

open PlpChunkStreamReader

theorem wellFormed_new {length : PlpChunkReadLength} (h : length.maximum ≤ maxPlpSize) :
    (new length).WellFormed :=
  ⟨h, Nat.zero_le _, Nat.zero_le _, fun h => (nomatch h)⟩

section Prefix

variable {sizes : ℕ → ℕ} {s : List UInt8} {v : Int64} {r : Option (List UInt8)}

theorem readSlices_new_eq_ok (hsizes : ∀ i, 0 < sizes i) (length : PlpChunkReadLength)
    (h : length.maximum ≤ maxPlpSize) :
    (do let queue ← get
        some <$> readSlices sizes (queue.length + 1) 0 (new length) [] : TdsReader _) q =
        .ok (r, rest) ↔
      ∃ payload, r = some payload ∧ (new length).Complete payload.length ∧
        ChunkStream length.maximum 0 q payload rest := by
  have hslices {b : List UInt8} : readSlices sizes (q.length + 1) 0 (new length) [] q =
      .ok (b, rest) ↔ ∃ payload, b = [] ++ payload ∧ (new length).Left q payload rest :=
    readSlices_eq_ok hsizes (wellFormed_new h) (Nat.lt_succ_self _)
  have hleft {payload : List UInt8} : (new length).Left q payload rest ↔
      (new length).Complete payload.length ∧ ChunkStream length.maximum 0 q payload rest :=
    left_at_header_iff rfl rfl
  show (some <$> readSlices sizes (q.length + 1) 0 (new length) []) q = _ ↔ _
  simp only [map_eq_ok, hslices, hleft, nil_append]
  constructor
  · rintro ⟨payload, ⟨_, rfl, hpayload⟩, rfl⟩
    exact ⟨payload, rfl, hpayload⟩
  · rintro ⟨payload, rfl, hpayload⟩
    exact ⟨payload, ⟨payload, rfl, hpayload⟩, rfl⟩

theorem complete_known_iff {declaredLen n : ℕ} :
    (new (.known declaredLen)).Complete n ↔ n = declaredLen := by
  constructor
  · intro h
    simpa [new] using h declaredLen rfl
  · rintro rfl length h
    cases h
    simp [new]

theorem complete_unknown : (new .unknown).Complete n := fun _ h => (nomatch h)

theorem readToEnd_unknown (hsizes : ∀ i, 0 < sizes i)
    (hv : v.toUInt64 = sqlPlpUnknownLen ∨ v.toUInt64 = sqlPlpMaxLen)
    (hread : readInt64 s = .ok (v, q)) :
    readToEnd sizes s = .ok (r, rest) ↔
      ∃ payload, r = some payload ∧ ChunkStream maxPlpSize 0 q payload rest := by
  have hbegin : begin s = .ok (some (new .unknown), q) := by
    rw [begin, bind_ok hread]
    rcases hv with hv | hv <;> rw [hv] <;> rfl
  rw [readToEnd, bind_ok hbegin]
  refine (readSlices_new_eq_ok hsizes .unknown (Nat.le_refl _)).trans ?_
  simp only [complete_unknown, true_and]
  rfl

theorem readPlpBytes_unknown (hv : v.toUInt64 = sqlPlpUnknownLen)
    (hread : readInt64 s = .ok (v, q)) :
    readPlpBytes s = .ok (r, rest) ↔
      ∃ payload, r = some payload ∧ ChunkStream maxPlpSize 0 q payload rest := by
  have hframing : readPlpFraming s = .ok (.unknown, q) := by
    rw [readPlpFraming, bind_ok hread, hv]
    rfl
  rw [readPlpBytes, bind_ok hframing]
  simp only [map_eq_ok, readPlpChunksUnknownLen_eq_ok]
  exact ⟨fun ⟨payload, h, hr⟩ => ⟨payload, hr.symm, h⟩,
    fun ⟨payload, hr, h⟩ => ⟨payload, h, hr.symm⟩⟩

/-- A prefix that announces the length of the value is none of the others. -/
theorem announced_length (hv : v.toUInt64.toNat ≤ maxPlpSize) :
    v.toUInt64 ≠ sqlPlpNull ∧ v.toUInt64 ≠ sqlPlpUnknownLen ∧ v.toUInt64 ≠ sqlPlpMaxLen ∧
      ¬ (v < 0 ∨ v.toUInt64.toNat > maxPlpSize) := by
  have hne {u : UInt64} (hu : maxPlpSize < u.toNat) : v.toUInt64 ≠ u := by
    rintro rfl
    omega
  have hnonneg : ¬ v < 0 := by
    have hlt : v.toUInt64.toNat < 2 ^ 31 := by
      simp only [maxPlpSize] at hv
      omega
    rw [Int64.lt_iff_toInt_lt, ← Int64.toInt_toBitVec, BitVec.toInt_eq_toNat_of_lt (by
      show 2 * v.toUInt64.toNat < 2 ^ 64
      omega)]
    simp
  exact ⟨hne (by decide), hne (by decide), hne (by decide), fun h =>
    h.elim hnonneg (Nat.not_lt.mpr hv)⟩

theorem readToEnd_known (hsizes : ∀ i, 0 < sizes i) (hv : v.toUInt64.toNat ≤ maxPlpSize)
    (hread : readInt64 s = .ok (v, q)) :
    readToEnd sizes s = .ok (r, rest) ↔
      ∃ payload, r = some payload ∧ payload.length = v.toUInt64.toNat ∧
        ChunkStream v.toUInt64.toNat 0 q payload rest := by
  obtain ⟨hnull, hunknown, hmax, hbound⟩ := announced_length hv
  have hbegin : begin s = .ok (some (new (.known v.toUInt64.toNat)), q) := by
    rw [begin, bind_ok hread, if_neg hnull, if_neg (not_or.mpr ⟨hunknown, hmax⟩), if_neg hbound]
    rfl
  rw [readToEnd, bind_ok hbegin]
  refine (readSlices_new_eq_ok hsizes (.known _) hv).trans ?_
  simp only [complete_known_iff]
  rfl

theorem readPlpBytes_known (hv : v.toUInt64.toNat ≤ maxPlpSize)
    (hread : readInt64 s = .ok (v, q)) :
    readPlpBytes s = .ok (r, rest) ↔
      ∃ payload, r = some (zeroFilled v.toUInt64.toNat payload) ∧
        ChunkStream v.toUInt64.toNat 0 q payload rest := by
  obtain ⟨hnull, hunknown, -, hbound⟩ := announced_length hv
  have hframing : readPlpFraming s = .ok (.known v.toUInt64.toNat, q) := by
    rw [readPlpFraming, bind_ok hread, if_neg hnull, if_neg hunknown, if_neg hbound]
    rfl
  rw [readPlpBytes, bind_ok hframing]
  simp only [map_eq_ok, readPlpChunksIntoSlice_eq_ok]
  constructor
  · rintro ⟨_, ⟨payload, rfl, h⟩, rfl⟩
    exact ⟨payload, rfl, h⟩
  · rintro ⟨payload, rfl, h⟩
    exact ⟨_, ⟨payload, rfl, h⟩, rfl⟩

/-- A prefix that is no length at all is rejected. -/
theorem readPlpBytes_invalid (hread : readInt64 s = .ok (v, q)) (hnull : v.toUInt64 ≠ sqlPlpNull)
    (hunknown : v.toUInt64 ≠ sqlPlpUnknownLen) (hv : maxPlpSize < v.toUInt64.toNat) :
    readPlpBytes s = .error (plpTooLong v) := by
  have hframing : readPlpFraming s = .error (plpTooLong v) := by
    rw [readPlpFraming, bind_ok hread, if_neg hnull, if_neg hunknown, if_pos (.inr hv)]
    rfl
  rw [readPlpBytes, bind_error hframing]

theorem readToEnd_invalid (hread : readInt64 s = .ok (v, q)) (hnull : v.toUInt64 ≠ sqlPlpNull)
    (hunknown : v.toUInt64 ≠ sqlPlpUnknownLen) (hmax : v.toUInt64 ≠ sqlPlpMaxLen)
    (hv : maxPlpSize < v.toUInt64.toNat) : readToEnd sizes s = .error (plpTooLong v) := by
  have hbegin : begin s = .error (plpTooLong v) := by
    rw [begin, bind_ok hread, if_neg hnull, if_neg (not_or.mpr ⟨hunknown, hmax⟩),
      if_pos (.inr hv)]
    rfl
  rw [readToEnd, bind_error hbegin]

theorem readers_null (hread : readInt64 s = .ok (v, q)) (hnull : v.toUInt64 = sqlPlpNull) :
    readPlpBytes s = .ok (none, q) ∧ readToEnd sizes s = .ok (none, q) := by
  have hframing : readPlpFraming s = .ok (.null, q) := by
    rw [readPlpFraming, bind_ok hread, if_pos hnull]
    rfl
  have hbegin : begin s = .ok (none, q) := by
    rw [begin, bind_ok hread, if_pos hnull]
    rfl
  rw [readPlpBytes, readToEnd, bind_ok hframing, bind_ok hbegin]
  exact ⟨rfl, rfl⟩

end Prefix

theorem readInt64_leBytes (u : UInt64) :
    readInt64 (leBytes 8 u.toNat ++ q) = .ok (u.toInt64, q) :=
  readInt64_eq_ok.mpr (by rw [UInt64.toUInt64_toInt64])

/-! ### Values in chunks -/

namespace PlpChunkStreamReader

/-- Chunks on the wire, each behind its length, and the terminator. -/
def wireChunks : List (List UInt8) → List UInt8
  | [] => leBytes 4 0
  | chunk :: chunks => leBytes 4 chunk.length ++ chunk ++ wireChunks chunks

theorem chunkStream_wireChunks {limit total : ℕ} {chunks : List (List UInt8)} {rest : List UInt8}
    (hpos : ∀ chunk ∈ chunks, 0 < chunk.length)
    (hle : ∀ chunk ∈ chunks, chunk.length ≤ maxPlpChunkSize)
    (htotal : total + chunks.flatten.length ≤ limit) :
    ChunkStream limit total (wireChunks chunks ++ rest) chunks.flatten rest := by
  induction chunks generalizing total with
  | nil => exact ⟨0, rest, rfl, chunks_zero_iff.mpr ⟨rfl, rfl⟩⟩
  | cons chunk chunks ih =>
    have hsize : chunk.length ≤ maxPlpChunkSize := hle chunk (mem_cons_self ..)
    have hnext : (UInt32.ofNat chunk.length).toNat = chunk.length := by
      rw [UInt32.toNat_ofNat', Nat.mod_eq_of_lt]
      unfold maxPlpChunkSize at hsize
      omega
    rw [flatten_cons, length_append] at htotal
    have hrest := ih (fun c hc => hpos c (mem_cons_of_mem _ hc))
      (fun c hc => hle c (mem_cons_of_mem _ hc)) (show total + chunk.length + _ ≤ limit by omega)
    refine ⟨UInt32.ofNat chunk.length, chunk ++ (wireChunks chunks ++ rest), ?_, ?_⟩
    · rw [hnext, wireChunks]
      simp only [append_assoc]
    · rw [hnext, chunks_pos_iff (hpos chunk (mem_cons_self ..))]
      exact ⟨hsize, by omega, chunk, _, _, rfl, rfl, rfl, hrest⟩

end PlpChunkStreamReader

theorem readPlpBytes_wireChunks {chunks : List (List UInt8)}
    (hpos : ∀ chunk ∈ chunks, 0 < chunk.length)
    (hle : ∀ chunk ∈ chunks, chunk.length ≤ maxPlpChunkSize)
    (htotal : chunks.flatten.length ≤ maxPlpSize) :
    readPlpBytes (leBytes 8 sqlPlpUnknownLen.toNat ++ (wireChunks chunks ++ rest)) =
      .ok (some chunks.flatten, rest) :=
  (readPlpBytes_unknown rfl (readInt64_leBytes _)).mpr
    ⟨_, rfl, chunkStream_wireChunks hpos hle (by rwa [Nat.zero_add])⟩

/-- A chunk that is too large is refused. -/
theorem readPlpBytes_oversized (hlong : maxPlpChunkSize < n) (hn : n < 2 ^ 32)
    (r : Option (List UInt8) × List UInt8) :
    readPlpBytes (leBytes 8 sqlPlpUnknownLen.toNat ++ (leBytes 4 n ++ q)) ≠ .ok r := by
  have hnat : (UInt32.ofNat n).toNat = n := by rw [UInt32.toNat_ofNat', Nat.mod_eq_of_lt hn]
  intro h
  obtain ⟨payload, -, hstream⟩ := (readPlpBytes_unknown rfl (readInt64_leBytes _)).mp h
  rw [← hnat, chunkStream_header_iff, hnat, chunks_pos_iff (by omega)] at hstream
  exact Nat.not_le.mpr hlong hstream.1

/-! ### Agreement of the readers -/

/-- The length prefix that the stream reader alone accepts. -/
def IsMaxLen (s : List UInt8) : Prop := ∃ q, s = leBytes 8 sqlPlpMaxLen.toNat ++ q

/-- The chunks hold `payload`, which is shorter than announced, in front of `rest`. -/
def EndsEarly (s : List UInt8) (declaredLen : ℕ) (payload rest : List UInt8) : Prop :=
  declaredLen ≤ maxPlpSize ∧ payload.length < declaredLen ∧
    ∃ q, s = leBytes 8 declaredLen ++ q ∧ ChunkStream declaredLen 0 q payload rest

/-- **The readers of a partially length-prefixed value agree.**  A byte string that has neither the
length prefix `sqlPlpMaxLen` nor fewer bytes in its chunks than announced is accepted by both or
rejected by both, whatever the sizes of the slices, and both take the same bytes and return the same
value.  A value that ends early is filled up with zeros by the one that reads a whole value and
rejected by the one that reads slices, and `sqlPlpMaxLen` is rejected by the former and an unknown
length for the latter. -/
theorem plp_readers_agree (sizes : ℕ → ℕ) (hsizes : ∀ i, 0 < sizes i) (s : List UInt8) :
    (¬ IsMaxLen s → (∀ declaredLen payload rest, ¬ EndsEarly s declaredLen payload rest) →
      ∀ r rest, readToEnd sizes s = .ok (r, rest) ↔ readPlpBytes s = .ok (r, rest)) ∧
    (∀ declaredLen payload rest, EndsEarly s declaredLen payload rest →
      readPlpBytes s = .ok (some (zeroFilled declaredLen payload), rest) ∧
        ∀ r, readToEnd sizes s ≠ .ok r) ∧
    (∀ q, s = leBytes 8 sqlPlpMaxLen.toNat ++ q → (∀ r, readPlpBytes s ≠ .ok r) ∧
      ∀ r rest, readToEnd sizes s = .ok (r, rest) ↔
        readToEnd sizes (leBytes 8 sqlPlpUnknownLen.toNat ++ q) = .ok (r, rest)) := by
  refine ⟨fun hmax hearly r rest => ?_, ?_, ?_⟩
  · cases hread : readInt64 s with
    | error e => rw [readToEnd, begin, readPlpBytes, readPlpFraming, bind_assoc, bind_assoc,
        bind_error hread, bind_error hread]
    | ok p =>
      obtain ⟨v, q⟩ := p
      by_cases hnull : v.toUInt64 = sqlPlpNull
      · obtain ⟨hplp, hstream⟩ : readPlpBytes s = .ok (none, q) ∧
            readToEnd sizes s = .ok (none, q) := readers_null hread hnull
        rw [hplp, hstream]
      by_cases hunknown : v.toUInt64 = sqlPlpUnknownLen
      · rw [readToEnd_unknown hsizes (.inl hunknown) hread, readPlpBytes_unknown hunknown hread]
      obtain rfl := readInt64_eq_ok.mp hread
      by_cases hv : v.toUInt64.toNat ≤ maxPlpSize
      · rw [readToEnd_known hsizes hv hread, readPlpBytes_known hv hread]
        constructor
        · rintro ⟨payload, rfl, hlen, hstream⟩
          exact ⟨payload, by rw [zeroFilled_of_length_eq hlen], hstream⟩
        · rintro ⟨payload, rfl, hstream⟩
          have hlen : payload.length = v.toUInt64.toNat := by
            have hle := chunkStream_length_le hstream
            by_contra hne
            exact hearly _ payload rest ⟨hv, by omega, q, rfl, hstream⟩
          exact ⟨payload, by rw [zeroFilled_of_length_eq hlen], hlen, hstream⟩
      · have hnot : v.toUInt64 ≠ sqlPlpMaxLen := fun h => hmax ⟨q, by rw [h]⟩
        have hv : maxPlpSize < v.toUInt64.toNat := Nat.lt_of_not_le hv
        rw [readPlpBytes_invalid hread hnull hunknown hv,
          readToEnd_invalid hread hnull hunknown hnot hv]
  · rintro declaredLen payload rest ⟨hle, hshort, q, rfl, hstream⟩
    obtain ⟨v, hread, rfl⟩ : ∃ v : Int64, readInt64 (leBytes 8 declaredLen ++ q) = .ok (v, q) ∧
        v.toUInt64.toNat = declaredLen := by
      have hnat : (UInt64.ofNat declaredLen).toNat = declaredLen := by
        simp only [maxPlpSize] at hle
        rw [UInt64.toNat_ofNat', Nat.mod_eq_of_lt (by omega)]
      refine ⟨(UInt64.ofNat declaredLen).toInt64, ?_, by rw [UInt64.toUInt64_toInt64, hnat]⟩
      have h := readInt64_leBytes (q := q) (UInt64.ofNat declaredLen)
      rwa [hnat] at h
    refine ⟨(readPlpBytes_known hle hread).mpr ⟨payload, rfl, hstream⟩, fun ⟨r, rest'⟩ h => ?_⟩
    obtain ⟨payload', -, hlen, hstream'⟩ := (readToEnd_known hsizes hle hread).mp h
    obtain ⟨rfl, -⟩ := chunkStream_unique hle hstream hstream'
    omega
  · rintro q rfl
    have hread := readInt64_leBytes (q := q) sqlPlpMaxLen
    refine ⟨fun r h => ?_, fun r rest => ?_⟩
    · rw [readPlpBytes_invalid hread (by decide) (by decide) (by decide)] at h
      cases h
    · rw [readToEnd_unknown hsizes (.inr rfl) hread,
        readToEnd_unknown hsizes (.inl rfl) (readInt64_leBytes (q := q) sqlPlpUnknownLen)]

/-- Three bytes in two chunks, of unknown length, read two bytes at a time. -/
def twoChunks : List UInt8 :=
  [0xFE, 0xFF, 0xFF, 0xFF, 0xFF, 0xFF, 0xFF, 0xFF, 2, 0, 0, 0, 10, 20, 1, 0, 0, 0, 30, 0, 0, 0, 0,
    7]

theorem plp_readers_agree_twoChunks :
    readPlpBytes twoChunks = .ok (some [10, 20, 30], [7]) ∧
      readToEnd (fun _ => 2) twoChunks = .ok (some [10, 20, 30], [7]) := by
  have hlead {n : ℕ} {q : List UInt8} (h : twoChunks = leBytes 8 n ++ q) :
      n % 256 ^ 8 = sqlPlpUnknownLen.toNat := by
    have htake := congrArg (fun s => ofLe (s.take 8)) h
    rw [take_left' (length_leBytes 8 n), ofLe_leBytes] at htake
    exact htake.symm
  refine ⟨rfl,
    ((plp_readers_agree (fun _ => 2) (fun _ => by decide) twoChunks).1 ?_ ?_ _ _).mpr rfl⟩
  · rintro ⟨q, hq⟩
    exact absurd (hlead hq) (by decide)
  · rintro declaredLen payload rest ⟨hle, -, q, hq, -⟩
    have h := hlead hq
    rw [Nat.mod_eq_of_lt (by simp only [maxPlpSize] at hle; omega)] at h
    rw [h] at hle
    exact absurd hle (by decide)

/-- Three bytes announced as five: the whole value is filled up, the stream rejected. -/
theorem plp_readers_differ :
    readPlpBytes [5, 0, 0, 0, 0, 0, 0, 0, 3, 0, 0, 0, 10, 20, 30, 0, 0, 0, 0] =
        .ok (some [10, 20, 30, 0, 0], []) ∧
      readToEnd (fun _ => 4) [5, 0, 0, 0, 0, 0, 0, 0, 3, 0, 0, 0, 10, 20, 30, 0, 0, 0, 0] =
        .error (plpEndedEarly 3 5) :=
  ⟨rfl, rfl⟩

end MssqlTds
