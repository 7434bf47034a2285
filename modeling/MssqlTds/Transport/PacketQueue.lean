import MssqlTds.Transport.PacketDelivery

/-!
# The readers on a queue of packets

What the readers of a transport do does not depend on how its packets come in.  `PacketQueue` is the
transport without its buffer: the bytes to read, whether the message ends with them, and the packets
behind.  The readers are stated once more on it, and `Simulates` says that a reader of the transport
gives the same result on whatever queue the transport stands for, if the network delivers.
-/

namespace MssqlTds

open Bytes PacketWriter EState List

structure PacketQueue where
  data : List UInt8
  /-- The message ends with `data`. -/
  eom : Bool
  packets : List (List UInt8)
  deriving DecidableEq, Repr

abbrev QueueM := EStateM Error PacketQueue

namespace PacketQueue

/-- All the bytes the readers will get. -/
def stream (q : PacketQueue) : List UInt8 := q.data ++ q.packets.flatMap payload

/-- Put the payload of the next packet behind the bytes to read. -/
def refill : QueueM Unit := do
  let q ← get
  match q.packets with
  | [] => throw (NetworkTransport.closedError 0)
  | p :: ps =>
    if Acceptable p then set (⟨q.data ++ payload p, hasEom p, ps⟩ : PacketQueue)
    else throw TdsReadBuffer.payloadFreeError

theorem refill_apply (q : PacketQueue) :
    refill q = match q.packets with
      | [] => .error (NetworkTransport.closedError 0) q
      | p :: ps => if Acceptable p then .ok () ⟨q.data ++ payload p, hasEom p, ps⟩
        else .error TdsReadBuffer.payloadFreeError q := by
  unfold refill
  rw [bind_ok get_apply]
  cases q.packets with
  | nil => rfl
  | cons p ps =>
    dsimp only
    rw [EState.ite_apply]
    rfl

/-- Take `n` bytes off the front. -/
def take (n : ℕ) : QueueM (List UInt8) := do
  let q ← get
  set { q with data := q.data.drop n }
  pure (q.data.take n)

def truncated (q : PacketQueue) (consumedAny : Bool) (needed : ℕ) : Bool :=
  (consumedAny || q.data.length > 0) && (q.eom && needed > q.data.length)

def refillFor (needed : ℕ) : QueueM Unit := do
  let q ← get
  if q.truncated false needed then throw (pastEndOfMessageError needed q.data.length) else refill

def readArrayLoop (width : ℕ) : ℕ → QueueM (List UInt8)
  | 0 => throw .outOfFuel
  | fuel + 1 => do
    if width ≤ (← get).data.length then take width
    else
      refillFor width
      readArrayLoop width fuel

def refillBelow (wanted : ℕ) : QueueM Unit := do
  if !(wanted ≤ (← get).data.length) then refill

def takeAvailable (limit taken lengthToRead emptyMessages : ℕ) : QueueM (List UInt8) := do
  let q ← get
  let toRead := min q.data.length (min lengthToRead limit)
  if toRead = 0 then
    if q.eom = false then throw (NetworkTransport.noProgressError lengthToRead)
    else if taken > 0 then throw (pastEndOfMessageError lengthToRead q.data.length)
    else if emptyMessages + 1 > NetworkTransport.maxConsecutiveEmptyMessages then
      throw (NetworkTransport.stalledOnEmptyMessagesError lengthToRead)
    else pure []
  else take toRead

def bulkRound (window limit taken lengthToRead emptyMessages : ℕ) : QueueM (List UInt8) := do
  let q ← get
  if q.truncated (taken > 0) lengthToRead then
    throw (pastEndOfMessageError lengthToRead q.data.length)
  else do
    refillBelow (min window lengthToRead)
    takeAvailable limit taken lengthToRead emptyMessages

def bulkLoop (window limit : ℕ) : ℕ → List UInt8 → ℕ → ℕ → QueueM (List UInt8)
  | _, taken, 0, _ => pure taken
  | 0, _, _ + 1, _ => throw .outOfFuel
  | fuel + 1, taken, lengthToRead + 1, emptyMessages => do
    let bytes ← bulkRound window limit taken.length (lengthToRead + 1) emptyMessages
    let emptyMessages := if bytes = [] then emptyMessages + 1 else emptyMessages
    bulkLoop window limit fuel (taken ++ bytes) (lengthToRead + 1 - bytes.length) emptyMessages

end PacketQueue

/-! ### The transport simulates its queue -/

namespace NetworkTransport

def Stands (t : NetworkTransport) (size : ℕ) (q : PacketQueue) : Prop :=
  t.Streams size q.data q.eom q.packets

/-- The result of a reader of the transport and the one on its queue. -/
inductive SameResult {α : Type} (t : NetworkTransport) (size : ℕ) :
    EStateM.Result Error NetworkTransport α → EStateM.Result Error PacketQueue α → Prop
  | ok {a : α} {t' : NetworkTransport} {q' : PacketQueue} (hstands : t'.Stands size q')
      (hmore : t.Delivering → t'.Delivering) : SameResult t size (.ok a t') (.ok a q')
  | error {e : Error} {t' : NetworkTransport} {q' : PacketQueue}
      (he : ∀ message, e ≠ .panic message)
      (hbounded : t'.Bounded) : SameResult t size (.error e t') (.error e q')
  /-- The network does not deliver, so the reader of the transport does not return. -/
  | undelivered {e : Error} {t' : NetworkTransport} {r : EStateM.Result Error PacketQueue α}
      (hfail : ¬ t.Delivering) (he : ∀ message, e ≠ .panic message) (hbounded : t'.Bounded) :
      SameResult t size (.error e t') r

/-- The computation does on a transport what the other does on its queue. -/
def Simulates {α : Type} (size : ℕ) (m : TransportM α) (m' : QueueM α) : Prop :=
  ∀ t q, t.Stands size q → SameResult t size (m t) (m' q)

variable {α β : Type} {t : NetworkTransport} {q : PacketQueue} {size : ℕ}
  {r : EStateM.Result Error NetworkTransport α}

theorem SameResult.of_more {t' : NetworkTransport}
    {r' : EStateM.Result Error PacketQueue α} (h : SameResult t' size r r')
    (hmore : t.Delivering → t'.Delivering) : SameResult t size r r' := by
  cases h with
  | ok hstands hmore' => exact .ok hstands fun hdel => hmore' (hmore hdel)
  | error he hbounded => exact .error he hbounded
  | undelivered hfail he hbounded => exact .undelivered (fun hdel => hfail (hmore hdel)) he hbounded

/-- If the network delivers, the reader of the transport returns what the one on the queue does. -/
theorem SameResult.eq_ok {a : α} {q' : PacketQueue}
    (h : SameResult t size r (.ok a q')) (hdel : t.Delivering) : ∃ t', r = .ok a t' := by
  cases h with
  | ok _ _ => exact ⟨_, rfl⟩
  | undelivered hfail => exact absurd hdel hfail

theorem SameResult.eq_error {e : Error} {q' : PacketQueue}
    (h : SameResult t size r (.error e q')) (hdel : t.Delivering) : ∃ t', r = .error e t' := by
  cases h with
  | error _ _ => exact ⟨_, rfl⟩
  | undelivered hfail => exact absurd hdel hfail

variable {f : α → TransportM β}

/-- After a step with the same result, the rest has to have the same result. -/
theorem SameResult.bind {m : TransportM α} {m' : QueueM α} {f' : α → QueueM β}
    (h : SameResult t size (m t) (m' q)) (hf : ∀ a, Simulates size (f a) (f' a)) :
    SameResult t size ((m >>= f) t) ((m' >>= f') q) := by
  rw [bind_apply, bind_apply]
  generalize m t = r at h
  generalize m' q = r' at h
  cases h with
  | ok hstands hmore => exact (hf _ _ _ hstands).of_more hmore
  | error he hbounded => exact .error he hbounded
  | undelivered hfail he hbounded => exact .undelivered hfail he hbounded

theorem Simulates.bind {m : TransportM α} {m' : QueueM α} {f' : α → QueueM β}
    (h : Simulates size m m') (hf : ∀ a, Simulates size (f a) (f' a)) :
    Simulates size (m >>= f) (m' >>= f') := fun t q hq => (h t q hq).bind hf

theorem Simulates.pure (a : α) : Simulates size (pure a : TransportM α) (pure a) :=
  fun _ _ hq => .ok hq id

theorem Stands.throw (h : t.Stands size q) {e : Error} (he : ∀ message, e ≠ .panic message) :
    SameResult t size ((throw e : TransportM α) t) ((throw e : QueueM α) q) :=
  .error he (Streams.bounded h)

/-! ### Reader by reader -/

theorem Stands.readTdsPacket (h : t.Stands size q) (hdata : q.data.length ≤ size) :
    SameResult t size (readTdsPacket t) (PacketQueue.refill q) := by
  have hrefilled := readTdsPacket_refilled h hdata
  rw [PacketQueue.refill_apply]
  revert hrefilled
  cases NetworkTransport.readTdsPacket t with
  | ok u t' =>
    intro hrefilled
    cases hrefilled with
    | packet hpackets hok hstreams hmore =>
      simp only [hpackets, if_pos hok]
      exact .ok hstreams hmore
  | error e t' =>
    intro hrefilled
    cases hrefilled with
    | stopped hstops hbounded =>
      cases hstops with
      | malformed hpackets hbad =>
        simp only [hpackets, if_neg hbad]
        exact .error (by simp [TdsReadBuffer.payloadFreeError]) hbounded
      | closed hpackets =>
        simp only [hpackets]
        exact .error (by simp [closedError]) hbounded
      | undelivered hfail he => exact .undelivered hfail he hbounded

theorem Stands.truncated_eq (h : t.Stands size q) (consumedAny : Bool) (needed : ℕ) :
    t.valueTruncatedByMessageEnd consumedAny needed = q.truncated consumedAny needed := by
  rw [valueTruncatedByMessageEnd, PacketQueue.truncated, Streams.remaining h, Streams.eom_eq h]

theorem Stands.refillFor (h : t.Stands size q) {needed : ℕ} (hdata : q.data.length ≤ size) :
    SameResult t size (refillFor needed t) (PacketQueue.refillFor needed q) := by
  unfold NetworkTransport.refillFor PacketQueue.refillFor
  rw [bind_ok get_apply, bind_ok get_apply, EState.ite_apply,
    EState.ite_apply, h.truncated_eq, Streams.remaining h]
  split
  · exact h.throw (by simp [pastEndOfMessageError])
  · exact h.readTdsPacket hdata

/-- Taking bytes that are there. -/
theorem Stands.take (h : t.Stands size q) {n : ℕ} (hn : n ≤ q.data.length) :
    ∃ b, t.tryReadArray n = .ok (some (q.data.take n), b) ∧
      NetworkTransport.Stands { t with toTdsReadBuffer := b } size
        { q with data := q.data.drop n } := by
  obtain ⟨raw, hraw, hstream⟩ := h.held
  obtain ⟨b, hrun, hb⟩ := hraw.tryReadArray hn
  exact ⟨b, hrun, h.wellFormed, raw, hb, hstream⟩

theorem readArrayLoop_simulates {width : ℕ} (hwidth : width ≤ size) (fuel : ℕ) :
    Simulates size (readArrayLoop width fuel) (PacketQueue.readArrayLoop width fuel) := by
  induction fuel with
  | zero =>
    intro t q h
    exact h.throw (by simp)
  | succ fuel ih =>
    intro t q h
    unfold readArrayLoop PacketQueue.readArrayLoop
    rw [bind_ok (get_apply (s := q))]
    by_cases henough : width ≤ q.data.length
    · obtain ⟨b, hrun, hb⟩ := h.take henough
      rw [bind_ok (onBuffer_ok hrun), if_pos henough]
      exact .ok hb fun hdel => hdel.withBuffer b
    · obtain ⟨raw, hraw, -⟩ := h.held
      rw [bind_ok (onBuffer_ok (hraw.tryReadArray_none (by omega))), if_neg henough]
      exact (h.refillFor (by omega)).bind fun _ => ih

theorem refillBelow_simulates {wanted : ℕ} (hwanted : wanted ≤ size) :
    Simulates size (refillBelow wanted) (PacketQueue.refillBelow wanted) := by
  intro t q h
  unfold refillBelow PacketQueue.refillBelow
  rw [bind_ok get_apply, bind_ok get_apply]
  rw [TdsReadBuffer.doWeHaveEnoughData, Streams.remaining h, EState.ite_apply, EState.ite_apply]
  split
  · rename_i hshort
    have hlt : q.data.length < wanted := by simpa using hshort
    exact h.readTdsPacket (by omega)
  · exact .ok h id

theorem takeAvailable_simulates (taken lengthToRead emptyMessages : ℕ) :
    Simulates size (takeAvailable taken lengthToRead emptyMessages)
      (PacketQueue.takeAvailable (size - 8) taken lengthToRead emptyMessages) := by
  intro t q h
  obtain ⟨raw, hraw, hstream⟩ := h.held
  unfold PacketQueue.takeAvailable
  rw [bind_ok get_apply]
  obtain ⟨k, hk⟩ : ∃ k, min q.data.length (min lengthToRead (size - 8)) = k := ⟨_, rfl⟩
  rw [hk, EState.ite_apply]
  by_cases hzero : k = 0
  · unfold takeAvailable
    rw [if_pos hzero, bind_ok get_apply]
    simp only [hraw.remaining, hraw.size_eq, hraw.eom_eq, hk, if_pos hzero, EState.ite_apply]
    split
    · exact h.throw (by simp [noProgressError])
    split
    · exact h.throw (by simp [pastEndOfMessageError])
    split
    · exact h.throw (by simp [stalledOnEmptyMessagesError])
    · exact .ok h id
  · obtain ⟨b, hrun, hb⟩ := takeAvailable_held hraw taken hk hzero
    rw [if_neg hzero, hrun]
    exact .ok ⟨h.wellFormed, raw, hb, hstream⟩ fun hdel => hdel.withBuffer b

theorem bulkLoop_simulates {window : ℕ} (hwindow : window ≤ size) (fuel : ℕ) (taken : List UInt8)
    (lengthToRead emptyMessages : ℕ) :
    Simulates size (bulkLoop window fuel taken lengthToRead emptyMessages)
      (PacketQueue.bulkLoop window (size - 8) fuel taken lengthToRead emptyMessages) := by
  induction fuel generalizing taken lengthToRead emptyMessages with
  | zero =>
    cases lengthToRead with
    | zero => exact .pure taken
    | succ lengthToRead =>
      intro t q h
      exact h.throw (by simp)
  | succ fuel ih =>
    cases lengthToRead with
    | zero => exact .pure taken
    | succ lengthToRead =>
      refine .bind ?_ fun bytes => ih _ _ _
      intro t q h
      unfold bulkRound PacketQueue.bulkRound
      rw [bind_ok get_apply, bind_ok get_apply, EState.ite_apply,
        EState.ite_apply, h.truncated_eq, Streams.remaining h]
      split
      · exact h.throw (by simp [pastEndOfMessageError])
      · exact (refillBelow_simulates (by omega) t q h).bind fun _ => takeAvailable_simulates _ _ _

/-! ### The readers -/

theorem Stands.rawLength (h : t.Stands size q) :
    t.pendingBytes + t.wire.length = q.packets.flatten.length := by
  obtain ⟨raw, hraw, hstream⟩ := h.held
  rw [← hstream, length_append, hraw.pendingBytes_eq]

theorem Stands.readArray (h : t.Stands size q) {width : ℕ} (hwidth : width ≤ size) :
    SameResult t size (readArray width t)
      (PacketQueue.readArrayLoop width (q.packets.flatten.length + 2) q) := by
  unfold NetworkTransport.readArray
  rw [bind_ok get_apply, h.rawLength]
  exact readArrayLoop_simulates hwidth _ t q h

theorem Stands.readBytes (h : t.Stands size q) (length : ℕ) :
    SameResult t size (readBytes length t)
      (PacketQueue.bulkLoop size (size - 8) (length + 1) [] length 0 q) := by
  unfold NetworkTransport.readBytes
  rw [bind_ok get_apply, Streams.size_eq h]
  exact bulkLoop_simulates (Nat.le_refl _) _ _ _ _ t q h

theorem Stands.skippedBytes (h : t.Stands size q) (skipCount : ℕ) :
    SameResult t size (skippedBytes skipCount t)
      (PacketQueue.bulkLoop (size - 8) (size - 8) (skipCount + 1) [] skipCount 0 q) := by
  unfold NetworkTransport.skippedBytes
  rw [bind_ok get_apply, Streams.size_eq h]
  exact bulkLoop_simulates (Nat.sub_le _ _) _ _ _ _ t q h

end NetworkTransport

/-! ### The queue is read from the front -/

namespace PacketQueue

/-- On success the bytes returned are the next bytes of the stream. -/
def Delivers (m : QueueM (List UInt8)) : Prop :=
  ∀ q bytes q', m q = .ok bytes q' → q.stream = bytes ++ q'.stream

/-- On success the stream is as before. -/
def KeepsStream (m : QueueM Unit) : Prop := ∀ q q', m q = .ok () q' → q'.stream = q.stream

theorem refill_keepsStream : KeepsStream refill := by
  intro q q' h
  rw [refill_apply] at h
  cases hpackets : q.packets with
  | nil =>
    rw [hpackets] at h
    cases h
  | cons p ps =>
    rw [hpackets] at h
    dsimp only at h
    split at h
    · cases h
      simp [stream, hpackets]
    · cases h

theorem refillFor_keepsStream (needed : ℕ) : KeepsStream (refillFor needed) := by
  intro q q' h
  unfold refillFor at h
  rw [bind_ok get_apply, EState.ite_apply] at h
  split at h
  · cases h
  · exact refill_keepsStream q q' h

theorem refillBelow_keepsStream (wanted : ℕ) : KeepsStream (refillBelow wanted) := by
  intro q q' h
  unfold refillBelow at h
  rw [bind_ok get_apply, EState.ite_apply] at h
  split at h
  · exact refill_keepsStream q q' h
  · cases h
    rfl

theorem take_delivers (n : ℕ) : Delivers (take n) := by
  intro q bytes q' h
  cases h
  simp [stream, ← append_assoc]

section

variable {q q' : PacketQueue} {bytes : List UInt8}

/-- A successful read returns the next bytes of the stream, as many as it is asked for. -/
theorem readArrayLoop_eq_ok {width fuel : ℕ} (h : readArrayLoop width fuel q = .ok bytes q') :
    q.stream = bytes ++ q'.stream ∧ bytes.length = width := by
  induction fuel generalizing q with
  | zero => cases h
  | succ fuel ih =>
    unfold readArrayLoop at h
    rw [bind_ok get_apply, EState.ite_apply] at h
    split at h
    · next henough =>
      refine ⟨take_delivers width q bytes q' h, ?_⟩
      cases h
      rw [length_take]
      omega
    · obtain ⟨u, q₁, hrefill, hrest⟩ := bind_eq_ok.mp h
      rw [← refillFor_keepsStream width q q₁ hrefill]
      exact ih hrest

theorem takeAvailable_eq_ok {limit taken lengthToRead emptyMessages : ℕ}
    (h : takeAvailable limit taken lengthToRead emptyMessages q = .ok bytes q') :
    q.stream = bytes ++ q'.stream ∧ bytes.length ≤ lengthToRead := by
  unfold takeAvailable at h
  rw [bind_ok get_apply] at h
  split at h
  · -- only the empty message succeeds, and takes nothing
    split at h
    · cases h
    split at h
    · cases h
    split at h
    · cases h
    · cases h
      exact ⟨rfl, Nat.zero_le _⟩
  · refine ⟨take_delivers _ q bytes q' h, ?_⟩
    cases h
    rw [length_take]
    omega

theorem bulkRound_eq_ok {window limit taken lengthToRead emptyMessages : ℕ}
    (h : bulkRound window limit taken lengthToRead emptyMessages q = .ok bytes q') :
    q.stream = bytes ++ q'.stream ∧ bytes.length ≤ lengthToRead := by
  unfold bulkRound at h
  rw [bind_ok get_apply, EState.ite_apply] at h
  split at h
  · cases h
  · obtain ⟨u, q₁, hrefill, htake⟩ := bind_eq_ok.mp h
    rw [← refillBelow_keepsStream _ q q₁ hrefill]
    exact takeAvailable_eq_ok htake

/-- A bulk read returns what it had taken and the next bytes of the stream, as many as are missing.
-/
theorem bulkLoop_eq_ok {window limit fuel : ℕ} {taken : List UInt8}
    {lengthToRead emptyMessages : ℕ}
    (h : bulkLoop window limit fuel taken lengthToRead emptyMessages q = .ok bytes q') :
    taken ++ q.stream = bytes ++ q'.stream ∧ bytes.length = taken.length + lengthToRead := by
  induction fuel generalizing taken lengthToRead emptyMessages q with
  | zero =>
    cases lengthToRead with
    | zero =>
      cases h
      exact ⟨rfl, rfl⟩
    | succ lengthToRead => cases h
  | succ fuel ih =>
    cases lengthToRead with
    | zero =>
      cases h
      exact ⟨rfl, rfl⟩
    | succ lengthToRead =>
      obtain ⟨more, q₁, hround, hrest⟩ := bind_eq_ok.mp h
      obtain ⟨hstream, hle⟩ := bulkRound_eq_ok hround
      obtain ⟨hstream', hlen⟩ := ih hrest
      refine ⟨?_, ?_⟩
      · rw [hstream, ← append_assoc, hstream']
      · rw [hlen, length_append]
        omega

end

end PacketQueue

/-! ### Runs of the readers -/

/-- What a decoder asks of the transport. -/
inductive ReadOp where
  /-- A non-blocking refill. -/
  | tryRefill
  /-- Bytes, if they are buffered. -/
  | tryRead (length : ℕ)
  /-- A scalar of at most eight bytes. -/
  | scalar (width : Fin 9)
  | readBytes (length : ℕ)
  | skipBytes (length : ℕ)
  deriving DecidableEq, Repr

namespace NetworkTransport

/-- A transport at the start of a connection, to which the peer sends the packets. -/
def start (size : ℕ) (packets : List (List UInt8)) (polls : List ReadPoll) : NetworkTransport where
  toTdsReadBuffer := .new size
  connected := true
  wire := packets.flatten
  polls := polls
  knownDead := false

/-- The bytes the operation returns or skips. -/
def perform : ReadOp → TransportM (List UInt8)
  | .tryRefill => (fun _ => []) <$> tryReadTdsPacket
  | .tryRead length => (·.getD []) <$> onBuffer fun b => b.tryReadArray length
  | .scalar width => readArray width
  | .readBytes length => NetworkTransport.readBytes length
  | .skipBytes length => skippedBytes length

/-- The bytes of each operation, in order. -/
def performAll : List ReadOp → TransportM (List (List UInt8))
  | [] => pure []
  | op :: ops => do
    let bytes ← perform op
    let more ← performAll ops
    pure (bytes :: more)

theorem start_stands {size : ℕ} (hsize : 8 ≤ size) {packets : List (List UInt8)}
    (hwf : ∀ p ∈ packets, WellFormedPacket size p) (polls : List ReadPoll) :
    (start size packets polls).Stands size ⟨[], false, packets⟩ :=
  ⟨hwf, [], TdsReadBuffer.new_holds hsize, rfl⟩

end NetworkTransport

/-- The operation returns or skips as many bytes as it is asked for. -/
def ReadOp.Fits : ReadOp → List UInt8 → Prop
  | .tryRefill, bytes => bytes = []
  | .tryRead length, bytes => bytes = [] ∨ bytes.length = length
  | .scalar width, bytes => bytes.length = width
  | .readBytes length, bytes => bytes.length = length
  | .skipBytes length, bytes => bytes.length = length

namespace NetworkTransport

variable {t : NetworkTransport} {q : PacketQueue} {size : ℕ}

/-- How reading from a transport that stands for `q` ends: with the next bytes of its stream, or
with an error that is no panic. -/
inductive Delivered (size : ℕ) (q : PacketQueue) (Fits : List UInt8 → Prop) :
    EStateM.Result Error NetworkTransport (List UInt8) → Prop
  | ok {bytes : List UInt8} {t' : NetworkTransport} {q' : PacketQueue} (hstands : t'.Stands size q')
      (hstream : q.stream = bytes ++ q'.stream) (hfits : Fits bytes) :
      Delivered size q Fits (.ok bytes t')
  | error {e : Error} {t' : NetworkTransport} (he : ∀ message, e ≠ .panic message)
      (hbounded : t'.Bounded) : Delivered size q Fits (.error e t')

/-- A simulated read that delivers on the queue delivers on the transport. -/
theorem SameResult.delivered {r : EStateM.Result Error NetworkTransport (List UInt8)}
    {r' : EStateM.Result Error PacketQueue (List UInt8)} {Fits : List UInt8 → Prop}
    (h : SameResult t size r r')
    (hqueue : ∀ bytes q', r' = .ok bytes q' → q.stream = bytes ++ q'.stream ∧ Fits bytes) :
    Delivered size q Fits r := by
  cases h with
  | ok hstands _ => exact .ok hstands (hqueue _ _ rfl).1 (hqueue _ _ rfl).2
  | error he hbounded => exact .error he hbounded
  | undelivered _ he hbounded => exact .error he hbounded

theorem Stands.perform (h : t.Stands size q) (op : ReadOp) :
    Delivered size q op.Fits (perform op t) := by
  have hheader : 8 ≤ size := by
    rw [← Streams.size_eq h]
    exact (Streams.bounded h).header
  cases op with
  | tryRefill =>
    show Delivered size q _ (((fun _ => []) <$> tryReadTdsPacket : TransportM (List UInt8)) t)
    rw [map_apply]
    rcases tryReadTdsPacket_streams h with ⟨t', hrun, hrefilled⟩ | ⟨t', hrun, hstreams⟩ |
      ⟨e, t', hrun, hstops, hbounded⟩
    · rw [hrun]
      obtain @⟨p, ps, _, hpackets, -, hstreams, -⟩ := hrefilled
      refine @Delivered.ok _ _ _ _ _ ⟨q.data ++ payload p, hasEom p, ps⟩ hstreams ?_ rfl
      simp [PacketQueue.stream, hpackets]
    · rw [hrun]
      exact @Delivered.ok _ _ _ _ _ q hstreams rfl rfl
    · rw [hrun]
      exact .error hstops.not_panic hbounded
  | tryRead length =>
    show Delivered size q _
      (((·.getD []) <$> onBuffer fun b => b.tryReadArray length : TransportM (List UInt8)) t)
    rw [map_apply]
    by_cases henough : length ≤ q.data.length
    · obtain ⟨b, hrun, hb⟩ := h.take henough
      rw [onBuffer_ok hrun]
      refine .ok hb ?_ (.inr ?_)
      · simp [PacketQueue.stream, ← append_assoc]
      · simpa using henough
    · obtain ⟨raw, hraw, -⟩ := h.held
      rw [onBuffer_ok (hraw.tryReadArray_none (by omega))]
      exact @Delivered.ok _ _ _ _ _ q h rfl (.inl rfl)
  | scalar width =>
    have hwidth : (width : ℕ) ≤ size := by
      have := width.isLt
      omega
    exact (h.readArray hwidth).delivered fun bytes q' hrun => PacketQueue.readArrayLoop_eq_ok hrun
  | readBytes length =>
    refine (h.readBytes length).delivered fun bytes q' hrun => ?_
    simpa [ReadOp.Fits] using PacketQueue.bulkLoop_eq_ok hrun
  | skipBytes length =>
    refine (h.skippedBytes length).delivered fun bytes q' hrun => ?_
    simpa [ReadOp.Fits] using PacketQueue.bulkLoop_eq_ok hrun

/-- How a run of the readers ends: the operations return or skip the next bytes, one after the
other, or one of them fails. -/
inductive DeliveredAll (size : ℕ) (q : PacketQueue) (ops : List ReadOp) :
    EStateM.Result Error NetworkTransport (List (List UInt8)) → Prop
  | ok {results : List (List UInt8)} {t' : NetworkTransport} {q' : PacketQueue}
      (hstands : t'.Stands size q') (hstream : q.stream = results.flatten ++ q'.stream)
      (hfits : List.Forall₂ ReadOp.Fits ops results) : DeliveredAll size q ops (.ok results t')
  | error {e : Error} {t' : NetworkTransport} (he : ∀ message, e ≠ .panic message)
      (hbounded : t'.Bounded) : DeliveredAll size q ops (.error e t')

theorem Stands.performAll (h : t.Stands size q) (ops : List ReadOp) :
    DeliveredAll size q ops (performAll ops t) := by
  induction ops generalizing t q with
  | nil => exact @DeliveredAll.ok _ _ _ _ _ q h rfl .nil
  | cons op ops ih =>
    unfold NetworkTransport.performAll
    rw [bind_apply]
    have hone := h.perform op
    generalize NetworkTransport.perform op t = r at hone
    cases hone with
    | error he hbounded => exact .error he hbounded
    | @ok bytes t₁ q₁ hstands hstream hfits =>
      dsimp only
      rw [bind_apply]
      have hrest := ih hstands
      generalize NetworkTransport.performAll ops t₁ = r at hrest
      cases hrest with
      | error he hbounded => exact .error he hbounded
      | ok hstands₂ hstream₂ hfits₂ =>
        refine .ok hstands₂ ?_ (.cons hfits hfits₂)
        rw [hstream, hstream₂, flatten_cons, append_assoc]

end NetworkTransport

/-- How reading the payload of the packets ends; the indices of the buffer are in order. -/
inductive DeliversPayload (packets : List (List UInt8)) (ops : List ReadOp) :
    EStateM.Result Error NetworkTransport (List (List UInt8)) → Prop
  /-- The operations have returned or skipped the front of the payload, each of them as many bytes
  as it asks for. -/
  | ok {results : List (List UInt8)} {t : NetworkTransport}
      (hpayload : results.flatten <+: packets.flatMap payload)
      (hfits : List.Forall₂ ReadOp.Fits ops results) (hposition : t.bufferPosition ≤ t.bufferLength)
      (hlength : t.bufferLength ≤ t.workingBuffer.length) :
      DeliversPayload packets ops (.ok results t)
  /-- An operation has failed, and not by a slice out of range. -/
  | error {e : Error} {t : NetworkTransport} (hpanic : ∀ message, e ≠ .panic message)
      (hposition : t.bufferPosition ≤ t.bufferLength)
      (hlength : t.bufferLength ≤ t.workingBuffer.length) : DeliversPayload packets ops (.error e t)

open NetworkTransport in
/-- **The readers deliver the payload of the packets, in order, without loss or repetition**,
however the packets come in, whatever refills are tried in between, and whatever the readers are;
each of them returns or skips as many bytes as it is asked for.  No slice of the buffer is out of
its range, and the position stays below the length and the length below the capacity. -/
theorem readers_deliver_payload {size : ℕ} (hsize : 8 ≤ size) {packets : List (List UInt8)}
    (hwf : ∀ p ∈ packets, WellFormedPacket size p) (polls : List ReadPoll) (ops : List ReadOp) :
    DeliversPayload packets ops (performAll ops (start size packets polls)) := by
  have hrun := (start_stands hsize hwf polls).performAll ops
  generalize performAll ops (start size packets polls) = r at hrun
  cases hrun with
  | @ok results t q' hstands hstream hfits =>
    refine .ok ⟨q'.stream, ?_⟩ hfits (Streams.bounded hstands).position
      (Streams.bounded hstands).length
    rw [← hstream]
    rfl
  | error he hbounded => exact .error he hbounded.position hbounded.length

/-- Two packets that arrive byte by byte. -/
def splitPackets : List (List UInt8) :=
  [[4, 0, 0, 10, 0, 0, 1, 0, 0xA1, 0xA2], [4, 1, 0, 9, 0, 0, 2, 0, 0xA3]]

def splitPolls : List ReadPoll := (List.replicate 30 [.pending, .ready 0]).flatten

theorem splitPolls_delivering {packets : List (List UInt8)} (h : packets.flatten.length < 30) :
    (NetworkTransport.start 16 packets splitPolls).Delivering := by
  refine ⟨rfl, ?_, h⟩
  intro message hmem
  simp [NetworkTransport.start, splitPolls] at hmem

theorem splitPackets_wellFormed : ∀ p ∈ splitPackets, WellFormedPacket 16 p := by
  intro p hp
  rcases mem_cons.mp hp with rfl | hp
  · exact ⟨by decide, by decide, by decide⟩
  · rw [mem_singleton.mp hp]
    exact ⟨by decide, by decide, by decide⟩

theorem NetworkTransport.performAll_singleton (op : ReadOp) (t : NetworkTransport) :
    performAll [op] t = match perform op t with
      | .ok bytes t' => .ok [bytes] t'
      | .error e t' => .error e t' := by
  unfold performAll
  rw [bind_apply]
  cases perform op t <;> rfl

open NetworkTransport in
theorem readers_deliver_payload_split :
    ∃ results t, performAll [.scalar 3] (start 16 splitPackets splitPolls) = .ok results t ∧
      results = [[0xA1, 0xA2, 0xA3]] ∧ results.flatten <+: splitPackets.flatMap payload := by
  have hstands := start_stands (by decide) splitPackets_wellFormed splitPolls
  have hdelivering : (start 16 splitPackets splitPolls).Delivering :=
    splitPolls_delivering (by decide)
  have hsame := hstands.readArray (show 3 ≤ 16 by decide)
  have hdelivered := readers_deliver_payload
    (by decide) splitPackets_wellFormed splitPolls [.scalar 3]
  rw [performAll_singleton] at hdelivered ⊢
  rw [show perform (.scalar 3) = readArray 3 from rfl] at hdelivered ⊢
  obtain ⟨t, hrun⟩ := hsame.eq_ok hdelivering
  rw [hrun] at hdelivered ⊢
  cases hdelivered with
  | ok hpayload => exact ⟨_, t, rfl, rfl, hpayload⟩

end MssqlTds
