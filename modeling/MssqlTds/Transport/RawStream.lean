import MssqlTds.Transport.NetworkReader

/-!
# Receiving packets from a stream of raw bytes

`Carries t size data eom raw` is what a transport stands for when nothing is known about the bytes
that are still to come: `data` is what its readers get next, `eom` says that the message ends with
it, and `raw` is everything behind, parked in the buffer or on the wire.  The raw bytes start with a
packet, with a length field that no packet has, or they end before their first packet does
(`raw_cases`), and `readTdsPacket_raw` says what a refill does in each of the three cases.
-/

namespace MssqlTds

open Bytes PacketWriter EState List

/-- A packet with a length field that is right and not larger than the packet size. -/
structure WellFormedPacket (size : ℕ) (p : List UInt8) : Prop where
  header : packetHeaderSize ≤ p.length
  fits : p.length ≤ size
  length : lengthField p = p.length

/-- A packet with no payload ends its message. -/
def Acceptable (p : List UInt8) : Prop := p.length = packetHeaderSize → hasEom p = true

instance (p : List UInt8) : Decidable (Acceptable p) := inferInstanceAs (Decidable (_ → _))

/-! ### What raw bytes start with -/

/-- The length field is one that no packet has. -/
def BadLength (size : ℕ) (raw : List UInt8) : Prop :=
  packetHeaderSize ≤ raw.length ∧ (lengthField raw < packetHeaderSize ∨ size < lengthField raw)

/-- The bytes end before their first packet does. -/
def Unfinished (size : ℕ) (raw : List UInt8) : Prop :=
  raw.length < packetHeaderSize ∨
    (packetHeaderSize ≤ lengthField raw ∧ lengthField raw ≤ size ∧ raw.length < lengthField raw)

theorem BadLength.append {size : ℕ} {raw : List UInt8} (h : BadLength size raw)
    (more : List UInt8) :
    BadLength size (raw ++ more) := by
  refine ⟨?_, ?_⟩
  · rw [length_append]
    have := h.1
    omega
  · rw [lengthField_append h.1]
    exact h.2

/-- The three things raw bytes can start with. -/
theorem raw_cases (size : ℕ) (raw : List UInt8) :
    (∃ p rest, raw = p ++ rest ∧ WellFormedPacket size p) ∨ BadLength size raw ∨
      Unfinished size raw := by
  by_cases hheader : raw.length < packetHeaderSize
  · exact .inr (.inr (.inl hheader))
  by_cases hbad : lengthField raw < packetHeaderSize ∨ size < lengthField raw
  · exact .inr (.inl ⟨Nat.not_lt.mp hheader, hbad⟩)
  rw [not_or, Nat.not_lt, Nat.not_lt] at hbad
  by_cases hshort : raw.length < lengthField raw
  · exact .inr (.inr (.inr ⟨hbad.1, hbad.2, hshort⟩))
  have hlen : (raw.take (lengthField raw)).length = lengthField raw := by
    rw [length_take]
    omega
  have hsplit := take_append_drop (lengthField raw) raw
  refine .inl ⟨raw.take (lengthField raw), raw.drop (lengthField raw), hsplit.symm, ?_⟩
  refine ⟨by omega, by omega, ?_⟩
  rw [hlen, ← @lengthField_append _ (raw.drop (lengthField raw)) (by omega), hsplit]

/-! ### Receiving a packet into the buffer -/

namespace TdsReadBuffer

/-- Raw bytes `got` of the next packets stand behind the bytes to read. -/
structure Receiving (b : TdsReadBuffer) (size : ℕ) (data got : List UInt8) (eom : Bool) :
    Prop extends
    Bounded b where
  size_eq : b.maxPacketSize = size
  data_eq : b.buffered = data
  eom_eq : b.endOfMessage = eom
  none_pending : b.pendingBytes = 0
  fits : b.bufferLength + got.length ≤ b.workingBuffer.length
  got_eq : b.workingBuffer.segment b.bufferLength got.length = got

variable {b : TdsReadBuffer} {size : ℕ} {data raw got p extra : List UInt8} {eom : Bool}

theorem Holds.movePendingPacketBytes (h : b.Holds size data raw eom) :
    ∃ b', b.movePendingPacketBytes b.bufferLength = .ok (raw.length, b') ∧
      b'.Receiving size data raw eom ∧ b'.bufferLength = b.bufferLength := by
  have hpend := h.pending
  have hlen := h.length
  have hpos := h.position
  have hraw := h.pendingBytes_eq
  unfold TdsReadBuffer.movePendingPacketBytes
  dsimp only
  split
  · rename_i hsome
    have hbehind := h.behind hsome
    rw [if_neg (by omega), copyWithin_eq_ok (by omega) hpend (by omega), hraw,
      Nat.add_sub_cancel_left]
    rw [hraw] at hpend
    have hlength := length_copySegment (l := b.workingBuffer) hpend
      (show b.bufferLength + raw.length ≤ _ by omega)
    refine ⟨_, rfl, { h with
      capacity := ?_, length := ?_, pending := ?_, behind := ?_, data_eq := ?_, none_pending := rfl,
      fits := ?_, got_eq := ?_ }, rfl⟩
    all_goals dsimp only
    · rw [hlength, h.capacity]
    · rw [hlength]
      exact hlen
    · exact Nat.zero_le _
    · exact fun hzero => absurd hzero (Nat.lt_irrefl 0)
    · -- the bytes to read are in front of the copy
      show List.segment b.bufferPosition (b.bufferLength - b.bufferPosition) _ = data
      rw [segment_copySegment_before (by omega) hlen]
      exact h.data_eq
    · rw [hlength]
      omega
    · rw [segment_copySegment_self hpend (by omega), ← hraw]
      exact h.raw_eq
  · rename_i hnone
    obtain rfl : raw = [] := length_eq_zero_iff.mp (by omega)
    exact ⟨b, rfl, { h with none_pending := by omega, fits := hlen, got_eq := by simp }, rfl⟩

theorem Receiving.slice (h : b.Receiving size data got eom) {i n : ℕ} (hi : i + n ≤ got.length) :
    b.slice (b.bufferLength + i) (b.bufferLength + (i + n)) = .ok ((got.drop i).take n) := by
  have hfits := h.fits
  rw [slice_eq_ok (by omega) (by omega)]
  have hn : b.bufferLength + (i + n) - (b.bufferLength + i) = n := by omega
  have hgot := h.got_eq
  rw [hn, ← hgot, drop_segment, take_segment (by omega)]

/-- The length field can be read once the header is there. -/
theorem Receiving.slice_length (h : b.Receiving size data got eom)
    (hgot : packetHeaderSize ≤ got.length) :
    b.slice (b.bufferLength + 2) (b.bufferLength + 4) = .ok ((got.drop 2).take 2) :=
  h.slice (i := 2) (n := 2) (by simp only [packetHeaderSize] at hgot; omega)

theorem Receiving.checkPacketSize (h : b.Receiving size data got eom) {n : ℕ}
    (hlow : packetHeaderSize ≤ n) (hhigh : n ≤ size)
    (hroom : b.bufferLength + size ≤ b.workingBuffer.length) :
    b.checkPacketSize b.bufferLength n = .ok () := by
  have hmax := h.size_eq
  unfold TdsReadBuffer.checkPacketSize
  rw [if_neg (by omega), if_neg (by omega), if_neg (by omega)]

/-- A packet of which a part is missing is not complete. -/
theorem Receiving.complete_none (h : b.Receiving size data got eom)
    (hroom : b.bufferLength + size ≤ b.workingBuffer.length) (hshort : Unfinished size got) :
    b.completeTdsPacketIfAvailable b.bufferLength got.length = .ok (none, b) := by
  unfold completeTdsPacketIfAvailable
  split
  · rfl
  · rename_i hheader
    obtain ⟨hlow, hhigh, hless⟩ := hshort.resolve_left hheader
    have hlength : ofBe ((got.drop 2).take 2) = lengthField got := rfl
    rw [h.slice_length (by omega)]
    simp only [result_ok_bind, hlength, h.checkPacketSize hlow hhigh hroom, if_pos hless]

/-- A length field that no packet has is refused, however much of the packet is there. -/
theorem Receiving.complete_bad (h : b.Receiving size data got eom) (hbad : BadLength size got) :
    ∃ message, b.completeTdsPacketIfAvailable b.bufferLength got.length
      = .error (.protocolError message) := by
  obtain ⟨hheader, hfield⟩ := hbad
  have hlength : ofBe ((got.drop 2).take 2) = lengthField got := rfl
  unfold completeTdsPacketIfAvailable
  rw [if_neg (by omega), h.slice_length hheader]
  simp only [result_ok_bind, hlength]
  unfold TdsReadBuffer.checkPacketSize
  by_cases hlow : lengthField got < packetHeaderSize
  · rw [if_pos hlow]
    exact ⟨_, rfl⟩
  · have hhigh := hfield.resolve_left hlow
    rw [if_neg hlow, h.size_eq, if_pos hhigh]
    exact ⟨_, rfl⟩

/-- A packet that is there in full has its status behind the length check. -/
theorem Receiving.complete_full (h : b.Receiving size data (p ++ extra) eom)
    (hp : WellFormedPacket size p) (hroom : b.bufferLength + size ≤ b.workingBuffer.length) :
    b.completeTdsPacketIfAvailable b.bufferLength (p ++ extra).length =
      if Acceptable p then
        .ok (some p.length,
          b.finalizePacket b.bufferLength (p ++ extra).length p.length (hasEom p))
      else .error payloadFreeError := by
  have hheader := hp.header
  have hlength : ofBe (((p ++ extra).drop 2).take 2) = p.length :=
    (lengthField_append hheader).trans hp.length
  have hall : (p ++ extra).length = p.length + extra.length := length_append
  have hstatus : b.slice (b.bufferLength + 1) (b.bufferLength + 2) = .ok ((p.drop 1).take 1) := by
    rw [h.slice (i := 1) (n := 1) (by simp only [packetHeaderSize] at hheader; omega)]
    simp only [packetHeaderSize] at hheader
    rw [drop_append_of_le_length (by omega),
      take_append_of_le_length (by rw [length_drop]; omega)]
  have hflag :
      decide (((p.drop 1).take 1).headD 0 &&& PacketStatusFlags.eom.bits ≠ 0) = hasEom p := by
    rcases p with _ | ⟨_, _ | ⟨_, _⟩⟩ <;> rfl
  unfold completeTdsPacketIfAvailable
  rw [if_neg (by omega), h.slice_length (by omega)]
  simp only [result_ok_bind, hlength, h.checkPacketSize hheader hp.fits hroom, hstatus, hflag]
  rw [if_neg (by omega)]
  by_cases hok : Acceptable p
  · rw [if_pos hok, if_neg]
    rintro ⟨hlen, hfalse⟩
    simp [hok hlen] at hfalse
  · rw [if_neg hok, if_pos]
    simpa [Acceptable] using hok

/-- A complete packet stands behind the bytes to read, with the raw bytes `extra` behind it. -/
structure Completed (b : TdsReadBuffer) (size : ℕ) (data p extra : List UInt8) (eom : Bool) : Prop
    extends Holds b size data extra eom where
  room : b.bufferLength + p.length ≤ b.workingBuffer.length
  packet : b.workingBuffer.segment b.bufferLength p.length = p
  beyond : 0 < b.pendingBytes → b.bufferLength + p.length ≤ b.pendingBytesOffset

theorem Receiving.finalizePacket (h : b.Receiving size data (p ++ extra) eom) (eom' : Bool) :
    (b.finalizePacket b.bufferLength (p ++ extra).length p.length eom').Completed size data p extra
      eom' := by
  have hfits := h.fits
  have hgot := h.got_eq
  rw [length_append] at hfits hgot
  rw [segment_add] at hgot
  have hextra : (p ++ extra).length - p.length = extra.length := by simp
  have hsplit := append_inj hgot (by rw [length_segment (by omega)])
  refine { h with
    pending := ?_, behind := ?_, raw_eq := ?_, eom_eq := rfl, room := ?_, packet := hsplit.1,
    beyond := ?_ }
  all_goals simp only [TdsReadBuffer.finalizePacket, hextra]
  · split <;> omega
  · intro hsome
    rw [if_pos hsome]
    omega
  · simp only [parked]
    split
    · exact hsplit.2
    · rename_i hnone
      obtain rfl : extra = [] := length_eq_zero_iff.mp (by omega)
      simp
  · omega
  · intro hsome
    rw [if_pos hsome]

theorem Completed.removeHeaderFromPacket (h : b.Completed size data p extra eom)
    (hheader : packetHeaderSize ≤ p.length) :
    ∃ b', b.removeHeaderFromPacket p.length = .ok b' ∧
      b'.Holds size (data ++ payload p) extra eom := by
  have hroom := h.room
  have hlen := h.length
  have hpos := h.position
  have hpend := h.pending
  simp only [packetHeaderSize] at hheader
  have hsrc : b.bufferLength + p.length - (b.bufferLength + 8) = p.length - 8 := by omega
  have hlength : (b.workingBuffer.copySegment (b.bufferLength + 8) (p.length - 8)
      b.bufferLength).length = b.workingBuffer.length :=
    length_copySegment (by omega) (by omega)
  unfold TdsReadBuffer.removeHeaderFromPacket
  rw [copyWithin_eq_ok (by omega) hroom (by omega), hsrc]
  refine ⟨_, rfl, { h with
    capacity := ?_, position := ?_, length := ?_, pending := ?_, behind := ?_, data_eq := ?_,
    raw_eq := ?_ }⟩
  all_goals dsimp only
  · rw [hlength, h.capacity]
  · omega
  · rw [hlength]
    omega
  · rw [hlength]
    exact hpend
  · intro hsome
    have := h.beyond hsome
    omega
  · -- what was there to read, and the payload moved over the header
    show List.segment b.bufferPosition (b.bufferLength + (p.length - 8) - b.bufferPosition) _ = _
    have hsum : b.bufferLength + (p.length - 8) - b.bufferPosition
        = (b.bufferLength - b.bufferPosition) + (p.length - 8) := by omega
    have hnext : b.bufferPosition + (b.bufferLength - b.bufferPosition) = b.bufferLength := by omega
    have hpacket := h.packet
    have hpayload : b.workingBuffer.segment (b.bufferLength + 8) (p.length - 8) = payload p := by
      rw [payload, packetHeaderSize, ← hpacket, drop_segment, hpacket]
    rw [hsum, segment_add, hnext, segment_copySegment_before (by omega) hlen,
      segment_copySegment_self (by omega) (by omega), hpayload]
    exact congrArg (· ++ payload p) h.data_eq
  · show List.segment b.pendingBytesOffset b.pendingBytes _ = extra
    by_cases hsome : 0 < b.pendingBytes
    · have := h.beyond hsome
      rw [segment_copySegment_after (by omega) (by omega) (by omega)]
      exact h.raw_eq
    · have hnone : b.pendingBytes = 0 := by omega
      rw [← h.raw_eq, parked, hnone, segment_zero, segment_zero]

theorem Receiving.parkPartialPacket (h : b.Receiving size data got eom) :
    (b.parkPartialPacket b.bufferLength got.length).Holds size data got eom :=
  { h with
    pending := h.fits
    behind := fun _ => Nat.le_refl _
    raw_eq := h.got_eq }

/-- A network read appends to the raw bytes. -/
theorem Receiving.receive (h : b.Receiving size data got eom) {bytes : List UInt8}
    (hfits : b.bufferLength + got.length + bytes.length ≤ b.workingBuffer.length) :
    Receiving { b with workingBuffer :=
      b.workingBuffer.overwrite (b.bufferLength + got.length) bytes }
      size data (got ++ bytes) eom := by
  have hlen := h.length
  have hpos := h.position
  have hlength := length_overwrite (l := b.workingBuffer) hfits
  refine { h with
    capacity := ?_, length := ?_, pending := ?_, data_eq := ?_, fits := ?_, got_eq := ?_ }
  all_goals try dsimp only
  · rw [hlength, h.capacity]
  · rw [hlength]
    exact hlen
  · rw [hlength]
    exact h.pending
  · show List.segment b.bufferPosition (b.bufferLength - b.bufferPosition) _ = data
    rw [segment_overwrite_before (by omega) (by omega)]
    exact h.data_eq
  · rw [hlength, length_append]
    omega
  · rw [length_append, segment_add, segment_overwrite_self hfits,
      segment_overwrite_before (Nat.le_refl _) (by omega), h.got_eq]

/-- There is room for more of a packet that is not complete. -/
theorem Receiving.room (h : b.Receiving size data got eom)
    (hroom : b.bufferLength + size ≤ b.workingBuffer.length) (hshort : Unfinished size got) :
    b.bufferLength + got.length < b.workingBuffer.length := by
  have hheader := h.header
  have hsize := h.size_eq
  rcases hshort with hlen | ⟨-, hfits, hlen⟩
  · simp only [packetHeaderSize] at hlen
    omega
  · omega

end TdsReadBuffer

/-! ### Polling -/

def ReadPoll.isReady : ReadPoll → Bool
  | .ready _ => true
  | _ => false

namespace NetworkTransport

/-- The network does not fail, and nobody gives up before all bytes on the wire have come in and the
peer's close after them. -/
structure Delivering (t : NetworkTransport) : Prop where
  connected : t.connected = true
  sound : ∀ message, .failed message ∉ t.polls
  enough : t.wire.length < t.polls.countP ReadPoll.isReady

variable {t : NetworkTransport} {size : ℕ} {data got raw : List UInt8} {eom : Bool}

/-- What the network delivers does not depend on the buffer. -/
theorem Delivering.withBuffer (h : t.Delivering) (b : TdsReadBuffer) :
    Delivering { t with toTdsReadBuffer := b } := ⟨h.connected, h.sound, h.enough⟩

theorem onBuffer_ok {α : Type} {f : TdsReadBuffer → TdsResult (α × TdsReadBuffer)} {a : α}
    {b : TdsReadBuffer} (h : f t.toTdsReadBuffer = .ok (a, b)) :
    onBuffer f t = .ok a { t with toTdsReadBuffer := b } := by
  rw [onBuffer, h]

theorem onBuffer_error {α : Type} {f : TdsReadBuffer → TdsResult (α × TdsReadBuffer)} {e : Error}
    (h : f t.toTdsReadBuffer = .error e) : onBuffer f t = .error e t := by
  rw [onBuffer, h]

theorem changeBuffer_ok {f : TdsReadBuffer → TdsResult TdsReadBuffer} {b : TdsReadBuffer}
    (h : f t.toTdsReadBuffer = .ok b) :
    changeBuffer f t = .ok () { t with toTdsReadBuffer := b } :=
  onBuffer_ok (by rw [h]; rfl)

/-- Buffered bytes are taken without a look at the network. -/
theorem takeAvailable_held (h : t.Holds size data raw eom) (taken : ℕ) {n emptyMessages k : ℕ}
    (hk : min data.length (min n (size - 8)) = k) (hpos : k ≠ 0) :
    ∃ b, takeAvailable taken n emptyMessages t
        = .ok (data.take k) { t with toTdsReadBuffer := b } ∧
      b.Holds size (data.drop k) raw eom := by
  have hle : k ≤ data.length := by omega
  obtain ⟨b, hrun, hb⟩ := h.consumeBytes hle
  have hslice : (fun bytes => (bytes, t.toTdsReadBuffer)) <$>
      t.slice t.bufferPosition (t.bufferPosition + k)
      = (.ok (data.take k, t.toTdsReadBuffer) : TdsResult _) := by
    rw [h.slice hle]
    rfl
  unfold takeAvailable
  rw [bind_ok get_apply]
  simp only [h.remaining, h.size_eq, hk]
  rw [EState.ite_apply, if_neg hpos, bind_ok (onBuffer_ok hslice),
    bind_ok (changeBuffer_ok hrun)]
  exact ⟨b, rfl, hb⟩

/-- A poll into the room behind the bytes received. -/
inductive Polled (t : NetworkTransport) (size : ℕ) (data got : List UInt8) (eom : Bool) :
    EStateM.Result Error NetworkTransport (Option ℕ) → Prop
  | pending {t' : NetworkTransport} (hrecv : t'.Receiving size data got eom)
      (hsame : t'.bufferLength = t.bufferLength)
      (hcap : t'.workingBuffer.length = t.workingBuffer.length)
      (hwire : t'.wire = t.wire) (hless : t'.polls.length < t.polls.length)
      (hmore : t.Delivering → t'.Delivering) : Polled t size data got eom (.ok none t')
  | ready {t' : NetworkTransport} {bytes : List UInt8}
      (hrecv : t'.Receiving size data (got ++ bytes) eom)
      (hsame : t'.bufferLength = t.bufferLength)
      (hcap : t'.workingBuffer.length = t.workingBuffer.length)
      (hwire : bytes ++ t'.wire = t.wire) (hsome : t.wire ≠ [] → bytes ≠ [])
      (hless : t'.polls.length < t.polls.length)
      (hmore : bytes ≠ [] → t.Delivering → t'.Delivering) :
      Polled t size data got eom (.ok (some bytes.length) t')
  | failed {e : Error} {t' : NetworkTransport} (hfail : ¬ t.Delivering)
      (he : ∀ message, e ≠ .panic message) (hbounded : t'.Bounded) :
      Polled t size data got eom (.error e t')

theorem pollRead_polled (h : t.Receiving size data got eom)
    (hspace : t.bufferLength + got.length < t.workingBuffer.length) :
    Polled t size data got eom (pollRead (t.bufferLength + got.length) t) := by
  unfold pollRead
  rw [bind_ok get_apply, EState.ite_apply]
  split
  · rename_i hclosed
    refine .failed ?_ (by simp) h.toBounded
    intro hdel
    rw [hdel.connected] at hclosed
    cases hclosed
  rw [EState.ite_apply, if_neg (by omega)]
  rcases hpolls : t.polls with - | ⟨poll, polls⟩
  · refine .failed ?_ (by simp) h.toBounded
    intro hdel
    have := hdel.enough
    simp [hpolls] at this
  cases poll with
  | pending =>
    refine .pending h rfl rfl rfl (by simp [hpolls]) ?_
    intro hdel
    refine ⟨hdel.connected, fun message hmem => hdel.sound message ?_, ?_⟩
    · rw [hpolls]
      exact mem_cons_of_mem _ hmem
    · have := hdel.enough
      rw [hpolls, countP_cons_of_neg (by simp [ReadPoll.isReady])] at this
      exact this
  | failed message =>
    refine .failed ?_ (by simp) h.toBounded
    intro hdel
    exact hdel.sound message (by simp [hpolls])
  | ready limit =>
    have hone : 0 < min (limit + 1) (t.workingBuffer.length - (t.bufferLength + got.length)) := by
      omega
    generalize hbytes : t.wire.take
      (min (limit + 1) (t.workingBuffer.length - (t.bufferLength + got.length))) = bytes
    have hlen : bytes.length ≤ t.workingBuffer.length - (t.bufferLength + got.length) := by
      rw [← hbytes, length_take]
      omega
    have hfront : bytes ++ t.wire.drop bytes.length = t.wire := by
      rw [← hbytes, length_take, take_eq_take_min, take_append_drop]
    dsimp only
    rw [hbytes]
    refine .ready (h.receive (by omega)) rfl
      (length_overwrite (by omega)) hfront ?_ (by simp [hpolls]) ?_
    · intro hwire hnil
      rw [hnil, take_eq_nil_iff] at hbytes
      rcases hbytes with hzero | hnil'
      · omega
      · exact hwire hnil'
    · intro hsome hdel
      refine ⟨hdel.connected, fun message hmem => hdel.sound message ?_, ?_⟩
      · rw [hpolls]
        exact mem_cons_of_mem _ hmem
      · have henough := hdel.enough
        have hpos : 0 < bytes.length := length_pos_iff.mpr hsome
        have hle : bytes.length ≤ t.wire.length := by
          rw [← hbytes, length_take]
          omega
        rw [hpolls, countP_cons_of_pos (by rfl)] at henough
        simp only [length_drop]
        omega

/-! ### Refills -/

/-- The transport stands for the bytes `data` to read, whether the message ends with them, and the
raw bytes behind. -/
def Carries (t : NetworkTransport) (size : ℕ) (data : List UInt8) (eom : Bool) (raw : List UInt8) :
    Prop :=
  ∃ parked, t.Holds size data parked eom ∧ parked ++ t.wire = raw

/-- Why a refill can fail: the raw bytes do not start with a packet that is accepted, or the network
does not deliver them. -/
inductive RawStops (t : NetworkTransport) (size : ℕ) (raw : List UInt8) : Error → Prop
  | badLength {message : String} (hbad : BadLength size raw) :
      RawStops t size raw (.protocolError message)
  | malformed {p rest : List UInt8} (hraw : raw = p ++ rest) (hp : WellFormedPacket size p)
      (hbad : ¬ Acceptable p) : RawStops t size raw TdsReadBuffer.payloadFreeError
  | closed (hshort : Unfinished size raw) : RawStops t size raw (closedError raw.length)
  | undelivered {e : Error} (hfail : ¬ t.Delivering) (he : ∀ message, e ≠ .panic message) :
      RawStops t size raw e

/-- How receiving a packet ends: the first packet is complete, what there is of it is parked, or the
call fails. -/
inductive RawReceived (awaits : Bool) (t : NetworkTransport) (size : ℕ) (data : List UInt8)
    (eom : Bool)
    (raw : List UInt8) : EStateM.Result Error NetworkTransport (Option ℕ) → Prop
  | packet {p extra : List UInt8} {t' : NetworkTransport} (hraw : raw = p ++ (extra ++ t'.wire))
      (hp : WellFormedPacket size p) (hok : Acceptable p)
      (hdone : t'.Completed size data p extra (hasEom p)) (hmore : t.Delivering → t'.Delivering) :
      RawReceived awaits t size data eom raw (.ok (some p.length) t')
  | parked {t' : NetworkTransport} (hprobe : awaits = false)
      (hcarries : t'.Carries size data eom raw)
      (hmore : t.Delivering → t'.Delivering) : RawReceived awaits t size data eom raw (.ok none t')
  | stopped {e : Error} {t' : NetworkTransport} (hstops : t.RawStops size raw e)
      (hbounded : t'.Bounded) : RawReceived awaits t size data eom raw (.error e t')

theorem RawStops.of_more {t' : NetworkTransport} {e : Error} (h : t'.RawStops size raw e)
    (hmore : t.Delivering → t'.Delivering) : t.RawStops size raw e := by
  cases h with
  | badLength hbad => exact .badLength hbad
  | malformed hraw hp hbad => exact .malformed hraw hp hbad
  | closed hshort => exact .closed hshort
  | undelivered hfail he => exact .undelivered (fun hdel => hfail (hmore hdel)) he

theorem RawReceived.of_more {awaits : Bool} {t' : NetworkTransport}
    {r : EStateM.Result Error NetworkTransport (Option ℕ)}
    (h : RawReceived awaits t' size data eom raw r) (hmore : t.Delivering → t'.Delivering) :
    RawReceived awaits t size data eom raw r := by
  cases h with
  | packet hraw hp hok hdone hmore' =>
    exact .packet hraw hp hok hdone fun hdel => hmore' (hmore hdel)
  | parked hprobe hcarries hmore' => exact .parked hprobe hcarries fun hdel => hmore' (hmore hdel)
  | stopped hstops hbounded => exact .stopped (hstops.of_more hmore) hbounded

theorem receivePacket_raw (awaits : Bool) (fuel : ℕ) (h : t.Receiving size data got eom)
    (hraw : got ++ t.wire = raw) (hroom : t.bufferLength + size ≤ t.workingBuffer.length)
    (hfuel : t.polls.length < fuel) :
    RawReceived awaits t size data eom raw
      (receivePacket awaits t.bufferLength fuel got.length t) := by
  induction fuel generalizing t got with
  | zero => exact absurd hfuel (Nat.not_lt_zero _)
  | succ fuel ih =>
    unfold receivePacket
    rcases raw_cases size got with ⟨p, extra, rfl, hp⟩ | hbad | hshort
    · have hfull := h.complete_full hp hroom
      rw [append_assoc] at hraw
      by_cases hok : Acceptable p
      · rw [if_pos hok] at hfull
        rw [bind_ok (onBuffer_ok hfull)]
        exact .packet hraw.symm hp hok (h.finalizePacket _)
          fun hdel => hdel.withBuffer _
      · rw [if_neg hok] at hfull
        rw [bind_error (onBuffer_error hfull)]
        exact .stopped (.malformed hraw.symm hp hok) h.toBounded
    · obtain ⟨message, hrefused⟩ := h.complete_bad hbad
      rw [bind_error (onBuffer_error hrefused)]
      exact .stopped (.badLength (hraw ▸ hbad.append t.wire)) h.toBounded
    · rw [bind_ok (onBuffer_ok (h.complete_none hroom hshort))]
      dsimp only
      -- the packet is not complete: one more poll
      have hpoll := pollRead_polled h (h.room hroom hshort)
      revert hpoll
      cases hrun : pollRead (t.bufferLength + got.length) t with
      | error e t' =>
        intro hpoll
        rw [bind_error hrun]
        cases hpoll with
        | failed hfail he hbounded => exact .stopped (.undelivered hfail he) hbounded
      | ok bytesRead t' =>
        intro hpoll
        rw [bind_ok hrun]
        cases hpoll with
        | pending hrecv hsame hcap hwire hless hdel =>
          dsimp only
          split
          · rw [← hsame]
            exact (ih hrecv (by rw [hwire]; exact hraw) (by omega) (by omega)).of_more hdel
          · rename_i hprobe
            rw [bind_ok (changeBuffer_ok (f := fun b =>
              .ok (b.parkPartialPacket t.bufferLength got.length)) rfl), ← hsame]
            refine .parked (by simpa using hprobe)
              ⟨got, hrecv.parkPartialPacket, by rw [← hraw, ← hwire]⟩
              fun hdel' => (hdel hdel').withBuffer _
        | @ready _ bytes hrecv hsame hcap hwire hsome hless hdel =>
          dsimp only
          split
          · -- nothing comes in only if the wire is empty, and then the packet stays unfinished
            rename_i hzero
            have hnil : bytes = [] := length_eq_zero_iff.mp hzero
            have hempty : t.wire = [] := by
              by_contra hne
              exact hsome hne hnil
            rw [hempty, append_nil] at hraw
            subst hraw
            exact .stopped (.closed hshort) hrecv.toBounded
          · rename_i hpos
            have hne : bytes ≠ [] := fun hnil => hpos (by rw [hnil]; rfl)
            rw [← hsame, ← length_append]
            refine (ih hrecv ?_ (by omega) (by omega)).of_more (hdel hne)
            rw [append_assoc, hwire, hraw]

/-- Taking up the parked bytes and receiving the rest. -/
theorem newTdsPacket_raw (awaits : Bool) (h : t.Carries size data eom raw)
    (hroom : t.bufferLength + size ≤ t.workingBuffer.length) :
    RawReceived awaits t size data eom raw (newTdsPacket awaits t) := by
  obtain ⟨parked, hparked, hraw⟩ := h
  obtain ⟨b, hmove, hrecv, hlen⟩ := hparked.movePendingPacketBytes
  have hcap : b.workingBuffer.length = t.workingBuffer.length := by
    rw [hrecv.capacity, hparked.capacity, hrecv.size_eq, hparked.size_eq]
  unfold newTdsPacket
  rw [bind_ok get_apply, bind_ok (onBuffer_ok hmove),
    bind_ok get_apply]
  rw [← hlen]
  have hroom' : b.bufferLength + size ≤ b.workingBuffer.length := by omega
  have hreceived := receivePacket_raw (t := { t with toTdsReadBuffer := b }) awaits
    (t.polls.length + 1) hrecv hraw hroom' (Nat.lt_succ_self _)
  exact hreceived.of_more fun hdel => hdel.withBuffer b

/-- Making room keeps what the transport stands for; an empty buffer forgets the end of its message.
-/
theorem makeRoom_carries (h : t.Carries size data eom raw) :
    ∃ t', makeRoom t = .ok () t' ∧ t'.Carries size data (eom && !data.isEmpty) raw ∧
      t'.bufferLength = data.length ∧ (t.Delivering → t'.Delivering) := by
  obtain ⟨parked, hparked, hraw⟩ := h
  have hrem := hparked.remaining
  by_cases hdata : data = []
  · subst hdata
    refine ⟨_, changeBuffer_ok (if_neg (by rw [hrem]; simp)), ⟨parked, ?_, hraw⟩, rfl,
      fun hdel => hdel.withBuffer _⟩
    simpa using hparked.resetToLength
  · obtain ⟨b, hrun, hb, hpos⟩ := hparked.shiftDataToFront
    have hsome : t.getRemainingByteCount > 0 := by
      rw [hrem]
      exact length_pos_iff.mpr hdata
    refine ⟨_, changeBuffer_ok ((if_pos hsome).trans hrun), ⟨parked, ?_, hraw⟩, ?_,
      fun hdel => hdel.withBuffer _⟩
    · have hsome' : data.isEmpty = false := by simpa using hdata
      rw [hsome', Bool.not_false, Bool.and_true]
      exact hb
    · have hlen := hb.remaining
      rw [TdsReadBuffer.getRemainingByteCount, hpos, Nat.sub_zero] at hlen
      exact hlen

theorem Carries.bounded (h : t.Carries size data eom raw) : t.Bounded := by
  obtain ⟨parked, hparked, -⟩ := h
  exact hparked.toBounded

theorem Carries.remaining (h : t.Carries size data eom raw) :
    t.getRemainingByteCount = data.length := by
  obtain ⟨parked, hparked, -⟩ := h
  exact hparked.remaining

theorem Carries.size_eq (h : t.Carries size data eom raw) : t.maxPacketSize = size := by
  obtain ⟨parked, hparked, -⟩ := h
  exact hparked.size_eq

theorem Carries.eom_eq (h : t.Carries size data eom raw) : t.endOfMessage = eom := by
  obtain ⟨parked, hparked, -⟩ := h
  exact hparked.eom_eq

/-- The room there is beside `data` after it has been moved to the front. -/
theorem Carries.room (h : t.Carries size data eom raw) (hlen : t.bufferLength = data.length)
    (hdata : data.length ≤ size) : t.bufferLength + size ≤ t.workingBuffer.length := by
  rw [h.bounded.capacity, h.size_eq, hlen]
  omega

/-- How a refill ends: the payload of the first packet is behind the bytes to read, or the call
fails. -/
inductive RawRefilled (t : NetworkTransport) (size : ℕ) (data raw : List UInt8) :
    EStateM.Result Error NetworkTransport Unit → Prop
  | packet {p rest : List UInt8} {t' : NetworkTransport} (hraw : raw = p ++ rest)
      (hp : WellFormedPacket size p) (hok : Acceptable p)
      (hcarries : t'.Carries size (data ++ payload p) (hasEom p) rest)
      (hmore : t.Delivering → t'.Delivering) : RawRefilled t size data raw (.ok () t')
  | stopped {e : Error} {t' : NetworkTransport} (hstops : t.RawStops size raw e)
      (hbounded : t'.Bounded) : RawRefilled t size data raw (.error e t')

/-- Receiving a packet once there is room for it: the header comes off a packet that is complete. -/
theorem receive_raw (awaits : Bool) (h : t.Carries size data eom raw) (hdata : data.length ≤ size) :
    ∃ t₁, makeRoom t = .ok () t₁ ∧
      ((∃ n t₂ t₃, newTdsPacket awaits t₁ = .ok (some n) t₂ ∧
          changeBuffer (fun b => b.removeHeaderFromPacket n) t₂ = .ok () t₃ ∧
          RawRefilled t size data raw (.ok () t₃)) ∨
        (∃ t₂, newTdsPacket awaits t₁ = .ok none t₂ ∧ awaits = false ∧
          t₂.Carries size data (eom && !data.isEmpty) raw) ∨
        ∃ e t₂, newTdsPacket awaits t₁ = .error e t₂ ∧ t.RawStops size raw e ∧ t₂.Bounded) := by
  obtain ⟨t₁, hroom, hcarries, hlen, hmore⟩ := makeRoom_carries h
  have hrecv := newTdsPacket_raw awaits hcarries (hcarries.room hlen hdata)
  refine ⟨t₁, hroom, ?_⟩
  generalize newTdsPacket awaits t₁ = r at hrecv
  cases hrecv with
  | @packet p extra t₂ hraw hp hok hdone hmore₂ =>
    obtain ⟨b, hremove, hb⟩ := hdone.removeHeaderFromPacket hp.header
    exact .inl ⟨p.length, t₂, _, rfl, changeBuffer_ok hremove, .packet hraw hp hok ⟨extra, hb, rfl⟩
      fun hdel => (hmore₂ (hmore hdel)).withBuffer b⟩
  | parked hprobe hcarries _ => exact .inr (.inl ⟨_, rfl, hprobe, hcarries⟩)
  | stopped hstops hbounded => exact .inr (.inr ⟨_, _, rfl, hstops.of_more hmore, hbounded⟩)

theorem readTdsPacket_raw (h : t.Carries size data eom raw) (hdata : data.length ≤ size) :
    RawRefilled t size data raw (readTdsPacket t) := by
  unfold readTdsPacket getNewTdsPacket
  obtain ⟨t₁, hroom, hrecv⟩ := receive_raw true h hdata
  rw [bind_ok hroom]
  rcases hrecv with ⟨n, t₂, t₃, hrun, hremove, hrefilled⟩ | ⟨_, -, hprobe, -⟩ |
    ⟨e, t₂, hrun, hstops, hbounded⟩
  · rw [bind_ok (show (newTdsPacket true >>= _) t₁ = .ok n t₂ from bind_ok hrun),
      hremove]
    exact hrefilled
  · cases hprobe
  · rw [bind_error (bind_error hrun)]
    exact .stopped hstops hbounded

/-- The non-blocking refill appends a packet or leaves what the transport stands for alone. -/
theorem tryReadTdsPacket_raw (h : t.Carries size data eom raw) :
    (∃ t', tryReadTdsPacket t = .ok true t' ∧ RawRefilled t size data raw (.ok () t')) ∨
      (∃ t', tryReadTdsPacket t = .ok false t' ∧ t'.Carries size data eom raw) ∨
      ∃ e t', tryReadTdsPacket t = .error e t' ∧ t.RawStops size raw e ∧ t'.Bounded := by
  unfold tryReadTdsPacket tryGetNewTdsPacket
  rw [bind_ok get_apply, EState.ite_apply, EState.ite_apply]
  split_ifs with heom hfull
  · exact .inr (.inl ⟨t, rfl, h⟩)
  · exact .inr (.inl ⟨t, rfl, h⟩)
  obtain rfl : eom = false := by simpa [h.eom_eq] using heom
  have hdata : data.length ≤ size := by
    rw [h.remaining, h.bounded.capacity, h.size_eq] at hfull
    omega
  obtain ⟨t₁, hroom, hrecv⟩ := receive_raw false h hdata
  rw [bind_ok hroom]
  rcases hrecv with ⟨n, t₂, t₃, hrun, hremove, hrefilled⟩ | ⟨t₂, hrun, -, hcarries⟩ |
    ⟨e, t₂, hrun, hstops, hbounded⟩
  · rw [bind_ok hrun]
    dsimp only
    rw [bind_ok hremove]
    exact .inl ⟨t₃, rfl, hrefilled⟩
  · rw [bind_ok hrun]
    exact .inr (.inl ⟨t₂, rfl, by simpa using hcarries⟩)
  · rw [bind_error hrun]
    exact .inr (.inr ⟨e, t₂, rfl, hstops, hbounded⟩)

end NetworkTransport

end MssqlTds
