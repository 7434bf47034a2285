import MssqlTds.Transport.ReaderAgreement

/-!
# The bulk readers

A bulk reader fills a slice or passes over as many bytes, in rounds: it refills if the buffer has
less than a window of what is left to read, and takes what there is.  The reader that fills a slice
has the packet size for its window and the one that skips the payload of a packet, so at a full
packet the first one refills before it takes the packet's bytes and the second one after it.

`ByteQueue.fetch` is the read without rounds and without a window: refill until all the bytes are
there. `bulkLoop_fetched` says that the rounds come to the same with every window that is not larger
than a packet, whatever the raw bytes are, and `skip_agrees_with_read` compares the two readers.
-/

namespace MssqlTds

open Bytes PacketWriter EState List

inductive ReadFailure where
  | connectionClosed
  | protocolError
  deriving DecidableEq, Repr

def ReadFailure.Shown : ReadFailure → Error → Prop
  | .connectionClosed, e => ∃ message, e = .connectionClosed message
  | .protocolError, e => ∃ message, e = .protocolError message

theorem ReadFailure.Shown.sameKind {f : ReadFailure} {e₁ e₂ : Error} (h₁ : f.Shown e₁)
    (h₂ : f.Shown e₂) : e₁.SameKind e₂ := by
  cases f with
  | connectionClosed | protocolError =>
    obtain ⟨-, rfl⟩ := h₁
    obtain ⟨-, rfl⟩ := h₂
    rfl

/-! ### The first packet of raw bytes -/

section SplitPacket

variable {size : ℕ} {raw p rest : List UInt8}

/-- The first packet and the bytes behind it. -/
def splitPacket (size : ℕ) (raw : List UInt8) : Except ReadFailure (List UInt8 × List UInt8) :=
  if raw.length < packetHeaderSize then .error .connectionClosed
  else if lengthField raw < packetHeaderSize ∨ size < lengthField raw then .error .protocolError
  else if raw.length < lengthField raw then .error .connectionClosed
  else if Acceptable (raw.take (lengthField raw)) then
    .ok (raw.take (lengthField raw), raw.drop (lengthField raw))
  else .error .protocolError

theorem splitPacket_append (hp : WellFormedPacket size p) :
    splitPacket size (p ++ rest)
      = if Acceptable p then .ok (p, rest) else .error .protocolError := by
  have hlow := hp.header
  have hhigh := hp.fits
  have hlen : (p ++ rest).length = p.length + rest.length := length_append
  rw [splitPacket, lengthField_append hlow, hp.length, if_neg (by omega), if_neg (by omega),
    if_neg (by omega), take_left, drop_left]

theorem splitPacket_badLength (h : BadLength size raw) :
    splitPacket size raw = .error .protocolError := by
  rw [splitPacket, if_neg (Nat.not_lt.mpr h.1), if_pos h.2]

theorem splitPacket_unfinished (h : Unfinished size raw) :
    splitPacket size raw = .error .connectionClosed := by
  unfold splitPacket
  split
  · rfl
  · rename_i hheader
    obtain ⟨hlow, hhigh, hshort⟩ := h.resolve_left hheader
    rw [if_neg (by omega), if_pos hshort]

theorem splitPacket_eq_ok (h : splitPacket size raw = .ok (p, rest)) :
    raw = p ++ rest ∧ WellFormedPacket size p ∧ Acceptable p := by
  rcases raw_cases size raw with ⟨p', rest', rfl, hp⟩ | hbad | hshort
  · rw [splitPacket_append hp] at h
    split at h
    · rename_i hok
      cases h
      exact ⟨rfl, hp, hok⟩
    · cases h
  · rw [splitPacket_badLength hbad] at h
    cases h
  · rw [splitPacket_unfinished hshort] at h
    cases h

theorem length_lt_of_splitPacket (h : splitPacket size raw = .ok (p, rest)) :
    rest.length < raw.length := by
  obtain ⟨rfl, hp, -⟩ := splitPacket_eq_ok h
  have hlow := hp.header
  simp only [packetHeaderSize] at hlow
  rw [length_append]
  omega

end SplitPacket

/-! ### A read without rounds -/

/-- A transport without its buffer: the bytes to read, whether the message ends with them, and the
raw bytes behind. -/
structure ByteQueue where
  data : List UInt8
  eom : Bool
  raw : List UInt8
  deriving DecidableEq, Repr

namespace ByteQueue

/-- Refill until `n` bytes are there, and take them.  `started` says that the value has begun before
them: then, and once some of them are there, the message must not end. -/
def fetch (size n : ℕ) (started : Bool) (emptyMessages : ℕ) (q : ByteQueue) :
    Except ReadFailure (List UInt8 × ByteQueue) :=
  if n ≤ q.data.length then .ok (q.data.take n, { q with data := q.data.drop n })
  else if q.eom && (started || !q.data.isEmpty) then .error .protocolError
  else
    match _hsplit : splitPacket size q.raw with
    | .error f => .error f
    | .ok (p, rest) =>
      if q.data ++ payload p = [] then
        if started || emptyMessages + 1 > NetworkTransport.maxConsecutiveEmptyMessages then
          .error .protocolError
        else fetch size n started (emptyMessages + 1) ⟨[], hasEom p, rest⟩
      else fetch size n started emptyMessages ⟨q.data ++ payload p, hasEom p, rest⟩
termination_by q.raw.length
decreasing_by all_goals exact length_lt_of_splitPacket _hsplit

variable {size n k emptyMessages : ℕ} {started : Bool} {q : ByteQueue} {p rest : List UInt8}

theorem fetch_enough (h : n ≤ q.data.length) :
    fetch size n started emptyMessages q
      = .ok (q.data.take n, { q with data := q.data.drop n }) := by
  rw [fetch, if_pos h]

theorem fetch_truncated (h : q.data.length < n)
    (heom : (q.eom && (started || !q.data.isEmpty)) = true) :
    fetch size n started emptyMessages q = .error .protocolError := by
  rw [fetch, if_neg (Nat.not_le.mpr h), if_pos heom]

/-- A refill, if there are not enough bytes and the message may go on. -/
theorem fetch_refill (h : q.data.length < n)
    (heom : (q.eom && (started || !q.data.isEmpty)) = false) :
    fetch size n started emptyMessages q
      = match splitPacket size q.raw with
        | .error f => .error f
        | .ok (p, rest) =>
          if q.data ++ payload p = [] then
            if started || emptyMessages + 1 > NetworkTransport.maxConsecutiveEmptyMessages then
              .error .protocolError
            else fetch size n started (emptyMessages + 1) ⟨[], hasEom p, rest⟩
          else fetch size n started emptyMessages ⟨q.data ++ payload p, hasEom p, rest⟩ := by
  rw [fetch, if_neg (Nat.not_le.mpr h), if_neg (by rw [heom]; exact Bool.false_ne_true)]
  split
  all_goals
    rename_i hsplit
    rw [hsplit]

/-- **Bytes that are there can be taken first.**  The rest of the value has started then. -/
theorem fetch_take (hk : 0 < k) (hdata : k ≤ q.data.length) (hn : k ≤ n) (emptyMessages' : ℕ) :
    fetch size n started emptyMessages q
      = (fun r => (q.data.take k ++ r.1, r.2)) <$>
          fetch size (n - k) true emptyMessages' { q with data := q.data.drop k } := by
  -- along the refills: the raw bytes get fewer, and the bytes to take stay in front
  induction hraw : q.raw.length using Nat.strong_induction_on generalizing q with
  | _ m ih =>
    have hlen : (q.data.drop k).length = q.data.length - k := length_drop
    have hsome : q.data ≠ [] := by
      intro hnil
      rw [hnil] at hdata
      exact absurd hdata (Nat.not_le.mpr hk)
    by_cases henough : n ≤ q.data.length
    · rw [fetch_enough henough, fetch_enough (by rw [hlen]; omega)]
      have htake : q.data.take n = q.data.take k ++ (q.data.drop k).take (n - k) := by
        rw [← take_add]
        congr 1
        omega
      have hdrop : q.data.drop n = (q.data.drop k).drop (n - k) := by
        rw [drop_drop]
        congr 1
        omega
      rw [htake, hdrop]
      rfl
    have hmore : q.data.length < n := Nat.not_le.mp henough
    have hmore' : (q.data.drop k).length < n - k := by
      omega
    by_cases heom : q.eom = true
    · rw [fetch_truncated hmore (by simp [heom, hsome]),
        fetch_truncated (q := { q with data := q.data.drop k }) hmore' (by simp [heom])]
      rfl
    · rw [fetch_refill hmore (by simp [heom]),
        fetch_refill (q := { q with data := q.data.drop k }) hmore' (by simp [heom])]
      cases hsplit : splitPacket size q.raw with
      | error f => rfl
      | ok split =>
        obtain ⟨p, rest⟩ := split
        have hless := length_lt_of_splitPacket hsplit
        dsimp only
        rw [if_neg (by simp [hsome])]
        by_cases hempty : q.data.drop k ++ payload p = []
        · -- all that is there has been taken, and the message ends with an empty packet
          obtain ⟨hall, hpayload⟩ := append_eq_nil_iff.mp hempty
          obtain ⟨-, hp, hok⟩ := splitPacket_eq_ok hsplit
          have heom' := PacketQueue.hasEom_of_empty hok hp.header hpayload
          rw [if_pos hempty, hpayload, append_nil, heom',
            fetch_truncated (q := ⟨q.data, true, rest⟩) hmore (by simp [hsome])]
          rfl
        · have hfront : (q.data ++ payload p).take k = q.data.take k :=
            take_append_of_le_length hdata
          have hback : (q.data ++ payload p).drop k = q.data.drop k ++ payload p :=
            drop_append_of_le_length hdata
          rw [if_neg hempty, ← hfront, ← hback]
          refine ih rest.length (by rw [← hraw]; exact hless) ?_ rfl
          simp only [length_append]
          omega

end ByteQueue

/-! ### The rounds -/

namespace NetworkTransport

variable {t : NetworkTransport} {size : ℕ} {q : ByteQueue} {taken : List UInt8}

/-- The transport stands for the queue, and the network delivers the rest of it. -/
structure Feeds (t : NetworkTransport) (size : ℕ) (q : ByteQueue) : Prop where
  carries : t.Carries size q.data q.eom q.raw
  delivering : t.Delivering

/-- The result of a bulk read that has taken some bytes before, and the one on its queue. -/
inductive Fetched (size : ℕ) (taken : List UInt8) :
    EStateM.Result Error NetworkTransport (List UInt8) →
      Except ReadFailure (List UInt8 × ByteQueue) → Prop
  | ok {bytes : List UInt8} {t' : NetworkTransport} {q' : ByteQueue} (h : t'.Feeds size q') :
      Fetched size taken (.ok (taken ++ bytes) t') (.ok (bytes, q'))
  | error {e : Error} {t' : NetworkTransport} {f : ReadFailure} (h : f.Shown e) :
      Fetched size taken (.error e t') (.error f)

theorem RawStops.shown {e : Error} {raw : List UInt8} (h : t.RawStops size raw e)
    (hdel : t.Delivering) :
    ∃ f, splitPacket size raw = .error f ∧ f.Shown e := by
  cases h with
  | badLength hbad => exact ⟨_, splitPacket_badLength hbad, _, rfl⟩
  | malformed hraw hp hbad =>
    exact ⟨.protocolError, by rw [hraw, splitPacket_append hp, if_neg hbad], _, rfl⟩
  | closed hshort => exact ⟨_, splitPacket_unfinished hshort, _, rfl⟩
  | undelivered hfail => exact absurd hdel hfail

/-- A refill puts the payload of the first packet behind the bytes to read, or fails where there is
no such packet. -/
theorem Feeds.readTdsPacket (h : t.Feeds size q) (hdata : q.data.length ≤ size) :
    (∃ p rest t', splitPacket size q.raw = .ok (p, rest) ∧ readTdsPacket t = .ok () t' ∧
      t'.Feeds size ⟨q.data ++ payload p, hasEom p, rest⟩) ∨
    ∃ f e t', splitPacket size q.raw = .error f ∧ NetworkTransport.readTdsPacket t = .error e t' ∧
      f.Shown e := by
  have hrefilled := readTdsPacket_raw h.carries hdata
  revert hrefilled
  cases NetworkTransport.readTdsPacket t with
  | ok u t' =>
    intro hrefilled
    cases hrefilled with
    | packet hraw hp hok hcarries hmore =>
      exact .inl ⟨_, _, t', by rw [hraw, splitPacket_append hp, if_pos hok], rfl,
        ⟨hcarries, hmore h.delivering⟩⟩
  | error e t' =>
    intro hrefilled
    cases hrefilled with
    | stopped hstops =>
      obtain ⟨f, hsplit, hshown⟩ := hstops.shown h.delivering
      exact .inr ⟨f, e, t', hsplit, rfl, hshown⟩

/-- Bytes that are there are taken. -/
theorem Feeds.takeAvailable (h : t.Feeds size q) (count : ℕ) {n emptyMessages k : ℕ}
    (hk : min q.data.length (min n (size - 8)) = k) (hpos : 0 < k) :
    ∃ t', takeAvailable count n emptyMessages t = .ok (q.data.take k) t' ∧
      t'.Feeds size { q with data := q.data.drop k } := by
  obtain ⟨parked, hparked, hraw⟩ := h.carries
  obtain ⟨b, hrun, hb⟩ := takeAvailable_held hparked count hk hpos.ne'
  exact ⟨_, hrun, ⟨parked, hb, hraw⟩, h.delivering.withBuffer b⟩

/-- There is nothing to take in an empty message. -/
theorem Feeds.takeAvailable_empty (h : t.Feeds size q) {count n emptyMessages : ℕ}
    (hdata : q.data = [])
    (heom : q.eom = true) :
    NetworkTransport.takeAvailable count n emptyMessages t
      = if count > 0 then .error (pastEndOfMessageError n 0) t
        else if emptyMessages + 1 > maxConsecutiveEmptyMessages then
          .error (stalledOnEmptyMessagesError n) t
        else .ok [] t := by
  unfold NetworkTransport.takeAvailable
  rw [bind_ok get_apply]
  simp only [h.carries.remaining, h.carries.eom_eq, hdata, heom, length_nil, Nat.zero_min, if_true,
    Bool.true_eq_false, if_false]
  split
  · rfl
  · split <;> rfl

theorem Fetched.prepend {bytes : List UInt8}
    {r : EStateM.Result Error NetworkTransport (List UInt8)}
    {r' : Except ReadFailure (List UInt8 × ByteQueue)} (h : Fetched size (taken ++ bytes) r r') :
    Fetched size taken r ((fun s => (bytes ++ s.1, s.2)) <$> r') := by
  cases h with
  | ok hfeeds =>
    rw [append_assoc]
    exact .ok hfeeds
  | error hshown => exact .error hshown

section Rounds

variable {window fuel n emptyMessages : ℕ}

/-- What is left of a round once the buffer is refilled, and the rounds after it. -/
def afterRefill (window fuel : ℕ) (taken : List UInt8) (n emptyMessages : ℕ) :
    TransportM (List UInt8) :=
  takeAvailable taken.length n emptyMessages >>= fun bytes =>
    bulkLoop window fuel (taken ++ bytes) (n - bytes.length)
      (if bytes = [] then emptyMessages + 1 else emptyMessages)

theorem bulkLoop_eq (hn : 0 < n) (h : t.Feeds size q) :
    bulkLoop window (fuel + 1) taken n emptyMessages t
      = if q.data.length < n ∧ (q.eom && (!taken.isEmpty || !q.data.isEmpty)) = true then
          .error (pastEndOfMessageError n q.data.length) t
        else (refillBelow (min window n) >>=
          fun _ => afterRefill window fuel taken n emptyMessages) t := by
  obtain ⟨n, rfl⟩ : ∃ m, n = m + 1 := ⟨n - 1, by omega⟩
  have htrunc : t.valueTruncatedByMessageEnd (taken.length > 0) (n + 1) = true ↔
      q.data.length < n + 1 ∧ (q.eom && (!taken.isEmpty || !q.data.isEmpty)) = true := by
    simp only [valueTruncatedByMessageEnd, h.carries.remaining, h.carries.eom_eq, Bool.and_eq_true,
      Bool.or_eq_true, decide_eq_true_iff, gt_iff_lt, length_pos_iff, Bool.not_eq_true',
      isEmpty_eq_false_iff]
    tauto
  rw [bulkLoop, bind_apply, bulkRound, bind_ok get_apply, EState.ite_apply]
  by_cases hcut : t.valueTruncatedByMessageEnd (taken.length > 0) (n + 1) = true
  · rw [if_pos hcut, if_pos (htrunc.mp hcut), h.carries.remaining]
    rfl
  · rw [if_neg hcut, if_neg (fun hyp => hcut (htrunc.mpr hyp)), ← bind_apply, bind_assoc]
    rfl

/-- **A round.**  The rounds from a refilled buffer come to a fetch, if those after it do. -/
theorem afterRefill_fetched (hsize : 8 < size) (h : t.Feeds size q) (hn : 0 < n)
    (hnew : q.data = [] → q.eom = true)
    (hfuel : n + (maxConsecutiveEmptyMessages - emptyMessages) ≤ fuel + 1)
    (ih : ∀ {taken n emptyMessages} {t : NetworkTransport} {q : ByteQueue}, t.Feeds size q →
      n + (maxConsecutiveEmptyMessages - emptyMessages) ≤ fuel →
      Fetched size taken (bulkLoop window fuel taken n emptyMessages t)
        (ByteQueue.fetch size n (!taken.isEmpty) emptyMessages q)) :
    Fetched size taken (afterRefill window fuel taken n emptyMessages t)
      (if q.data = [] then
        if !taken.isEmpty || emptyMessages + 1 > maxConsecutiveEmptyMessages then
          .error .protocolError
        else ByteQueue.fetch size n (!taken.isEmpty) (emptyMessages + 1) q
      else ByteQueue.fetch size n (!taken.isEmpty) emptyMessages q) := by
  unfold afterRefill
  by_cases hdata : q.data = []
  · rw [if_pos hdata, bind_apply, h.takeAvailable_empty hdata (hnew hdata)]
    by_cases hstarted : taken.length > 0
    · have hsome : taken ≠ [] := length_pos_iff.mp hstarted
      rw [if_pos hstarted, if_pos (by simp [hsome])]
      exact .error ⟨_, rfl⟩
    obtain rfl : taken = [] := length_eq_zero_iff.mp (by omega)
    rw [if_neg hstarted]
    by_cases hstall : emptyMessages + 1 > maxConsecutiveEmptyMessages
    · rw [if_pos hstall, if_pos (by simpa using hstall)]
      exact .error ⟨_, rfl⟩
    · rw [if_neg hstall, if_neg (by simpa using hstall)]
      dsimp only
      rw [if_pos rfl]
      exact ih h (by rw [length_nil]; omega)
  · have hlen : 0 < q.data.length := length_pos_iff.mpr hdata
    obtain ⟨k, hk⟩ : ∃ k, min q.data.length (min n (size - 8)) = k := ⟨_, rfl⟩
    have hpos : 0 < k := by omega
    have htaken : (q.data.take k).length = k := by
      rw [length_take]
      omega
    have hsome : q.data.take k ≠ [] := by
      rw [← length_pos_iff]
      omega
    obtain ⟨t', hrun, hfeeds⟩ := h.takeAvailable taken.length hk hpos
    rw [if_neg hdata, bind_ok hrun, if_neg hsome, htaken,
      ByteQueue.fetch_take hpos (by omega) (by omega) emptyMessages]
    have hstarted : (!(taken ++ q.data.take k).isEmpty) = true := by simp [hsome]
    rw [← hstarted]
    exact (ih hfeeds (by omega)).prepend

/-- **The rounds come to a fetch**, with every window between one byte and a packet. -/
theorem bulkLoop_fetched (hsize : 8 < size) (hwindow : 0 < window) (hfits : window ≤ size)
    (h : t.Feeds size q) (hfuel : n + (maxConsecutiveEmptyMessages - emptyMessages) ≤ fuel) :
    Fetched size taken (bulkLoop window fuel taken n emptyMessages t)
      (ByteQueue.fetch size n (!taken.isEmpty) emptyMessages q) := by
  have hdone (fuel : ℕ) (taken : List UInt8) (emptyMessages : ℕ) (t : NetworkTransport) :
      bulkLoop window fuel taken 0 emptyMessages t = .ok (taken ++ []) t := by
    rw [append_nil]
    cases fuel <;> rfl
  induction fuel generalizing taken n emptyMessages t q with
  | zero =>
    obtain rfl : n = 0 := by omega
    rw [ByteQueue.fetch_enough (Nat.zero_le _), hdone]
    exact .ok h
  | succ fuel ih =>
    cases n with
    | zero =>
      rw [ByteQueue.fetch_enough (Nat.zero_le _), hdone]
      exact .ok h
    | succ n =>
      rw [bulkLoop_eq (Nat.succ_pos n) h]
      by_cases hcut : q.data.length < n + 1 ∧ (q.eom && (!taken.isEmpty || !q.data.isEmpty)) = true
      · rw [if_pos hcut, ByteQueue.fetch_truncated hcut.1 hcut.2]
        exact .error ⟨_, rfl⟩
      rw [if_neg hcut, bind_apply, refillBelow, bind_ok get_apply,
        TdsReadBuffer.doWeHaveEnoughData, h.carries.remaining, EState.ite_apply]
      by_cases henough : min window (n + 1) ≤ q.data.length
      · -- the buffer has a window of the bytes: nothing is refilled
        have hdata : q.data ≠ [] := by
          rw [← length_pos_iff]
          omega
        rw [if_neg (by rw [decide_eq_true henough]; simp)]
        have hround : Fetched size taken _ _ := afterRefill_fetched hsize h (Nat.succ_pos n)
          (fun hnil => absurd hnil hdata) hfuel ih
        rwa [if_neg hdata] at hround
      · have hshort : q.data.length < n + 1 := by omega
        have hopen : (q.eom && (!taken.isEmpty || !q.data.isEmpty)) = false := by
          rw [← Bool.not_eq_true]
          exact fun htrue => hcut ⟨hshort, htrue⟩
        rw [if_pos (by rw [decide_eq_false henough]; rfl)]
        rcases h.readTdsPacket (by omega) with
          ⟨p, rest, t', hsplit, hrun, hfeeds⟩ | ⟨f, e, t', hsplit, hrun, hshown⟩
        · rw [hrun, ByteQueue.fetch_refill hshort hopen, hsplit]
          dsimp only
          obtain ⟨-, hp, hok⟩ := splitPacket_eq_ok hsplit
          have hnew : q.data ++ payload p = [] → hasEom p = true := fun hnil =>
            PacketQueue.hasEom_of_empty hok hp.header (append_eq_nil_iff.mp hnil).2
          have hround : Fetched size taken _ _ :=
            afterRefill_fetched hsize hfeeds (Nat.succ_pos n) hnew hfuel ih
          by_cases hempty : q.data ++ payload p = []
          · rw [if_pos hempty] at hround ⊢
            rwa [hempty] at hround
          · rwa [if_neg hempty] at hround ⊢
        · rw [hrun, ByteQueue.fetch_refill hshort hopen, hsplit]
          exact .error hshown

end Rounds

/-! ### Skipping and reading -/

/-- Every transport stands for some queue. -/
theorem carries_of_bounded (h : t.Bounded) :
    t.Carries t.maxPacketSize t.buffered t.endOfMessage (t.parked ++ t.wire) :=
  ⟨t.parked, { h with size_eq := rfl, data_eq := rfl, raw_eq := rfl, eom_eq := rfl }, rfl⟩

/-- Both succeed and leave the same bytes to read, with the same message end behind them, and the
same raw bytes, or both fail with errors of the same kind. -/
inductive SameOutcome : EStateM.Result Error NetworkTransport Unit →
    EStateM.Result Error NetworkTransport Unit → Prop
  | ok {t₁ t₂ : NetworkTransport} {size : ℕ} {data raw : List UInt8} {eom : Bool}
      (h₁ : t₁.Carries size data eom raw) (h₂ : t₂.Carries size data eom raw) :
      SameOutcome (.ok () t₁) (.ok () t₂)
  | error {e₁ e₂ : Error} {t₁ t₂ : NetworkTransport} (h : e₁.SameKind e₂) :
      SameOutcome (.error e₁ t₁) (.error e₂ t₂)

/-- Fill a slice and discard it. -/
def readAndDiscard (length : ℕ) : TransportM Unit := (fun _ => ()) <$> readBytes length

/-- Two bulk reads that come to the same fetch have the same outcome. -/
theorem Fetched.sameOutcome {m₁ m₂ : TransportM (List UInt8)}
    {r : Except ReadFailure (List UInt8 × ByteQueue)} (h₁ : Fetched size taken (m₁ t) r)
    (h₂ : Fetched size taken (m₂ t) r) :
    SameOutcome (((fun _ => ()) <$> m₁) t) (((fun _ => ()) <$> m₂) t) := by
  rw [map_apply, map_apply]
  generalize m₁ t = r₁ at h₁
  generalize m₂ t = r₂ at h₂
  cases h₁ with
  | ok hfeeds₁ =>
    cases h₂ with
    | ok hfeeds₂ => exact .ok hfeeds₁.carries hfeeds₂.carries
  | error hshown₁ =>
    cases h₂ with
    | error hshown₂ => exact .error (hshown₁.sameKind hshown₂)

end NetworkTransport

open NetworkTransport in
/-- **Skipping bytes has the outcome of reading and discarding them**, whatever the raw bytes are
and however they come in. -/
theorem skip_agrees_with_read {t : NetworkTransport} (hbounded : t.Bounded)
    (hsize : 8 < t.maxPacketSize) (hdel : t.Delivering) (n : ℕ) :
    SameOutcome (NetworkTransport.skipBytes n t) (readAndDiscard n t) := by
  have hfeeds : t.Feeds t.maxPacketSize ⟨t.buffered, t.endOfMessage, t.parked ++ t.wire⟩ :=
    ⟨carries_of_bounded hbounded, hdel⟩
  have hfuel : n + (maxConsecutiveEmptyMessages - 0) ≤ n + 1 := Nat.le_refl _
  -- both come to the same fetch
  refine @Fetched.sameOutcome t t.maxPacketSize [] _ _
    (ByteQueue.fetch t.maxPacketSize n false 0
      ⟨t.buffered, t.endOfMessage, t.parked ++ t.wire⟩) ?_ ?_
  · unfold skippedBytes
    exact bulkLoop_fetched hsize (by omega) (by omega) hfeeds hfuel
  · unfold NetworkTransport.readBytes
    exact bulkLoop_fetched hsize (by omega) (by omega) hfeeds hfuel

open NetworkTransport in
/-- Three bytes in two packets, which come in byte by byte. -/
theorem skip_agrees_with_read_split :
    SameOutcome (NetworkTransport.skipBytes 3 (start 16 splitPackets splitPolls))
      (readAndDiscard 3 (start 16 splitPackets splitPolls)) :=
  skip_agrees_with_read (start_stands (by decide) splitPackets_wellFormed splitPolls).bounded
    (by decide) (splitPolls_delivering (by decide)) 3

end MssqlTds
