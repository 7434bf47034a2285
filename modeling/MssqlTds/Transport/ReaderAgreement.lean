import MssqlTds.Transport.PacketQueue

/-!
# Scalar readers and bulk readers

A value of at most eight bytes can be read by a scalar reader or by a bulk reader into a slice.
Both fail at a message that ends in the middle of the value, and both pass over the payload-free
packet that ends the message before it.  They differ in how many of these they pass over: a bulk
reader gives up at the second one.

`readers_agree_iff` says exactly when the two have the same outcome.
-/

namespace MssqlTds

open Bytes PacketWriter EState List

/-- The two errors are of the same variant. -/
def Error.SameKind (e e' : Error) : Prop := e.ctorIdx = e'.ctorIdx

instance (e e' : Error) : Decidable (e.SameKind e') := inferInstanceAs (Decidable (_ = _))

/-- A payload-free packet that ends its message. -/
def isEmptyMessage (p : List UInt8) : Bool := p.length = packetHeaderSize && hasEom p

/-- The message ends, or breaks, before `needed` bytes of payload. -/
def fallsShort : ℕ → List (List UInt8) → Bool
  | _, [] => false
  | needed, p :: ps =>
    !decide (Acceptable p) ||
      (decide ((payload p).length < needed) &&
        (hasEom p || fallsShort (needed - (payload p).length) ps))

/-- The read starts at the end of a message and the next two messages are empty, and then the bytes
come, or the connection is closed. -/
def StallsBulk (needed : ℕ) (q : PacketQueue) : Prop :=
  q.data = [] ∧ (q.packets.take 2).length = 2 ∧ (∀ p ∈ q.packets.take 2, isEmptyMessage p = true) ∧
    fallsShort needed (q.packets.dropWhile isEmptyMessage) = false

namespace PacketQueue

/-! ### One round of each reader -/

variable {width fuel need emptyMessages size : ℕ} {taken data : List UInt8} {eom : Bool}
  {packets : List (List UInt8)}

theorem readArrayLoop_enough (h : width ≤ data.length) :
    readArrayLoop width (fuel + 1) ⟨data, eom, packets⟩
      = .ok (data.take width) ⟨data.drop width, eom, packets⟩ := by
  unfold readArrayLoop
  rw [bind_ok get_apply, if_pos h]
  rfl

theorem readArrayLoop_truncated (h : data.length < width) (hdata : data ≠ []) :
    readArrayLoop width (fuel + 1) ⟨data, true, packets⟩
      = .error (pastEndOfMessageError width data.length) ⟨data, true, packets⟩ := by
  have hpos : 0 < data.length := length_pos_iff.mpr hdata
  unfold readArrayLoop
  rw [bind_ok get_apply, if_neg (by simpa using h)]
  refine bind_error ?_
  unfold refillFor
  rw [bind_ok get_apply, if_pos (by simp [truncated, hpos, h])]
  rfl

theorem readArrayLoop_refill (h : data.length < width) (hrefill : data = [] ∨ eom = false) :
    readArrayLoop width (fuel + 1) ⟨data, eom, packets⟩ = match packets with
      | [] => .error (NetworkTransport.closedError 0) ⟨data, eom, packets⟩
      | p :: ps => if Acceptable p
        then readArrayLoop width fuel ⟨data ++ payload p, hasEom p, ps⟩
        else .error TdsReadBuffer.payloadFreeError ⟨data, eom, packets⟩ := by
  have htrunc : truncated ⟨data, eom, packets⟩ false width = false := by
    rcases hrefill with rfl | rfl <;> simp [truncated]
  rw [readArrayLoop, bind_ok get_apply, if_neg (by simpa using h), bind_apply]
  have hrun : refillFor width ⟨data, eom, packets⟩ = refill ⟨data, eom, packets⟩ := by
    unfold refillFor
    rw [bind_ok get_apply, htrunc]
    rfl
  rw [hrun, refill_apply]
  cases packets with
  | nil => rfl
  | cons p ps =>
    dsimp only
    by_cases hok : Acceptable p
    · rw [if_pos hok, if_pos hok]
    · rw [if_neg hok, if_neg hok]

/-- What there is of a small value is taken at once. -/
theorem takeAvailable_some {limit count : ℕ} (hlimit : need ≤ limit) (hneed : 0 < need)
    (hdata : data ≠ []) :
    takeAvailable limit count need emptyMessages ⟨data, eom, packets⟩
      = .ok (data.take need) ⟨data.drop need, eom, packets⟩ := by
  have hpos : 0 < data.length := length_pos_iff.mpr hdata
  have hmin : min data.length (min need limit) = min data.length need := by omega
  unfold takeAvailable
  rw [bind_ok get_apply]
  rw [hmin, if_neg (by omega)]
  show EStateM.Result.ok (data.take (min data.length need)) (⟨data.drop (min data.length need), eom,
    packets⟩ : PacketQueue) = _
  rcases Nat.le_total need data.length with hle | hle
  · rw [Nat.min_eq_right hle]
  · rw [Nat.min_eq_left hle, take_length, drop_length, take_of_length_le hle,
      drop_of_length_le hle]

theorem takeAvailable_empty {limit count : ℕ} :
    takeAvailable limit count need emptyMessages ⟨[], true, packets⟩
      = if count > 0 then .error (pastEndOfMessageError need 0) ⟨[], true, packets⟩
        else if emptyMessages + 1 > NetworkTransport.maxConsecutiveEmptyMessages then
          .error (NetworkTransport.stalledOnEmptyMessagesError need) ⟨[], true, packets⟩
        else .ok [] ⟨[], true, packets⟩ := by
  unfold takeAvailable
  rw [bind_ok get_apply]
  simp only [length_nil, Nat.zero_min, if_true, Bool.true_eq_false, if_false]
  split
  · rfl
  · split <;> rfl

section Bulk

variable {window limit : ℕ}

theorem bulkLoop_done : bulkLoop window limit fuel taken 0 emptyMessages ⟨data, eom, packets⟩
    = .ok taken ⟨data, eom, packets⟩ := by
  cases fuel <;> rfl

/-- A round that does not fail ahead of its refill. -/
theorem bulkRound_refill {count : ℕ} (h : truncated ⟨data, eom, packets⟩ (count > 0) need = false) :
    bulkRound window limit count need emptyMessages ⟨data, eom, packets⟩
      = (refillBelow (min window need) >>= fun _ => takeAvailable limit count need emptyMessages)
          ⟨data, eom, packets⟩ := by
  unfold bulkRound
  rw [bind_ok get_apply, h]
  rfl

theorem bulkLoop_enough (hlimit : need ≤ limit) (hwindow : need ≤ window) (hneed : 0 < need)
    (h : need ≤ data.length) :
    bulkLoop window limit (fuel + 1) taken need emptyMessages ⟨data, eom, packets⟩
      = .ok (taken ++ data.take need) ⟨data.drop need, eom, packets⟩ := by
  obtain ⟨n, rfl⟩ : ∃ n, need = n + 1 := ⟨need - 1, by omega⟩
  have hdata : data ≠ [] := by
    rintro rfl
    simp at h
  have htrunc : truncated ⟨data, eom, packets⟩ (taken.length > 0) (n + 1) = false := by
    simp only [truncated, Nat.not_lt.mpr h, decide_false, Bool.and_false]
  have hround : bulkRound window limit taken.length (n + 1) emptyMessages ⟨data, eom, packets⟩
      = .ok (data.take (n + 1)) ⟨data.drop (n + 1), eom, packets⟩ := by
    have hnone : refillBelow (min window (n + 1)) ⟨data, eom, packets⟩
        = .ok () ⟨data, eom, packets⟩ := by
      unfold refillBelow
      rw [bind_ok get_apply, Nat.min_eq_right hwindow, if_neg (by simpa using h)]
      rfl
    rw [bulkRound_refill htrunc, bind_ok hnone, takeAvailable_some hlimit hneed hdata]
  rw [bulkLoop, bind_ok hround, length_take, Nat.min_eq_left h, Nat.sub_self,
    bulkLoop_done]

theorem bulkLoop_truncated (hneed : data.length < need) (hstarted : taken ≠ [] ∨ data ≠ []) :
    bulkLoop window limit (fuel + 1) taken need emptyMessages ⟨data, true, packets⟩
      = .error (pastEndOfMessageError need data.length) ⟨data, true, packets⟩ := by
  obtain ⟨n, rfl⟩ : ∃ n, need = n + 1 := ⟨need - 1, by omega⟩
  have htrunc : truncated ⟨data, true, packets⟩ (taken.length > 0) (n + 1) = true := by
    simp only [← length_pos_iff] at hstarted
    simpa [truncated, hneed] using hstarted
  refine bind_error ?_
  unfold bulkRound
  rw [bind_ok get_apply, htrunc]
  rfl

/-- The bulk reader behind its refill. -/
def bulkRest (window limit fuel : ℕ) (taken : List UInt8) (need emptyMessages : ℕ) :
    QueueM (List UInt8) :=
  takeAvailable limit taken.length need emptyMessages >>= fun bytes =>
    bulkLoop window limit fuel (taken ++ bytes) (need - bytes.length)
      (if bytes = [] then emptyMessages + 1 else emptyMessages)

theorem bulkLoop_refill (hwindow : need ≤ window) (hneed : data.length < need)
    (hrefill : (taken = [] ∧ data = []) ∨ eom = false) :
    bulkLoop window limit (fuel + 1) taken need emptyMessages ⟨data, eom, packets⟩
      = match packets with
        | [] => .error (NetworkTransport.closedError 0) ⟨data, eom, packets⟩
        | p :: ps => if Acceptable p then
            bulkRest window limit fuel taken need emptyMessages ⟨data ++ payload p, hasEom p, ps⟩
          else .error TdsReadBuffer.payloadFreeError ⟨data, eom, packets⟩ := by
  obtain ⟨n, rfl⟩ : ∃ n, need = n + 1 := ⟨need - 1, by omega⟩
  have htrunc : truncated ⟨data, eom, packets⟩ (taken.length > 0) (n + 1) = false := by
    rcases hrefill with ⟨rfl, rfl⟩ | rfl <;> simp [truncated]
  have hrun : refillBelow (min window (n + 1)) ⟨data, eom, packets⟩ =
      refill ⟨data, eom, packets⟩ := by
    unfold refillBelow
    rw [bind_ok get_apply, Nat.min_eq_right hwindow, if_pos (by simpa using hneed)]
  rw [bulkLoop, bind_apply, bulkRound_refill htrunc, bind_apply, hrun, refill_apply]
  cases packets with
  | nil => rfl
  | cons p ps =>
    dsimp only
    by_cases hok : Acceptable p
    · rw [if_pos hok, if_pos hok, bulkRest, bind_apply]
    · rw [if_neg hok, if_neg hok]

end Bulk

/-! ### Agreement on the queue -/

/-- The same bytes and the same queue, or errors of the same kind. -/
inductive Agrees : EStateM.Result Error PacketQueue (List UInt8) →
    EStateM.Result Error PacketQueue (List UInt8) → Prop
  | ok (bytes : List UInt8) (q : PacketQueue) : Agrees (.ok bytes q) (.ok bytes q)
  | error {e e' : Error} {q q' : PacketQueue} (h : e.SameKind e') :
      Agrees (.error e q) (.error e' q')

variable {p : List UInt8}

theorem hasEom_of_empty (hok : Acceptable p) (hheader : packetHeaderSize ≤ p.length)
    (h : payload p = []) : hasEom p = true := by
  apply hok
  have := congrArg List.length h
  simp only [payload, length_drop, length_nil] at this
  omega

section Agreement

variable {window limit : ℕ}

/-- The scalar reader keeps in the buffer what the bulk reader has taken.  The two agree if they do
behind a refill. -/
theorem agrees_of_refill (hlimit : need ≤ limit) (hwindow : need ≤ window) (hneed : 0 < need)
    {fuel' : ℕ}
    (hrest : ∀ p ps, packets = p :: ps → Acceptable p → data.length < need →
      ((taken = [] ∧ data = []) ∨ eom = false) →
      Agrees (readArrayLoop (taken.length + need) fuel ⟨taken ++ (data ++ payload p), hasEom p, ps⟩)
        (bulkRest window limit fuel' taken need emptyMessages ⟨data ++ payload p, hasEom p, ps⟩)) :
    Agrees (readArrayLoop (taken.length + need) (fuel + 1) ⟨taken ++ data, eom, packets⟩)
      (bulkLoop window limit (fuel' + 1) taken need emptyMessages ⟨data, eom, packets⟩) := by
  by_cases henough : need ≤ data.length
  · rw [readArrayLoop_enough (by simpa using henough), bulkLoop_enough hlimit hwindow hneed henough]
    simp only [take_length_add_append, drop_length_add_append]
    exact .ok _ _
  have hshort : (taken ++ data).length < taken.length + need := by
    rw [length_append]
    omega
  by_cases hrefill : (taken = [] ∧ data = []) ∨ eom = false
  · have hscalar : taken ++ data = [] ∨ eom = false := hrefill.imp_left append_eq_nil_iff.mpr
    rw [readArrayLoop_refill hshort hscalar, bulkLoop_refill hwindow (by omega) hrefill]
    cases packets with
    | nil => exact .error rfl
    | cons p ps =>
      dsimp only
      by_cases hok : Acceptable p
      · rw [if_pos hok, if_pos hok, append_assoc]
        exact hrest p ps rfl hok (by omega) hrefill
      · rw [if_neg hok, if_neg hok]
        exact .error rfl
  · rw [not_or, Bool.not_eq_false] at hrefill
    obtain ⟨hstarted, rfl⟩ := hrefill
    rw [readArrayLoop_truncated hshort (fun hnil => hstarted (append_eq_nil_iff.mp hnil)),
      bulkLoop_truncated (by omega) (not_and_or.mp hstarted)]
    exact .error rfl

/-- A packet with payload, behind what there is of the value. -/
theorem bulkRest_some (hlimit : need ≤ limit) (hneed : 0 < need) (hdata : data ≠ []) :
    bulkRest window limit fuel taken need emptyMessages ⟨data, eom, packets⟩
      = bulkLoop window limit fuel (taken ++ data.take need) (need - data.length) emptyMessages
          ⟨data.drop need, eom, packets⟩ := by
  have hbytes : data.take need ≠ [] := by
    rw [ne_eq, take_eq_nil_iff, not_or]
    exact ⟨by omega, hdata⟩
  have hless : need - (data.take need).length = need - data.length := by
    rw [length_take]
    omega
  rw [bulkRest, bind_ok (takeAvailable_some hlimit hneed hdata), if_neg hbytes, hless]

/-- The two agree behind a packet with payload if they do once all of it is taken. -/
theorem rest_agrees (hlimit : need ≤ limit) (hneed : 0 < need) (hdata : data ≠ []) {fuel' : ℕ}
    (hnext : data.length < need →
      Agrees (readArrayLoop ((taken ++ data).length + (need - data.length)) (fuel + 1)
          ⟨taken ++ data ++ [], eom, packets⟩)
        (bulkLoop window limit fuel' (taken ++ data) (need - data.length) emptyMessages
          ⟨[], eom, packets⟩)) :
    Agrees (readArrayLoop (taken.length + need) (fuel + 1) ⟨taken ++ data, eom, packets⟩)
      (bulkRest window limit fuel' taken need emptyMessages ⟨data, eom, packets⟩) := by
  rw [bulkRest_some hlimit hneed hdata]
  by_cases henough : need ≤ data.length
  · rw [Nat.sub_eq_zero_of_le henough, bulkLoop_done, readArrayLoop_enough (by simpa using henough)]
    simp only [take_length_add_append, drop_length_add_append]
    exact .ok _ _
  · -- all of it is taken, and the rest is still to come
    have hagrees := hnext (by omega)
    have hwidth : (taken ++ data).length + (need - data.length) = taken.length + need := by
      rw [length_append]
      omega
    rw [hwidth, append_nil] at hagrees
    rwa [take_of_length_le (by omega), drop_of_length_le (by omega)]

/-- Once the value has started, the two readers agree. -/
theorem started_agrees (hheader : ∀ p ∈ packets, packetHeaderSize ≤ p.length)
    (hlimit : need ≤ limit) (hwindow : need ≤ window) (hneed : 0 < need)
    (hstarted : taken ++ data ≠ []) {fuel' : ℕ} (hfuel : packets.length < fuel)
    (hfuel' : need ≤ fuel') :
    Agrees (readArrayLoop (taken.length + need) fuel ⟨taken ++ data, eom, packets⟩)
      (bulkLoop window limit fuel' taken need emptyMessages ⟨data, eom, packets⟩) := by
  induction packets generalizing fuel fuel' taken data need eom with
  | nil =>
    obtain ⟨fuel, rfl⟩ : ∃ n, fuel = n + 1 := ⟨fuel - 1, by omega⟩
    obtain ⟨fuel', rfl⟩ : ∃ n, fuel' = n + 1 := ⟨fuel' - 1, by omega⟩
    refine agrees_of_refill hlimit hwindow hneed ?_
    intro p ps hnil
    cases hnil
  | cons q qs ih =>
    simp only [length_cons] at hfuel
    obtain ⟨fuel, rfl⟩ : ∃ n, fuel = n + 2 := ⟨fuel - 2, by omega⟩
    obtain ⟨fuel', rfl⟩ : ∃ n, fuel' = n + 1 := ⟨fuel' - 1, by omega⟩
    refine agrees_of_refill hlimit hwindow hneed ?_
    rintro p ps hcons hok hshort -
    obtain ⟨rfl, rfl⟩ := List.cons.inj hcons
    have hheaders : ∀ p ∈ qs, packetHeaderSize ≤ p.length :=
      fun p hp => hheader p (mem_cons_of_mem _ hp)
    by_cases hempty : data ++ payload q = []
    · -- the message ends in the middle of the value
      obtain ⟨rfl, hpayload⟩ := append_eq_nil_iff.mp hempty
      have heom := hasEom_of_empty hok (hheader q mem_cons_self) hpayload
      rw [append_nil] at hstarted
      have hpos : 0 < taken.length := length_pos_iff.mpr hstarted
      rw [hempty, heom, append_nil, readArrayLoop_truncated (by omega) hstarted, bulkRest,
        bind_error (takeAvailable_empty.trans (if_pos hpos))]
      exact .error rfl
    · have hpos : 0 < (data ++ payload q).length := length_pos_iff.mpr hempty
      refine rest_agrees hlimit hneed hempty fun hmore => ?_
      refine ih hheaders (by omega) (by omega) (by omega) ?_ (by omega) (by omega)
      rw [append_nil]
      exact fun hnil => hempty (append_eq_nil_iff.mp hnil).2

/-! ### At the start of a message -/

theorem isEmptyMessage_iff (hheader : packetHeaderSize ≤ p.length) :
    isEmptyMessage p = true ↔ Acceptable p ∧ payload p = [] := by
  have hpayload : payload p = [] ↔ p.length = packetHeaderSize := by
    rw [payload, drop_eq_nil_iff]
    omega
  rw [hpayload, isEmptyMessage, Bool.and_eq_true, decide_eq_true_iff]
  exact ⟨fun h => ⟨fun _ => h.2, h.1⟩, fun h => ⟨h.2, h.1 h.2⟩⟩

/-- The two agree at the start of a message that is not empty. -/
theorem fresh_agrees (hheader : ∀ p ∈ packets, packetHeaderSize ≤ p.length)
    (hlimit : need ≤ limit) (hwindow : need ≤ window) (hneed : 0 < need) {fuel' : ℕ}
    (hfuel : packets.length < fuel) (hfuel' : need ≤ fuel')
    (hsome : ∀ p ∈ packets.head?, isEmptyMessage p = false) :
    Agrees (readArrayLoop need fuel ⟨[], eom, packets⟩)
      (bulkLoop window limit fuel' [] need emptyMessages ⟨[], eom, packets⟩) := by
  obtain ⟨fuel, rfl⟩ : ∃ n, fuel = n + 1 := ⟨fuel - 1, by omega⟩
  obtain ⟨fuel', rfl⟩ : ∃ n, fuel' = n + 1 := ⟨fuel' - 1, by omega⟩
  have hagrees := @agrees_of_refill fuel need emptyMessages [] [] eom packets window limit hlimit
    hwindow hneed fuel' ?_
  · simpa using hagrees
  rintro p ps rfl hok hshort -
  have hp := hheader p mem_cons_self
  have hpayload : payload p ≠ [] := by
    intro hnil
    have := (isEmptyMessage_iff hp).mpr ⟨hok, hnil⟩
    rw [hsome p rfl] at this
    cases this
  simp only [length_cons] at hfuel
  obtain ⟨fuel, rfl⟩ : ∃ n, fuel = n + 1 := ⟨fuel - 1, by omega⟩
  have hpos : 0 < (payload p).length := length_pos_iff.mpr hpayload
  refine rest_agrees hlimit hneed hpayload fun hmore => ?_
  refine started_agrees (fun q hq => hheader q (mem_cons_of_mem _ hq)) (by omega) (by omega)
    (by omega) ?_ (by omega) (by omega)
  simpa using hpayload

theorem readArrayLoop_emptyMessage {ps : List (List UInt8)} (hneed : 0 < width)
    (hheader : packetHeaderSize ≤ p.length) (hempty : isEmptyMessage p = true) :
    readArrayLoop width (fuel + 1) ⟨[], eom, p :: ps⟩ =
      readArrayLoop width fuel ⟨[], true, ps⟩ := by
  obtain ⟨hok, hpayload⟩ := (isEmptyMessage_iff hheader).mp hempty
  rw [readArrayLoop_refill hneed (.inl rfl)]
  dsimp only
  rw [if_pos hok, hpayload, hasEom_of_empty hok hheader hpayload, append_nil]

theorem bulkLoop_emptyMessage {ps : List (List UInt8)} (hwindow : need ≤ window)
    (hneed : 0 < need) (hheader : packetHeaderSize ≤ p.length) (hempty : isEmptyMessage p = true) :
    bulkLoop window limit (fuel + 1) [] need emptyMessages ⟨[], eom, p :: ps⟩
      = if emptyMessages + 1 > NetworkTransport.maxConsecutiveEmptyMessages then
          .error (NetworkTransport.stalledOnEmptyMessagesError need) ⟨[], true, ps⟩
        else bulkLoop window limit fuel [] need (emptyMessages + 1) ⟨[], true, ps⟩ := by
  obtain ⟨hok, hpayload⟩ := (isEmptyMessage_iff hheader).mp hempty
  rw [bulkLoop_refill hwindow (show ([] : List UInt8).length < need from hneed) (.inl ⟨rfl, rfl⟩)]
  dsimp only
  rw [if_pos hok, hpayload, hasEom_of_empty hok hheader hpayload, append_nil, bulkRest,
    bind_apply, takeAvailable_empty, length_nil, if_neg (Nat.lt_irrefl 0)]
  by_cases hstall : emptyMessages + 1 > NetworkTransport.maxConsecutiveEmptyMessages
  · rw [if_pos hstall, if_pos hstall]
  · rw [if_neg hstall, if_neg hstall]
    rfl

/-! ### When the scalar reader fails -/

/-- The read fails with a protocol error. -/
def IsProtocolError (r : EStateM.Result Error PacketQueue (List UInt8)) : Prop :=
  ∃ message q, r = .error (.protocolError message) q

variable {q : PacketQueue}

theorem not_isProtocolError_closed :
    ¬ IsProtocolError (.error (NetworkTransport.closedError 0) q) := by
  rintro ⟨message, q', h⟩
  cases h

theorem not_isProtocolError_ok {bytes : List UInt8} :
    ¬ IsProtocolError (.ok bytes q) := by
  rintro ⟨message, q', h⟩
  cases h

theorem isProtocolError_refill (h : data.length < width) (hrefill : data = [] ∨ eom = false)
    {ps : List (List UInt8)}
    (hrest : Acceptable p →
      (IsProtocolError (readArrayLoop width fuel ⟨data ++ payload p, hasEom p, ps⟩) ↔
        (payload p).length < width - data.length ∧
          (hasEom p = true ∨ fallsShort (width - data.length - (payload p).length) ps = true))) :
    IsProtocolError (readArrayLoop width (fuel + 1) ⟨data, eom, p :: ps⟩) ↔
      fallsShort (width - data.length) (p :: ps) = true := by
  rw [readArrayLoop_refill h hrefill]
  dsimp only
  by_cases hok : Acceptable p
  · rw [if_pos hok, hrest hok]
    simp [fallsShort, hok]
  · rw [if_neg hok]
    simp only [fallsShort, hok, decide_false, Bool.not_false, Bool.true_or]
    exact ⟨fun _ => trivial, fun _ => ⟨_, _, rfl⟩⟩

/-- Once the value has started, the scalar reader fails with a protocol error exactly if the message
falls short. -/
theorem started_isProtocolError (hheader : ∀ p ∈ packets, packetHeaderSize ≤ p.length)
    (hdata : data ≠ []) (h : data.length < width) (hfuel : packets.length < fuel) :
    IsProtocolError (readArrayLoop width fuel ⟨data, eom, packets⟩) ↔
      eom = true ∨ fallsShort (width - data.length) packets = true := by
  obtain ⟨fuel, rfl⟩ : ∃ n, fuel = n + 1 := ⟨fuel - 1, by omega⟩
  cases eom with
  | true =>
    rw [readArrayLoop_truncated h hdata]
    exact ⟨fun _ => .inl rfl, fun _ => ⟨_, _, rfl⟩⟩
  | false =>
    rw [or_iff_right (by simp)]
    induction packets generalizing data fuel with
    | nil =>
      rw [readArrayLoop_refill h (.inr rfl)]
      exact ⟨fun hp => absurd hp not_isProtocolError_closed, fun hp => by cases hp⟩
    | cons p ps ih =>
      simp only [length_cons] at hfuel
      obtain ⟨fuel, rfl⟩ : ∃ n, fuel = n + 1 := ⟨fuel - 1, by omega⟩
      refine isProtocolError_refill h (.inr rfl) fun hok => ?_
      have hnil : data ++ payload p ≠ [] := fun hnil => hdata (append_eq_nil_iff.mp hnil).1
      by_cases hshort : (payload p).length < width - data.length
      · have hwidth : width - (data ++ payload p).length
            = width - data.length - (payload p).length := by
          rw [length_append]
          omega
        have hlen : (data ++ payload p).length < width := by
          omega
        cases heom : hasEom p with
        | true =>
          rw [readArrayLoop_truncated hlen hnil]
          exact ⟨fun _ => ⟨hshort, .inl rfl⟩, fun _ => ⟨_, _, rfl⟩⟩
        | false =>
          rw [ih (fun q hq => hheader q (mem_cons_of_mem _ hq)) hnil hlen fuel (by omega), hwidth]
          simp [hshort]
      · rw [readArrayLoop_enough (by rw [length_append]; omega)]
        exact ⟨fun hp => absurd hp not_isProtocolError_ok, fun hp => absurd hp.1 hshort⟩

/-- At the start of a message, empty messages are passed over first. -/
theorem fresh_isProtocolError (hheader : ∀ p ∈ packets, packetHeaderSize ≤ p.length)
    (hwidth : 0 < width) (hfuel : packets.length < fuel) :
    IsProtocolError (readArrayLoop width fuel ⟨[], eom, packets⟩) ↔
      fallsShort width (packets.dropWhile isEmptyMessage) = true := by
  induction packets generalizing fuel eom with
  | nil =>
    obtain ⟨fuel, rfl⟩ : ∃ n, fuel = n + 1 := ⟨fuel - 1, by omega⟩
    rw [readArrayLoop_refill (by simpa using hwidth) (.inl rfl)]
    exact ⟨fun hp => absurd hp not_isProtocolError_closed, fun hp => by cases hp⟩
  | cons p ps ih =>
    simp only [length_cons] at hfuel
    obtain ⟨fuel, rfl⟩ : ∃ n, fuel = n + 1 := ⟨fuel - 1, by omega⟩
    have hp := hheader p mem_cons_self
    have hps : ∀ q ∈ ps, packetHeaderSize ≤ q.length :=
      fun q hq => hheader q (mem_cons_of_mem _ hq)
    cases hempty : isEmptyMessage p with
    | true =>
      rw [readArrayLoop_emptyMessage hwidth hp hempty, dropWhile_cons_of_pos hempty]
      exact ih hps (by omega)
    | false =>
      rw [dropWhile_cons_of_neg (by simp [hempty])]
      refine isProtocolError_refill (by simpa using hwidth) (.inl rfl) fun hok => ?_
      have hpayload : payload p ≠ [] := by
        intro hnil
        rw [(isEmptyMessage_iff hp).mpr ⟨hok, hnil⟩] at hempty
        cases hempty
      simp only [nil_append, length_nil, Nat.sub_zero]
      by_cases hshort : (payload p).length < width
      · rw [started_isProtocolError hps hpayload hshort (by omega)]
        simp [hshort]
      · obtain ⟨fuel, rfl⟩ : ∃ n, fuel = n + 1 := ⟨fuel - 1, by omega⟩
        rw [readArrayLoop_enough (by omega)]
        exact ⟨fun h => absurd h not_isProtocolError_ok, fun h => absurd h.1 hshort⟩

/-- Without two empty messages ahead the two readers agree. -/
theorem agrees_of_not_stalls (hheader : ∀ p ∈ q.packets, packetHeaderSize ≤ p.length)
    (hlimit : need ≤ limit) (hwindow : need ≤ window) (hneed : 0 < need) {fuel' : ℕ}
    (hfuel : q.packets.length < fuel) (hfuel' : need < fuel')
    (htwo : q.data = [] → ∀ p p' ps, q.packets = p :: p' :: ps →
      isEmptyMessage p = true → isEmptyMessage p' = false) :
    Agrees (readArrayLoop need fuel q) (bulkLoop window limit fuel' [] need 0 q) := by
  obtain ⟨data, eom, packets⟩ := q
  by_cases hdata : data = []
  · subst hdata
    cases packets with
    | nil => exact fresh_agrees hheader hlimit hwindow hneed hfuel (by omega) (by simp)
    | cons p ps =>
      cases hempty : isEmptyMessage p with
      | false =>
        exact fresh_agrees hheader hlimit hwindow hneed hfuel (by omega) (by simpa using hempty)
      | true =>
        -- one empty message is passed over by both
        obtain ⟨fuel, rfl⟩ : ∃ n, fuel = n + 1 := ⟨fuel - 1, by omega⟩
        obtain ⟨fuel', rfl⟩ : ∃ n, fuel' = n + 1 := ⟨fuel' - 1, by omega⟩
        have hp := hheader p mem_cons_self
        simp only [length_cons] at hfuel
        rw [readArrayLoop_emptyMessage hneed hp hempty,
          bulkLoop_emptyMessage hwindow hneed hp hempty,
          if_neg (by decide)]
        refine fresh_agrees (fun q hq => hheader q (mem_cons_of_mem _ hq)) hlimit hwindow hneed
          (by omega) (by omega) ?_
        intro p' hp'
        cases ps with
        | nil => cases hp'
        | cons p₂ ps =>
          obtain rfl : p₂ = p' := by simpa using hp'
          exact htwo rfl p p₂ ps rfl hempty
  · have hagrees := @started_agrees fuel need 0 [] data eom packets window limit hheader hlimit
      hwindow
      hneed (by simpa using hdata) fuel' hfuel (by omega)
    simpa using hagrees

/-- At the second empty message the bulk reader gives up, and the scalar reader goes on. -/
theorem stalls_disagrees (hheader : ∀ p ∈ q.packets, packetHeaderSize ≤ p.length)
    (hwindow : need ≤ window) (hneed : 0 < need) {fuel' : ℕ} (hfuel : q.packets.length < fuel)
    (hfuel' : need < fuel') {p p' : List UInt8} {ps : List (List UInt8)} (hdata : q.data = [])
    (hpackets : q.packets = p :: p' :: ps) (hempty : isEmptyMessage p = true)
    (hempty' : isEmptyMessage p' = true) :
    (∃ q', bulkLoop window limit fuel' [] need 0 q
        = .error (NetworkTransport.stalledOnEmptyMessagesError need) q') ∧
      (IsProtocolError (readArrayLoop need fuel q) ↔
        fallsShort need (q.packets.dropWhile isEmptyMessage) = true) := by
  obtain ⟨data, eom, packets⟩ := q
  subst hdata hpackets
  refine ⟨?_, fresh_isProtocolError hheader hneed hfuel⟩
  obtain ⟨fuel', rfl⟩ : ∃ n, fuel' = n + 2 := ⟨fuel' - 2, by omega⟩
  rw [bulkLoop_emptyMessage hwindow hneed (hheader p (by simp)) hempty, if_neg (by decide),
    bulkLoop_emptyMessage hwindow hneed (hheader p' (by simp)) hempty', if_pos (by decide)]
  exact ⟨_, rfl⟩

end Agreement

end PacketQueue

/-! ### Agreement on the transport -/

namespace NetworkTransport

/-- Both reads succeed with the same bytes and leave transports that stand for the same queue, or
both fail with errors of the same kind. -/
inductive ReadersAgree (size : ℕ) : EStateM.Result Error NetworkTransport (List UInt8) →
    EStateM.Result Error NetworkTransport (List UInt8) → Prop
  | ok {bytes : List UInt8} {t₁ t₂ : NetworkTransport} {q : PacketQueue} (h₁ : t₁.Stands size q)
      (h₂ : t₂.Stands size q) : ReadersAgree size (.ok bytes t₁) (.ok bytes t₂)
  | error {e₁ e₂ : Error} {t₁ t₂ : NetworkTransport} (h : e₁.SameKind e₂) :
      ReadersAgree size (.error e₁ t₁) (.error e₂ t₂)

variable {t : NetworkTransport} {q : PacketQueue} {size : ℕ}
  {r₁ r₂ : EStateM.Result Error NetworkTransport (List UInt8)}

theorem SameResult.readersAgree
    {r₁' r₂' : EStateM.Result Error PacketQueue (List UInt8)} (h₁ : SameResult t size r₁ r₁')
    (hdel : t.Delivering) (h₂ : SameResult t size r₂ r₂') (h : PacketQueue.Agrees r₁' r₂') :
    ReadersAgree size r₁ r₂ := by
  cases h₁ with
  | undelivered hfail => exact absurd hdel hfail
  | ok hstands₁ _ =>
    cases h
    cases h₂ with
    | undelivered hfail => exact absurd hdel hfail
    | ok hstands₂ _ => exact .ok hstands₁ hstands₂
  | error _ _ =>
    cases h with
    | error hkind =>
      cases h₂ with
      | undelivered hfail => exact absurd hdel hfail
      | error _ _ => exact .error hkind

/-- If the bulk reader ends with a protocol error, agreement means that the scalar reader does. -/
theorem ReadersAgree.isProtocolError (hdel : t.Delivering)
    {r₁' : EStateM.Result Error PacketQueue (List UInt8)} {message : String} {q' : PacketQueue}
    (h₁ : SameResult t size r₁ r₁') (h₂ : SameResult t size r₂ (.error (.protocolError message) q'))
    (h : ReadersAgree size r₁ r₂) : PacketQueue.IsProtocolError r₁' := by
  cases h₂ with
  | undelivered hfail => exact absurd hdel hfail
  | error _ _ =>
    cases h with
    | @error e₁ _ _ _ hkind =>
      cases h₁ with
      | undelivered hfail => exact absurd hdel hfail
      | @error _ _ q₁ _ _ =>
        cases e₁ with
        | protocolError message => exact ⟨message, q₁, rfl⟩
        | _ => exact absurd hkind (by simp [Error.SameKind, Error.ctorIdx])

theorem Stands.header_le (h : t.Stands size q) : ∀ p ∈ q.packets, packetHeaderSize ≤ p.length :=
  fun p hp => (h.wellFormed p hp).header

theorem length_le_flatten {packets : List (List UInt8)}
    (h : ∀ p ∈ packets, packetHeaderSize ≤ p.length) : packets.length ≤ packets.flatten.length := by
  induction packets with
  | nil => exact Nat.le_refl _
  | cons p ps ih =>
    have hp := h p mem_cons_self
    have hps := ih fun q hq => h q (mem_cons_of_mem _ hq)
    simp only [packetHeaderSize] at hp
    simp only [length_cons, flatten_cons, length_append]
    omega

end NetworkTransport

open NetworkTransport in
/-- **A scalar reader and a bulk reader of the same few bytes have the same outcome exactly if the
bulk reader is not stalled by two empty messages** behind which the bytes would come. -/
theorem readers_agree_iff {t : NetworkTransport} {q : PacketQueue} {size n : ℕ}
    (h : t.Stands size q)
    (hdel : t.Delivering) (hsize : 16 ≤ size) (hpos : 1 ≤ n) (hn : n ≤ 8) :
    ReadersAgree size (readArray n t) (NetworkTransport.readBytes n t) ↔ ¬ StallsBulk n q := by
  have hscalar := h.readArray (show n ≤ size by omega)
  have hbulk := h.readBytes n
  have hfuel : q.packets.length < q.packets.flatten.length + 2 := by
    have := length_le_flatten h.header_le
    omega
  by_cases htwo : q.data = [] ∧ ∃ p p' ps, q.packets = p :: p' :: ps ∧ isEmptyMessage p = true ∧
      isEmptyMessage p' = true
  · obtain ⟨hdata, p, p', ps, hpackets, hempty, hempty'⟩ := htwo
    obtain ⟨⟨q', hstalled⟩, hprotocol⟩ := @PacketQueue.stalls_disagrees _ n size (size - 8) q
      h.header_le (by omega) hpos _ hfuel (Nat.lt_succ_self n) p p' ps hdata hpackets hempty hempty'
    have hstalls : ¬ StallsBulk n q ↔ fallsShort n (q.packets.dropWhile isEmptyMessage) = true := by
      simp [StallsBulk, hdata, hpackets, hempty, hempty']
    rw [hstalls, ← hprotocol]
    rw [hstalled] at hbulk
    refine ⟨fun hagree => hagree.isProtocolError hdel hscalar hbulk, fun hp => ?_⟩
    obtain ⟨message, q₁, hrun⟩ := hp
    rw [hrun] at hscalar
    exact hscalar.readersAgree hdel hbulk (.error rfl)
  · refine ⟨fun _ hstalls => htwo ⟨hstalls.1, ?_⟩, fun _ => ?_⟩
    · obtain ⟨-, hlen, hall, -⟩ := hstalls
      match hpackets : q.packets with
      | [] => simp [hpackets] at hlen
      | [p] => simp [hpackets] at hlen
      | p :: p' :: ps =>
        rw [hpackets] at hall
        exact ⟨p, p', ps, rfl, hall p (by simp), hall p' (by simp)⟩
    · refine hscalar.readersAgree hdel hbulk
        (PacketQueue.agrees_of_not_stalls h.header_le (by omega) (by omega) hpos hfuel
          (Nat.lt_succ_self n) ?_)
      intro hdata p p' ps hpackets hempty
      by_contra hempty'
      exact htwo ⟨hdata, p, p', ps, hpackets, hempty, by simpa using hempty'⟩

open NetworkTransport in
theorem readers_agree_iff_split :
    ReadersAgree 16 (readArray 3 (start 16 splitPackets splitPolls))
      (NetworkTransport.readBytes 3 (start 16 splitPackets splitPolls)) :=
  (readers_agree_iff (start_stands (by decide) splitPackets_wellFormed splitPolls)
    (splitPolls_delivering (by decide)) (by decide) (by decide) (by decide)).mpr
      fun hstalls => absurd hstalls.2.2.1 (by decide)

/-- Two empty messages, and one with a byte in it. -/
def emptyMessagesAhead : List (List UInt8) :=
  [[4, 1, 0, 8, 0, 0, 1, 0], [4, 1, 0, 8, 0, 0, 1, 0], [4, 1, 0, 9, 0, 0, 1, 0, 0x7F]]

theorem emptyMessagesAhead_wellFormed : ∀ p ∈ emptyMessagesAhead, WellFormedPacket 16 p := by
  intro p hp
  simp only [emptyMessagesAhead, mem_cons, not_mem_nil, or_false] at hp
  rcases hp with rfl | rfl | rfl <;> exact ⟨by decide, by decide, by decide⟩

open NetworkTransport in
/-- Behind two empty messages the scalar reader gets its byte and the bulk reader fails. -/
theorem readers_disagree :
    (∃ t, readArray 1 (start 16 emptyMessagesAhead splitPolls) = .ok [0x7F] t) ∧
      ∃ t, NetworkTransport.readBytes 1 (start 16 emptyMessagesAhead splitPolls)
        = .error (stalledOnEmptyMessagesError 1) t := by
  have hstands := start_stands (by decide) emptyMessagesAhead_wellFormed splitPolls
  have hdel : (start 16 emptyMessagesAhead splitPolls).Delivering :=
    splitPolls_delivering (by decide)
  have hscalar : PacketQueue.readArrayLoop 1 (emptyMessagesAhead.flatten.length + 2)
      ⟨[], false, emptyMessagesAhead⟩ = .ok [0x7F] ⟨[], true, []⟩ := rfl
  have hbulk : PacketQueue.bulkLoop 16 (16 - 8) (1 + 1) [] 1 0 ⟨[], false, emptyMessagesAhead⟩
      = .error (stalledOnEmptyMessagesError 1) ⟨[], true, emptyMessagesAhead.drop 2⟩ := rfl
  have hsame := hstands.readArray (show 1 ≤ 16 by decide)
  have hsame' := hstands.readBytes 1
  exact ⟨hsame.eq_ok hdel, hsame'.eq_error hdel⟩

end MssqlTds
