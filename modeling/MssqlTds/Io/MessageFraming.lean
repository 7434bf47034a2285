import MssqlTds.Io.PacketStream

/-!
# Framing of a whole message

A message is a sequence of checked writes, with the writer suspended and resumed anywhere in
between, and a final `finalize`.  On a network that does not fail, its packets carry the bytes of
the writes, cut at the packet size, under consecutive headers of which only the last ends the
message and only the first can ask for a connection reset.
-/

namespace MssqlTds

open Bytes PacketWriter PacketStatusFlags List

/-! ### Fields of a packet -/

/-- The bytes behind the header. -/
def payload (p : List UInt8) : List UInt8 := p.drop packetHeaderSize

def lengthField (p : List UInt8) : ℕ := ofBe ((p.drop 2).take 2)

/-- The status byte of the header. -/
def statusField (p : List UInt8) : UInt8 := p.getD 1 0

/-- The packet number in the header. -/
def packetIdField (p : List UInt8) : UInt8 := p.getD 6 0

/-- The status byte says that the message ends here. -/
def hasEom (p : List UInt8) : Bool := statusField p &&& eom.bits ≠ 0

/-- The status byte asks for the message to be ignored. -/
def hasIgnore (p : List UInt8) : Bool := statusField p &&& ignore.bits ≠ 0

/-- The status byte asks for a connection reset. -/
def hasReset (p : List UInt8) : Bool :=
  statusField p &&& (resetConnection.bits |||
    resetConnectionSkipTran.bits) ≠ 0

theorem lengthField_append {p rest : List UInt8} (h : packetHeaderSize ≤ p.length) :
    lengthField (p ++ rest) = lengthField p := by
  simp only [packetHeaderSize] at h
  rw [lengthField, lengthField, drop_append_of_le_length (by omega),
    take_append_of_le_length (by rw [length_drop]; omega)]

section Header

variable (n : ℕ) (t : PacketType) (id : UInt8) (l i : Bool) (r : ResetConnectionMode)
  (bs : List UInt8)

@[simp] theorem payload_header : payload (buildHeader n t id l i r ++ bs) = bs := rfl

@[simp] theorem length_header :
    (buildHeader n t id l i r ++ bs).length = packetHeaderSize + bs.length := by
  rw [length_append, length_buildHeader]

@[simp] theorem lengthField_header : lengthField (buildHeader n t id l i r ++ bs) = n % 65536 :=
  ofBe_beBytes 2 n

@[simp] theorem packetIdField_header : packetIdField (buildHeader n t id l i r ++ bs) = id := rfl

@[simp] theorem hasEom_header : hasEom (buildHeader n t id l i r ++ bs) = l := by
  change decide (status l i r &&& eom.bits ≠ 0) = l
  cases l <;> cases i <;> cases r <;> decide

@[simp] theorem hasIgnore_header : hasIgnore (buildHeader n t id l i r ++ bs) = (l && i) := by
  change decide (status l i r &&& ignore.bits ≠ 0) = (l && i)
  cases l <;> cases i <;> cases r <;> decide

@[simp] theorem hasReset_header :
    hasReset (buildHeader n t id l i r ++ bs) = decide (r ≠ .none) := by
  change decide (status l i r &&& (resetConnection.bits |||
    resetConnectionSkipTran.bits) ≠ 0) = _
  cases l <;> cases i <;> cases r <;> decide

end Header

/-! ### Messages -/

/-- One step in the writing of a message. -/
inductive WriteOp where
  | byte (value : UInt8)
  | i16 (value : Int16)
  | u16 (value : UInt16)
  | i32 (value : Int32)
  | u32 (value : UInt32)
  | i64 (value : Int64)
  | u64 (value : UInt64)
  | i16Be (value : Int16)
  | i32Be (value : Int32)
  | stringUnicode (value : List Char)
  | slice (content : List UInt8)
  | fixedBytes (bytes : List UInt8)
  | suspendResume

namespace WriteOp

/-- The writer call of a step. -/
def run : WriteOp → WriterM Unit
  | byte v => writeByteAsync v
  | i16 v => writeI16Async v
  | u16 v => writeU16Async v
  | i32 v => writeI32Async v
  | u32 v => writeU32Async v
  | i64 v => writeI64Async v
  | u64 v => writeU64Async v
  | i16Be v => writeI16BeAsync v
  | i32Be v => writeI32BeAsync v
  | stringUnicode v => writeStringUnicodeAsync v
  | slice c => writeAsync c
  | fixedBytes bs => writeFixedBytes bs
  | suspendResume => modify fun w => resume w.suspend w.network

def bytes : WriteOp → List UInt8
  | byte v => [v]
  | i16 v => leBytes 2 v.toUInt16.toNat
  | u16 v => leBytes 2 v.toNat
  | i32 v => leBytes 4 v.toUInt32.toNat
  | u32 v => leBytes 4 v.toNat
  | i64 v => leBytes 8 v.toUInt64.toNat
  | u64 v => leBytes 8 v.toNat
  | i16Be v => beBytes 2 v.toUInt16.toNat
  | i32Be v => beBytes 4 v.toUInt32.toNat
  | stringUnicode v => Unicode.utf16le v
  | slice c => c
  | fixedBytes bs => bs
  | suspendResume => []

theorem run_emits (op : WriteOp) : Emits op.run op.bytes := by
  cases op with
  | stringUnicode v => exact Emits.string v
  | slice c => exact Emits.slice c
  | fixedBytes bs => exact Emits.fixedBytes bs
  | suspendResume => exact fun w hw => ⟨w, [], rfl, hw, Steps.refl w⟩
  | byte v => exact Emits.byte v
  | _ => exact Emits.checked (by simp)

end WriteOp

def writeMessage (ops : List WriteOp) : WriterM Unit := do
  ops.forM WriteOp.run
  finalize

theorem forM_run_emits (ops : List WriteOp) :
    Emits (ops.forM WriteOp.run) (ops.flatMap WriteOp.bytes) := by
  induction ops with
  | nil => exact .pure
  | cons op ops ih => exact op.run_emits.bind ih

namespace PacketWriter

variable {w : PacketWriter}

def finalPacket (w : PacketWriter) : List UInt8 :=
  buildHeader (packetHeaderSize + w.buffered.length) w.packetType w.packetId true false
    w.headerResetMode ++ w.buffered

/-- `finalize` sends one last packet, unless nothing was written. -/
theorem finalize_log (h : Ready w) :
    ∃ w', finalize w = .ok () w' ∧ w'.network.log = w.network.log ++
      (if w.buffered = [] ∧ w.eomPending = false then []
        else [w.finalPacket]).map SendRecord.complete := by
  have hpos := h.pos_ge
  have hfits := h.fits
  have hlen := length_buffered h.toSound
  have hcond : (decide (w.payloadCursor.pos > packetHeaderSize) || w.eomPending) = true ↔
      ¬ (w.buffered = [] ∧ w.eomPending = false) := by
    rw [← length_eq_zero_iff, hlen, Bool.or_eq_true, decide_eq_true_eq, not_and_or,
      Bool.not_eq_false]
    exact or_congr_left (by omega)
  rw [finalize, EState.bind_ok EState.get_apply, EState.ite_apply]
  by_cases hc : w.buffered = [] ∧ w.eomPending = false
  · rw [if_neg (mt hcond.mp (not_not.mpr hc)), if_pos hc]
    exact ⟨w, rfl, by simp⟩
  · rw [if_pos (hcond.mpr hc), if_neg hc,
      EState.bind_ok (populateHeaderAndSend_ok rfl (h.succeeds _)), mapCursor_apply]
    refine ⟨_, rfl, ?_⟩
    have hpl : w.packetLength false = packetHeaderSize + w.buffered.length := by
      simp only [packetLength, savedPosition, Bool.false_eq_true, if_false, hlen]
      split <;> omega
    have hpacket : w.packet true false = w.finalPacket := by
      rw [packet_eq true (by omega), hpl, Nat.add_sub_cancel_left, take_length]
      rfl
    simp [accounted, completed, hpacket, SendRecord.complete]

theorem new_ready (t : PacketType) {net : Network} (timeout : Option ℕ)
    (handle : Option CancelHandle) (hge : 16 ≤ net.packetSize) (hlt : net.packetSize < 2 ^ 31)
    (hs : ∀ k, (net.env k).Succeeds) : Ready (new t net timeout handle) := by
  have hnet : (new t net timeout handle).packetSize = net.packetSize ∧
      (new t net timeout handle).maxPayloadSize = net.packetSize - packetHeaderSize ∧
      (new t net timeout handle).network.env = net.env ∧
      (new t net timeout handle).payloadCursor = ⟨[], packetHeaderSize⟩ := by
    cases t <;> exact ⟨rfl, rfl, rfl, rfl⟩
  obtain ⟨h₁, h₂, h₃, h₄⟩ := hnet
  constructor
  · constructor
    · rw [h₁, h₂]
      simp only [packetHeaderSize]
      omega
    · rwa [h₁]
    · rwa [h₁]
    · rwa [h₃]
    · rw [h₄]
      exact ⟨le_rfl, le_max_left _ _⟩
  · rw [h₁, h₄]
    simp only [packetHeaderSize]
    omega

theorem length_packetsFrom (id : UInt8) (first : Bool) (ps : List (List UInt8)) :
    (w.packetsFrom id first ps).length = ps.length := by
  induction ps generalizing id first with
  | nil => rfl
  | cons p ps ih => simp [packetsFrom, ih]

theorem flatMap_payload_packetsFrom (id : UInt8) (first : Bool) (ps : List (List UInt8)) :
    (w.packetsFrom id first ps).flatMap payload = ps.flatten := by
  induction ps generalizing id first with
  | nil => rfl
  | cons p ps ih => simp [packetsFrom, ih, fullHeader]

/-- The `k`-th of a run of full packets. -/
theorem getElem_packetsFrom {id : UInt8} {first : Bool} {ps : List (List UInt8)} {k : ℕ}
    (h : k < ps.length) (h' : k < (w.packetsFrom id first ps).length) :
    (w.packetsFrom id first ps)[k] =
      w.fullHeader (id + UInt8.ofNat k) (first && decide (k = 0)) ++ ps[k] := by
  induction ps generalizing id first k with
  | nil => exact absurd h (Nat.not_lt_zero k)
  | cons p ps ih =>
    cases k with
    | zero => simp [packetsFrom]
    | succ k =>
      have hid : id + 1 + UInt8.ofNat k = id + UInt8.ofNat (k + 1) := by
        rw [UInt8.ofNat_add, UInt8.add_assoc, UInt8.add_comm (UInt8.ofNat k)]
        rfl
      simp only [packetsFrom, getElem_cons_succ]
      rw [ih (Nat.lt_of_succ_lt_succ h)]
      simp [hid]

end PacketWriter

/-- How the packets of a message carry its bytes. -/
structure Framed (packetSize : ℕ) (packets : List (List UInt8)) (bytes : List UInt8) : Prop where
  /-- The payloads are the bytes of the message. -/
  payloads : packets.flatMap payload = bytes
  /-- Every packet but the last is full. -/
  full : ∀ p ∈ packets.dropLast, p.length = packetSize
  /-- No packet is longer than the packet size. -/
  fits : ∀ p ∈ packets, p.length ≤ packetSize
  /-- The length field holds the low 16 bits of the packet's length. -/
  length : ∀ p ∈ packets, lengthField p = p.length % 65536
  /-- Packets are numbered from one, modulo 256. -/
  packetId : ∀ k (h : k < packets.length), packetIdField packets[k] = UInt8.ofNat (k + 1)
  /-- The last packet ends the message, and no other. -/
  eom : ∀ k (h : k < packets.length), hasEom packets[k] = true ↔ k + 1 = packets.length
  /-- Only the first packet can ask for a reset. -/
  reset : ∀ k (h : k < packets.length), hasReset packets[k] = true → k = 0
  /-- No packet is sent exactly if there is nothing to send. -/
  empty : packets = [] ↔ bytes = []

namespace PacketWriter

/-- Full packets followed by a final packet frame what was written. -/
theorem framed_of_steps {w₀ w : PacketWriter} {ps : List (List UInt8)} {bs : List UInt8}
    (hsize : w₀.maxPayloadSize + packetHeaderSize = w₀.packetSize)
    (hid : w₀.packetId = 1) (hbuf : w₀.buffered = []) (hw : Ready w) (h : Steps w₀ w ps bs)
    (hne : bs ≠ []) :
    Framed w₀.packetSize
      (w₀.packetsFrom w₀.packetId w₀.isFirstPacket ps ++ [w.finalPacket]) bs := by
  have hstream : ps.flatten ++ w.buffered = bs := by rw [h.stream, hbuf, nil_append]
  have hpayload := flatMap_payload_packetsFrom (w := w₀) w₀.packetId w₀.isFirstPacket ps
  have hlen := length_packetsFrom (w := w₀) w₀.packetId w₀.isFirstPacket ps
  have hid' (k : ℕ) : w₀.packetId + UInt8.ofNat k = UInt8.ofNat (k + 1) := by
    rw [hid, UInt8.add_comm, UInt8.ofNat_add]
    rfl
  have hget (k : ℕ) (hk : k < (w₀.packetsFrom w₀.packetId w₀.isFirstPacket ps).length) :=
    getElem_packetsFrom (hlen ▸ hk) hk
  generalize w₀.packetsFrom w₀.packetId w₀.isFirstPacket ps = full at hlen hget hpayload
  have hmem (p : List UInt8) (hp : p ∈ full) :
      lengthField p = w₀.packetSize % 65536 ∧ p.length = w₀.packetSize := by
    obtain ⟨k, hk, rfl⟩ := mem_iff_getElem.mp hp
    rw [hget k hk, fullHeader, lengthField_header, length_header,
      h.full _ (getElem_mem _), Nat.add_comm, hsize]
    exact ⟨rfl, rfl⟩
  -- an index of the message is that of a full packet, or of the final one
  have hindex (k : ℕ) (hk : k < (full ++ [w.finalPacket]).length) :
      (∃ hk' : k < full.length, (full ++ [w.finalPacket])[k] = full[k]) ∨
        (k = ps.length ∧ (full ++ [w.finalPacket])[k] = w.finalPacket) := by
    by_cases hk' : k < full.length
    · exact .inl ⟨hk', getElem_append_left hk'⟩
    · have hkeq : k = full.length := by simp only [length_append, length_singleton] at hk; omega
      exact .inr ⟨hkeq.trans hlen, by simp [hkeq]⟩
  have hfinal : w.finalPacket.length ≤ w₀.packetSize := by
    have hpos := hw.pos_ge
    rw [finalPacket, length_header, length_buffered hw.toSound, ← h.packetSize,
      Nat.add_sub_cancel' hpos]
    exact hw.fits
  refine ⟨?_, ?_, ?_, ?_, ?_, ?_, ?_, by simp [hne]⟩
  · rw [flatMap_append, hpayload, ← hstream]
    simp [finalPacket]
  · intro p hp
    rw [dropLast_concat] at hp
    exact (hmem p hp).2
  · intro p hp
    rcases mem_append.mp hp with hp | hp
    · exact (hmem p hp).2.le
    · rw [mem_singleton.mp hp]
      exact hfinal
  · intro p hp
    rcases mem_append.mp hp with hp | hp
    · rw [(hmem p hp).1, (hmem p hp).2]
    · rw [mem_singleton.mp hp, finalPacket, lengthField_header, length_header]
  · intro k hk
    obtain ⟨hk', heq⟩ | ⟨hk', heq⟩ := hindex k hk
    · rw [heq, hget k hk', fullHeader, packetIdField_header, hid']
    · rw [heq, finalPacket, packetIdField_header, h.packetId, hid', hk']
  · intro k hk
    obtain ⟨hk', heq⟩ | ⟨hk', heq⟩ := hindex k hk
    · rw [heq, hget k hk', fullHeader, hasEom_header, length_append, length_singleton]
      simp only [Bool.false_eq_true, false_iff]
      omega
    · rw [heq, finalPacket, hasEom_header, length_append, length_singleton, hlen, hk']
      simp
  · intro k hk hreset
    obtain ⟨hk', heq⟩ | ⟨hk', heq⟩ := hindex k hk
    · rw [heq, hget k hk', fullHeader, hasReset_header] at hreset
      by_contra hk0
      simp [hk0] at hreset
    · rw [heq, finalPacket, hasReset_header, headerResetMode, h.isFirstPacket] at hreset
      cases ps with
      | nil => exact hk'
      | cons => simp at hreset

theorem new_fields (t : PacketType) (net : Network) (timeout : Option ℕ)
    (handle : Option CancelHandle) :
    (new t net timeout handle).packetId = 1 ∧ (new t net timeout handle).buffered = [] ∧
      (new t net timeout handle).eomPending = false ∧
      (new t net timeout handle).packetSize = net.packetSize ∧
      (new t net timeout handle).network.log = net.log := by
  cases t <;> exact ⟨rfl, rfl, rfl, rfl, rfl⟩

/-- On a network that does not fail, a message is written as packets that frame its bytes. -/
theorem writeMessage_framed (t : PacketType) (net : Network) (timeout : Option ℕ)
    (handle : Option CancelHandle) (ops : List WriteOp) (hge : 16 ≤ net.packetSize)
    (hlt : net.packetSize < 2 ^ 31) (hs : ∀ k, (net.env k).Succeeds) :
    ∃ w' packets, writeMessage ops (new t net timeout handle) = .ok () w' ∧
      w'.network.log = net.log ++ packets.map SendRecord.complete ∧
      Framed net.packetSize packets (ops.flatMap WriteOp.bytes) := by
  have hready := new_ready t timeout handle hge hlt hs
  obtain ⟨hid, hbuf, heom, hsize, hlog⟩ := new_fields t net timeout handle
  obtain ⟨w, ps, hrun, hready', hsteps⟩ := forM_run_emits ops _ hready
  obtain ⟨w', hfin, hlog'⟩ := finalize_log hready'
  rw [hsteps.log, hlog, append_assoc, ← map_append] at hlog'
  refine ⟨w', _, by rw [writeMessage, EState.bind_ok hrun, hfin], hlog', ?_⟩
  have hstream := hsteps.stream
  rw [hbuf, nil_append] at hstream
  have heom' := hsteps.eomPending
  rw [← hsize]
  by_cases hne : ops.flatMap WriteOp.bytes = []
  · -- nothing was written: no packet was filled, and none is owed
    have hps : ps = [] := by
      rcases append_eq_nil_iff.mp (hstream.trans hne) with ⟨hflat, -⟩
      cases ps with
      | nil => rfl
      | cons p ps =>
        have hp := hsteps.full p mem_cons_self
        have hp0 : p = [] := (flatten_eq_nil_iff.mp hflat) p mem_cons_self
        have := hready.size_eq
        have := hready.size_ge
        simp only [packetHeaderSize, hp0, length_nil] at *
        omega
    subst hps
    have hb : w.buffered = [] := by simpa [hne] using hstream
    rw [hne, if_pos ⟨hb, by rw [heom']; rfl⟩]
    constructor <;> simp [packetsFrom]
  · have hsend : ¬ (w.buffered = [] ∧ w.eomPending = false) := by
      rintro ⟨hb, he⟩
      rw [heom'] at he
      cases ps with
      | nil => exact hne (by rw [← hstream, hb]; rfl)
      | cons p ps => simp at he
    rw [if_neg hsend]
    exact framed_of_steps hready.size_eq hid hbuf hready' hsteps hne

end PacketWriter

/-- **Framing of a message.**  Whatever is written to a message, and wherever it is suspended and
resumed, its packets frame the bytes written, and their length fields are exact as long as the
packet size fits the 16 bits of that field. -/
theorem message_framing (t : PacketType) (net : Network) (timeout : Option ℕ)
    (handle : Option CancelHandle) (ops : List WriteOp) (hge : 16 ≤ net.packetSize)
    (hlt : net.packetSize < 2 ^ 31) (hs : ∀ k, (net.env k).Succeeds) :
    ∃ w' packets, writeMessage ops (PacketWriter.new t net timeout handle) = .ok () w' ∧
      w'.network.log = net.log ++ packets.map SendRecord.complete ∧
      Framed net.packetSize packets (ops.flatMap WriteOp.bytes) ∧
      (net.packetSize ≤ 65535 → ∀ p ∈ packets, lengthField p = p.length) := by
  obtain ⟨w', packets, hrun, hlog, hframed⟩ :=
    writeMessage_framed t net timeout handle ops hge hlt hs
  refine ⟨w', packets, hrun, hlog, hframed, fun hsize p hp => ?_⟩
  have hfits := hframed.fits p hp
  rw [hframed.length p hp, Nat.mod_eq_of_lt (by omega)]

/-- A network of a given packet size on which every send is ready at once. -/
def readyNetwork (packetSize : ℕ) : Network where
  packetSize := packetSize
  pendingReset := .none
  resetDispatched := false
  dispatchNotes := 0
  encryption := .noEncryption
  env := fun _ => .ready
  calls := 0
  log := []

theorem message_framing_sixteen :
    ∃ w' packets, writeMessage [.slice [1, 2, 3], .suspendResume, .u64 4]
        (PacketWriter.new .sqlBatch (readyNetwork 16) none none) = .ok () w' ∧
      w'.network.log = [] ++ packets.map SendRecord.complete ∧
      Framed 16 packets ([.slice [1, 2, 3], .suspendResume, .u64 4].flatMap WriteOp.bytes) ∧
      (16 ≤ 65535 → ∀ p ∈ packets, lengthField p = p.length) :=
  message_framing .sqlBatch (readyNetwork 16) none none _ (le_refl 16) (by decide)
    fun _ => SendEnv.ready_succeeds

/-- At a packet size of 65536 the length field of a full packet reads zero. -/
theorem lengthField_wraps :
    ∃ (w' : PacketWriter) (packets : List (List UInt8)),
      writeMessage [.slice (List.replicate 65529 0)]
        (PacketWriter.new .sqlBatch (readyNetwork 65536) none none) = .ok () w' ∧
      w'.network.log = packets.map SendRecord.complete ∧
      ∃ p ∈ packets, p.length = 65536 ∧ lengthField p = 0 := by
  obtain ⟨w', packets, hrun, hlog, hframed⟩ := writeMessage_framed .sqlBatch (readyNetwork 65536)
    none none [.slice (List.replicate 65529 0)] (by simp [readyNetwork]) (by simp [readyNetwork])
    fun _ => SendEnv.ready_succeeds
  refine ⟨w', packets, hrun, hlog, ?_⟩
  have hpay := congrArg List.length hframed.payloads
  simp only [flatMap_cons, WriteOp.bytes, flatMap_nil, append_nil,
    length_replicate] at hpay
  -- one packet cannot hold the 65529 bytes, so there is a full one before the last
  match packets, hframed, hpay with
  | [], _, hpay => simp at hpay
  | [p], hframed, hpay =>
    have := hframed.fits p mem_cons_self
    simp only [readyNetwork, flatMap_cons, flatMap_nil, append_nil, payload,
      length_drop, packetHeaderSize] at this hpay
    omega
  | p :: q :: ps, hframed, _ =>
    have hlen : p.length = 65536 := hframed.full p (by simp [List.dropLast])
    refine ⟨p, mem_cons_self, hlen, ?_⟩
    rw [hframed.length p mem_cons_self, hlen]

end MssqlTds
