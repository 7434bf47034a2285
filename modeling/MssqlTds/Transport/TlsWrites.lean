import MssqlTds.Transport.TlsReads

/-!
# Writes of the TLS handshake

A caller writes buffer after buffer, each until it is reported written (`WriteSession`).  The
framing is right if, whenever a buffer is, the bytes handed down are whole PRELOGIN packets that
carry the buffers written so far (`FramedAs`).  It stays right as long as the wrapped stream takes
the payload of a packet at once, together with the last byte of its header (`TakesPacket`): behind
the header the writer keeps no account of the payload, and it offers the bytes behind the packet
along with it.

* `writeLoop_whole` : one poll, up to the end of a packet or to a suspension inside its header.
* `WriteSession.InStep` : what the writer stands for between two polls.
* `WriteSession.correct_of_takesPacket` : every run of whole packets is framed right.
* `WriteSession.written_transparent_iff` : what is framed right is read back.
-/

namespace MssqlTds

open Bytes PacketWriter Polling List

/-! ### Framed buffers -/

structure PreloginPacket (p : List UInt8) : Prop extends TdsPacket p where
  packetType : p.head? = some PacketType.preLogin.code

/-- Packet numbers count up by one from one, modulo 256. -/
def Numbered (packets : List (List UInt8)) : Prop :=
  packets.map packetIdField = (List.range packets.length).map fun i => UInt8.ofNat (i + 1)

/-- Only the last packet of a message ends it. -/
def EndsMessage (packets : List (List UInt8)) : Prop :=
  ∃ init last, packets = init ++ [last] ∧ (∀ p ∈ init, hasEom p = false) ∧ hasEom last = true

/-- The packets of each buffer carry its bytes. -/
structure CarriesBuffers (bufs : List (List UInt8)) (messages : List (List (List UInt8))) :
    Prop where
  payloads : messages.map (fun packets => (packets.map payload).flatten) = bufs
  complete : ∀ p ∈ messages.flatten, PreloginPacket p
  numbered : Numbered messages.flatten
  ends : ∀ packets ∈ messages, EndsMessage packets

/-- The bytes are the packets of the buffers and nothing else. -/
def FramedAs (bufs : List (List UInt8)) (bytes : List UInt8) : Prop :=
  ∃ messages, CarriesBuffers bufs messages ∧ bytes = messages.flatten.flatten

variable {packets : List (List UInt8)}

theorem Numbered.snoc {p : List UInt8} (h : Numbered packets)
    (hp : packetIdField p = UInt8.ofNat (packets.length + 1)) : Numbered (packets ++ [p]) := by
  rw [Numbered, map_append, h, length_append, length_singleton, range_succ,
    map_append, map_singleton, map_singleton, hp]

variable {bufs : List (List UInt8)} {messages : List (List (List UInt8))}

theorem CarriesBuffers.snoc {buffer : List UInt8} (h : CarriesBuffers bufs messages)
    (hbuffer : (packets.map payload).flatten = buffer) (hcomplete : ∀ p ∈ packets, PreloginPacket p)
    (hnumbered : Numbered (messages.flatten ++ packets)) (hends : EndsMessage packets) :
    CarriesBuffers (bufs ++ [buffer]) (messages ++ [packets]) := by
  have hflatten : (messages ++ [packets]).flatten = messages.flatten ++ packets := by simp
  refine ⟨?_, ?_, hflatten ▸ hnumbered, ?_⟩
  · rw [map_append, h.payloads, map_singleton, hbuffer]
  · rw [hflatten]
    exact forall_mem_append.mpr ⟨h.complete, hcomplete⟩
  · refine forall_mem_append.mpr ⟨h.ends, ?_⟩
    simpa using hends

/-- Every buffer costs a header. -/
theorem CarriesBuffers.length_le
    (h : CarriesBuffers bufs messages) :
    packetHeaderSize * bufs.length ≤ messages.flatten.flatten.length := by
  have hmessage : ∀ packets ∈ messages, packetHeaderSize ≤ packets.flatten.length := by
    intro packets hpackets
    obtain ⟨init, last, rfl, -, -⟩ := h.ends packets hpackets
    have hlast := (h.complete last (mem_flatten.mpr ⟨_, hpackets, by simp⟩)).header
    rw [flatten_append, length_append, flatten_singleton]
    omega
  rw [← h.payloads, length_map]
  clear h
  induction messages with
  | nil => exact Nat.zero_le _
  | cons packets messages ih =>
    have hhead := hmessage packets mem_cons_self
    have htail := ih fun q hq => hmessage q (mem_cons_of_mem _ hq)
    rw [flatten_cons, flatten_append, length_append, length_cons, Nat.mul_succ]
    omega

/-! ### The caller -/

/-- A way to cut a buffer into slices. -/
structure Slicing where
  cut : List UInt8 → List (List UInt8)
  flatten_cut : ∀ bytes, (cut bytes).flatten = bytes

/-- The slicing of `pollWrite`. -/
def Slicing.whole : Slicing := ⟨fun bytes => [bytes], fun bytes => by simp⟩

/-- A caller that writes buffers one after the other. -/
structure WriteSession where
  stream : TlsOverTdsStream
  /-- Buffers reported written. -/
  done : List (List UInt8)
  /-- The current buffer, and what of it is not reported written. -/
  buffer : List UInt8
  rest : List UInt8
  later : List (List UInt8)
  /-- The last poll completed a buffer. -/
  completed : Bool

namespace WriteSession

/-- Turn to the next buffer. -/
def next (stream : TlsOverTdsStream) (done : List (List UInt8)) : List (List UInt8) → WriteSession
  | [] => ⟨stream, done, [], [], [], true⟩
  | buffer :: later => ⟨stream, done, buffer, buffer, later, true⟩

/-- A caller with nothing written yet. -/
def start (stream : TlsOverTdsStream) (bufs : List (List UInt8)) : WriteSession :=
  next stream [] bufs

/-- One poll of a caller that follows the contract. -/
def step (slicing : Slicing) (σ : WriteSession) : TdsResult WriteSession :=
  -- nothing is left to write
  if σ.rest = [] then .ok σ
  else do
    match ← σ.stream.pollWriteVectored (slicing.cut σ.rest) with
    | (.ready (.ok n), stream) =>
      if σ.rest.drop n = [] then pure (next stream (σ.done ++ [σ.buffer]) σ.later)
      else pure { σ with stream, rest := σ.rest.drop n, completed := false }
    | (_, stream) => pure { σ with stream, completed := false }

/-- No poll panics, and whenever one completes a buffer the bytes handed down are framed. -/
def Correct : List Slicing → WriteSession → Prop
  | [], _ => True
  | slicing :: slicings, σ => ∃ σ', σ.step slicing = .ok σ' ∧
    (σ'.completed = true → FramedAs σ'.done σ'.stream.sink.written) ∧ Correct slicings σ'

/-- The states before the polls of a run satisfy `P`. -/
def Throughout (P : WriteSession → Prop) : List Slicing → WriteSession → Prop
  | [], _ => True
  | slicing :: slicings, σ => P σ ∧
    match σ.step slicing with
    | .error _ => True
    | .ok σ' => Throughout P slicings σ'

end WriteSession

/-! ### Streams that take whole packets -/

/-- With `header` bytes of a packet's header and `packet` bytes of its payload to go, and `offered`
payload bytes on offer, the stream takes pieces of the header but the last of them with exactly the
payload of the packet, or it suspends before. -/
inductive TakesWhole (packet offered : ℕ) : ℕ → Stream' Answer → Prop where
  | suspends {header : ℕ} {answers : Stream' Answer} (h : answers.head = .pending) :
    TakesWhole packet offered header answers
  | piece {header n : ℕ} {answers : Stream' Answer} (h : answers.head = .upTo n)
    (hn : n + 1 < header) (hrest : TakesWhole packet offered (header - (n + 1)) answers.tail) :
    TakesWhole packet offered header answers
  | packet {header n : ℕ} {answers : Stream' Answer} (h : answers.head = .upTo n)
    (hn : min (n + 1) (header + offered) = header + packet) :
    TakesWhole packet offered header answers

/-- The poll that comes next meets a stream that takes the whole packet. -/
def WriteSession.TakesPacket (σ : WriteSession) : Prop :=
  let w := σ.stream.writeState.getD .new
  let packet := min ActiveWriteState.maxPacketSizeWithoutHeader σ.rest.length
  let header := if w.currentPacketBytesRemaining = 0 then packetHeaderSize
    else w.headerBytesRemaining
  σ.rest ≠ [] → TakesWhole packet σ.rest.length header σ.stream.sink.answers

/-! ### A packet in progress -/

namespace ActiveWriteState

/-- Payload bytes in the packet that starts a buffer. -/
def packetSize (rest : List UInt8) : ℕ := min maxPacketSizeWithoutHeader rest.length

/-- A packet for the first bytes of `rest`, with `header` bytes of its header to go. -/
def inPacket (id : UInt8) (rest : List UInt8) (header : ℕ) : ActiveWriteState where
  headerBytesRemaining := header
  payloadBytesRemaining := rest.length
  currentPacketBytesRemaining := packetSize rest
  packetId := id
  lastPayloadWritten := 0

def packetHeader (id : UInt8) (rest : List UInt8) : List UInt8 :=
  buildHeader (packetSize rest + packetHeaderSize) .preLogin id (packetSize rest == rest.length)
    false .none

def packet (id : UInt8) (rest : List UInt8) : List UInt8 :=
  packetHeader id rest ++ rest.take (packetSize rest)

def pastPacket (id : UInt8) (rest : List UInt8) : ActiveWriteState where
  headerBytesRemaining := 0
  payloadBytesRemaining := rest.length - packetSize rest
  currentPacketBytesRemaining := 0
  packetId := id
  lastPayloadWritten := packetSize rest

variable {id : UInt8} {rest : List UInt8} {header n : ℕ}

theorem packetSize_le : packetSize rest ≤ rest.length := min_le_right _ _

theorem packetSize_pos (h : rest ≠ []) : 0 < packetSize rest :=
  lt_min (by decide) (length_pos_iff.mpr h)

theorem length_packetHeader : (packetHeader id rest).length = packetHeaderSize :=
  length_buildHeader _ _ _ _ _ _

/-- The packet is one that its header describes. -/
theorem packet_prelogin : PreloginPacket (packet id rest) where
  header := by
    rw [packet, length_append, length_packetHeader]
    omega
  length := by
    have hsize : packetSize rest ≤ 4080 := min_le_left _ _
    have htake : (rest.take (packetSize rest)).length = packetSize rest :=
      length_take_of_le packetSize_le
    rw [packet, packetHeader, lengthField_header, length_header, htake]
    simp only [packetHeaderSize]
    omega
  packetType := rfl

theorem payload_packet : payload (packet id rest) = rest.take (packetSize rest) := rfl

/-- It ends the message exactly if it takes all that is left. -/
theorem hasEom_packet :
    hasEom (packet id rest) = (packetSize rest == rest.length) := hasEom_header _ _ _ _ _ _ _

theorem currentPacket_inPacket (h : rest ≠ []) (bytes : List UInt8) (len : ℕ) :
    (inPacket id rest header).currentPacket bytes len = .ok (inPacket id rest header, bytes) :=
  if_neg (packetSize_pos h).ne'

/-- A new packet, for a new buffer or for what is left of the last one. -/
theorem currentPacket_start {w : ActiveWriteState} (hcur : w.currentPacketBytesRemaining = 0)
    (hpay : w.payloadBytesRemaining = 0 ∨ w.payloadBytesRemaining = rest.length)
    (bytes : List UInt8) :
    w.currentPacket bytes rest.length =
      .ok (inPacket (w.packetId + 1) rest packetHeaderSize,
        packetHeader (w.packetId + 1) rest) := by
  rw [currentPacket, if_pos hcur, startNextPacket, if_pos (hpay.symm.imp Eq.symm id)]
  rfl

/-- While the header is not complete, its rest and everything on offer are written. -/
theorem flatten_slices_inPacket (hpos : 0 < header) (bytes : List UInt8)
    (bufs : List (List UInt8)) :
    ((inPacket id rest header).slices bytes bufs).flatten =
      bytes.drop (packetHeaderSize - header) ++ bufs.flatten := by
  have hopen : (inPacket id rest header).headerBytesRemaining > 0 := hpos
  rw [slices, if_pos hopen, flatten_cons]
  rfl

theorem onSuccessfulWrite_piece (hpos : 0 < header) (hn : n ≤ header) :
    (inPacket id rest header).onSuccessfulWrite n = .ok (0, inPacket id rest (header - n)) := by
  have hopen : (inPacket id rest header).headerBytesRemaining > 0 := hpos
  have hfits : n ≤ (inPacket id rest header).headerBytesRemaining := hn
  rw [onSuccessfulWrite, if_pos hopen, if_pos hfits]
  rfl

theorem onSuccessfulWrite_packet (hpos : 0 < header) (h : rest ≠ []) :
    (inPacket id rest header).onSuccessfulWrite (header + packetSize rest) =
      .ok (packetSize rest, pastPacket id rest) := by
  have hsize := packetSize_pos h
  have hopen : (inPacket id rest header).headerBytesRemaining > 0 := hpos
  have hpast : ¬ header + packetSize rest ≤ (inPacket id rest header).headerBytesRemaining := by
    change ¬ header + packetSize rest ≤ header
    omega
  rw [onSuccessfulWrite, if_pos hopen, if_neg hpast]
  dsimp only [inPacket]
  rw [Nat.add_sub_cancel_left, min_self, checkedSub_of_le packetSize_le, Nat.sub_self]
  rfl

end ActiveWriteState

/-! ### One poll -/

namespace TlsOverTdsStream

open ActiveWriteState

variable {bufs : List (List UInt8)} {rest : List UInt8} {id : UInt8} {s : TlsOverTdsStream}
  {base : List UInt8} {sink : Sink}

/-- A poll that is about to begin a packet is one inside it. -/
theorem writeLoop_currentPacket {fuel : ℕ} {w w' : ActiveWriteState}
    {header header' : List UInt8}
    (h : w.currentPacket header bufs.flatten.length = .ok (w', header'))
    (h' : w'.currentPacket header' bufs.flatten.length = .ok (w', header')) :
    writeLoop bufs s fuel sink w header = writeLoop bufs s fuel sink w' header' := by
  cases fuel with
  | zero => rfl
  | succ fuel => rw [writeLoop, writeLoop, h, h']

theorem writeLoop_suspends (hrest : rest ≠ []) (hhead : sink.answers.head = .pending)
    (header fuel : ℕ) :
    writeLoop bufs s (fuel + 1) sink (inPacket id rest header) (packetHeader id rest) =
      .ok (.pending, s.keepPacket ⟨sink.written, sink.answers.tail⟩ (inPacket id rest header)
        (packetHeader id rest)) := by
  rw [writeLoop, currentPacket_inPacket hrest, EState.result_ok_bind]
  dsimp only
  rw [Sink.pollWrite_pending hhead]

/-- What the stream takes is a part of the rest of the header and of everything on offer. -/
theorem writeLoop_accepts {header n k : ℕ} (hbufs : bufs.flatten = rest)
    (hrest : rest ≠ []) (hpos : 0 < header) (hle : header ≤ packetHeaderSize)
    (hhead : sink.answers.head = .upTo n) (hk : min (n + 1) (header + rest.length) = k) (fuel : ℕ) :
    writeLoop bufs s (fuel + 1) sink (inPacket id rest header) (packetHeader id rest) = (do
      let (payloadBytesWritten, w) ← (inPacket id rest header).onSuccessfulWrite k
      let sink : Sink := ⟨sink.written ++
        ((packetHeader id rest).drop (packetHeaderSize - header) ++ rest).take k, sink.answers.tail⟩
      if payloadBytesWritten = 0 then writeLoop bufs s fuel sink w (packetHeader id rest)
      else pure (.ready (.ok payloadBytesWritten),
        s.keepPacket sink w (packetHeader id rest))) := by
  have hoffered : ((packetHeader id rest).drop (packetHeaderSize - header) ++ rest).length =
      header + rest.length := by
    rw [length_append, length_drop, length_packetHeader]
    omega
  rw [writeLoop, currentPacket_inPacket hrest, EState.result_ok_bind]
  dsimp only
  rw [Sink.pollWrite_upTo hhead, flatten_slices_inPacket hpos, hbufs, hoffered, hk]
  dsimp only
  rw [if_neg (by omega)]

/-- **One poll.**  A stream that takes the whole packet has it, and all of its payload is reported;
or it suspends with a part of the header. -/
theorem writeLoop_whole (hbufs : bufs.flatten = rest) (hrest : rest ≠ []) {header fuel : ℕ}
    (h : TakesWhole (packetSize rest) rest.length header sink.answers)
    (hpos : 0 < header) (hle : header ≤ packetHeaderSize) (hfuel : header ≤ fuel)
    (hwritten : sink.written =
      base ++ (packetHeader id rest).take (packetHeaderSize - header)) :
    (∃ header' sink', 0 < header' ∧ header' ≤ packetHeaderSize ∧
      sink'.written = base ++ (packetHeader id rest).take (packetHeaderSize - header') ∧
      writeLoop bufs s fuel sink (inPacket id rest header) (packetHeader id rest) =
        .ok (.pending, s.keepPacket sink' (inPacket id rest header') (packetHeader id rest))) ∨
    ∃ sink', sink'.written = base ++ packet id rest ∧
      writeLoop bufs s fuel sink (inPacket id rest header) (packetHeader id rest) =
        .ok (.ready (.ok (packetSize rest)),
          s.keepPacket sink' (pastPacket id rest) (packetHeader id rest)) := by
  generalize hanswers : sink.answers = answers at h
  have hlength : (packetHeader id rest).length = packetHeaderSize := length_packetHeader
  induction h generalizing sink fuel with
  | @suspends header answers hhead =>
    obtain ⟨fuel, rfl⟩ : ∃ f, fuel = f + 1 := ⟨fuel - 1, by omega⟩
    exact .inl ⟨header, ⟨sink.written, sink.answers.tail⟩, hpos, hle, hwritten,
      writeLoop_suspends hrest (hanswers ▸ hhead) header fuel⟩
  | @piece header n answers hhead hn _ ih =>
    obtain ⟨fuel, rfl⟩ : ∃ f, fuel = f + 1 := ⟨fuel - 1, by omega⟩
    rw [writeLoop_accepts hbufs hrest hpos hle (hanswers ▸ hhead)
      (show min (n + 1) (header + rest.length) = n + 1 by omega),
      onSuccessfulWrite_piece hpos hn.le]
    refine ih (by omega) (by omega) (by omega) ?_ (congrArg Stream'.tail hanswers)
    -- the header continues where the last piece ended
    dsimp only
    rw [hwritten, append_assoc, take_append_of_le_length (by rw [length_drop]; omega),
      ← take_add]
    congr 2
    omega
  | @packet header n answers hhead hn =>
    obtain ⟨fuel, rfl⟩ : ∃ f, fuel = f + 1 := ⟨fuel - 1, by omega⟩
    have hsize := packetSize_pos hrest
    refine .inr ⟨⟨sink.written ++ ((packetHeader id rest).drop (packetHeaderSize - header) ++
      rest).take (header + packetSize rest), sink.answers.tail⟩, ?_, ?_⟩
    · have hdrop : ((packetHeader id rest).drop (packetHeaderSize - header)).length = header := by
        rw [length_drop]
        omega
      rw [hwritten, append_assoc, take_append, hdrop, Nat.add_sub_cancel_left,
        take_of_length_le (hdrop.le.trans (Nat.le_add_right _ _)), ActiveWriteState.packet,
        ← append_assoc (List.take _ _), take_append_drop]
    · rw [writeLoop_accepts hbufs hrest hpos hle (hanswers ▸ hhead) hn,
        onSuccessfulWrite_packet hpos hrest]
      change (if packetSize rest = 0 then _ else _) = _
      rw [if_neg hsize.ne']
      rfl

end TlsOverTdsStream

/-! ### Between two polls -/

namespace WriteSession

open ActiveWriteState TlsOverTdsStream

/-- Where the writer stands, after `count` packets and with `part` of the next one handed down. -/
inductive Position (count : ℕ) (rest part : List UInt8) (s : TlsOverTdsStream) : Prop where
  /-- Between two packets. -/
  | between {w : ActiveWriteState} {header : List UInt8} (hw : s.writeState.getD .new = w)
    (hcur : w.currentPacketBytesRemaining = 0)
    (hpay : w.payloadBytesRemaining = 0 ∨ w.payloadBytesRemaining = rest.length)
    (hid : w.packetId = UInt8.ofNat count) (hbuffer : s.packetWriteBuffer = some header)
    (hpart : part = [])
  /-- Inside a header. -/
  | inHeader {header : ℕ} (hpos : 0 < header) (hle : header ≤ packetHeaderSize)
    (hw : s.writeState = some (inPacket (UInt8.ofNat (count + 1)) rest header))
    (hbuffer : s.packetWriteBuffer = some (packetHeader (UInt8.ofNat (count + 1)) rest))
    (hpart : part = (packetHeader (UInt8.ofNat (count + 1)) rest).take (packetHeaderSize - header))

/-- The bytes handed down are the packets of the buffers reported written, those of the current
buffer up to what is left of it, and the part of one more header. -/
structure InStep (σ : WriteSession) : Prop where
  handshake : σ.stream.hasCompletedTlsHandshake = false
  later : ∀ b ∈ σ.later, b ≠ []
  sent : ∃ messages packets part, CarriesBuffers σ.done messages ∧
    Numbered (messages.flatten ++ packets) ∧ (∀ p ∈ packets, PreloginPacket p ∧ hasEom p = false) ∧
    σ.buffer = (packets.map payload).flatten ++ σ.rest ∧
    σ.stream.sink.written = (messages.flatten ++ packets).flatten ++ part ∧
    (σ.completed = true → packets = [] ∧ part = []) ∧
    Position (messages.flatten ++ packets).length σ.rest part σ.stream

variable {σ : WriteSession}

/-- Every poll continues a packet, which it begins if need be. -/
theorem Position.pollWriteVectored_eq {count : ℕ} {rest part : List UInt8} {s : TlsOverTdsStream}
    (h : Position count rest part s) (hhandshake : s.hasCompletedTlsHandshake = false)
    (hbufs : bufs.flatten = rest) (hrest : rest ≠ [])
    (htakes : TakesWhole (packetSize rest) rest.length
      (if (s.writeState.getD .new).currentPacketBytesRemaining = 0 then packetHeaderSize
        else (s.writeState.getD .new).headerBytesRemaining) s.sink.answers) :
    ∃ header, 0 < header ∧ header ≤ packetHeaderSize ∧
      part = (packetHeader (UInt8.ofNat (count + 1)) rest).take (packetHeaderSize - header) ∧
      TakesWhole (packetSize rest) rest.length header s.sink.answers ∧
      s.pollWriteVectored bufs = writeLoop bufs s (packetHeaderSize + 2) s.sink
        (inPacket (UInt8.ofNat (count + 1)) rest header)
        (packetHeader (UInt8.ofNat (count + 1)) rest) := by
  cases h with
  | @between w header hw hcur hpay hid hbuffer hpart =>
    rw [hw, if_pos hcur] at htakes
    refine ⟨packetHeaderSize, by decide, le_refl _, by simpa using hpart, htakes, ?_⟩
    have hstart := currentPacket_start hcur hpay header
    rw [hid, ← UInt8.ofNat_one, ← UInt8.ofNat_add] at hstart
    rw [pollWriteVectored, hhandshake, if_neg Bool.false_ne_true, hbuffer, hw]
    exact writeLoop_currentPacket (hbufs ▸ hstart) (currentPacket_inPacket hrest _ _)
  | @inHeader header hpos hle hw hbuffer hpart =>
    have hcur : (inPacket (UInt8.ofNat (count + 1)) rest header).currentPacketBytesRemaining ≠ 0 :=
      (packetSize_pos hrest).ne'
    rw [hw, Option.getD_some, if_neg hcur] at htakes
    refine ⟨header, hpos, hle, hpart, htakes, ?_⟩
    rw [pollWriteVectored, hhandshake, if_neg Bool.false_ne_true, hbuffer, hw, Option.getD_some]

/-- A session that just completed a buffer has framed bytes behind it. -/
theorem InStep.framedAs (h : InStep σ) (hcompleted : σ.completed = true) :
    FramedAs σ.done σ.stream.sink.written := by
  obtain ⟨messages, packets, part, hcarries, -, -, -, hwritten, hempty, -⟩ := h.sent
  obtain ⟨rfl, rfl⟩ := hempty hcompleted
  exact ⟨messages, hcarries, by simpa using hwritten⟩

/-- The session that turns to the next buffer, behind the last packet of the current one. -/
theorem inStep_next {stream : TlsOverTdsStream} {done messages} {later : List (List UInt8)}
    {w : ActiveWriteState} {header : List UInt8}
    (hhandshake : stream.hasCompletedTlsHandshake = false) (hlater : ∀ b ∈ later, b ≠ [])
    (hcarries : CarriesBuffers done messages)
    (hwritten : stream.sink.written = messages.flatten.flatten)
    (hw : stream.writeState.getD .new = w) (hcur : w.currentPacketBytesRemaining = 0)
    (hpay : w.payloadBytesRemaining = 0) (hid : w.packetId = UInt8.ofNat messages.flatten.length)
    (hbuffer : stream.packetWriteBuffer = some header) : InStep (next stream done later) := by
  have hnumbered : Numbered (messages.flatten ++ []) := by simpa using hcarries.numbered
  have hsent : stream.sink.written = (messages.flatten ++ []).flatten ++ [] := by
    simpa using hwritten
  have hcount : w.packetId = UInt8.ofNat (messages.flatten ++ []).length := by simpa using hid
  cases later with
  | nil =>
    exact ⟨hhandshake, hlater, messages, [], [], hcarries, hnumbered, by simp, rfl, hsent,
      fun _ => ⟨rfl, rfl⟩, .between hw hcur (.inl hpay) hcount hbuffer rfl⟩
  | cons b later =>
    exact ⟨hhandshake, fun b' hb' => hlater b' (mem_cons_of_mem _ hb'), messages, [], [],
      hcarries, hnumbered, by simp, rfl, hsent, fun _ => ⟨rfl, rfl⟩,
      .between hw hcur (.inl hpay) hcount hbuffer rfl⟩

/-- **One poll** of a stream that takes the whole packet keeps the session in step. -/
theorem InStep.step (h : InStep σ) (htakes : σ.TakesPacket) (slicing : Slicing) :
    ∃ σ', σ.step slicing = .ok σ' ∧ InStep σ' := by
  by_cases hrest : σ.rest = []
  · exact ⟨σ, if_pos hrest, h⟩
  obtain ⟨messages, packets, part, hcarries, hnumbered, hpackets, hbuffer, hwritten, -,
    hposition⟩ :=
    h.sent
  obtain ⟨header, hpos, hle, hpart, hwhole, hpoll⟩ :=
    hposition.pollWriteVectored_eq h.handshake (slicing.flatten_cut σ.rest) hrest (htakes hrest)
  set count := (messages.flatten ++ packets).length with hcount
  rw [hpart] at hwritten
  rw [WriteSession.step, if_neg hrest]
  rcases writeLoop_whole (slicing.flatten_cut σ.rest) hrest hwhole hpos hle
      (show header ≤ packetHeaderSize + 2 by omega) hwritten with
    ⟨header', sink', hpos', hle', hwritten', hloop⟩ | ⟨sink', hwritten', hloop⟩
  · rw [hpoll, hloop]
    refine ⟨_, rfl, h.handshake, h.later, messages, packets, _, hcarries, hnumbered,
      hpackets, hbuffer, hwritten', fun hfalse => (nomatch hfalse), ?_⟩
    exact .inHeader hpos' hle' rfl rfl rfl
  · rw [hpoll, hloop]
    set p := packet (UInt8.ofNat (count + 1)) σ.rest with hp
    have hprelogin : PreloginPacket p := packet_prelogin
    have hnumbered' : Numbered (messages.flatten ++ (packets ++ [p])) := by
      rw [← append_assoc]
      exact hnumbered.snoc rfl
    have hbuffer' : ((packets ++ [p]).map payload).flatten ++ σ.rest.drop (packetSize σ.rest) =
        σ.buffer := by
      rw [map_append, flatten_append, map_singleton, flatten_singleton, hp,
        payload_packet, append_assoc, take_append_drop, hbuffer]
    have hsent : sink'.written = (messages.flatten ++ (packets ++ [p])).flatten := by
      rw [hwritten', ← append_assoc, @flatten_append _ _ [p], flatten_singleton]
    have hcount' : (messages.flatten ++ (packets ++ [p])).length = count + 1 := by
      rw [← append_assoc, length_append, ← hcount, length_singleton]
    have hsize : σ.rest.drop (packetSize σ.rest) = [] ↔ packetSize σ.rest = σ.rest.length := by
      rw [drop_eq_nil_iff]
      exact ⟨fun hle => le_antisymm packetSize_le hle, fun heq => heq.ge⟩
    by_cases hdone : σ.rest.drop (packetSize σ.rest) = []
    · -- the packet is the last of its buffer
      have hends : EndsMessage (packets ++ [p]) := by
        refine ⟨packets, p, rfl, fun q hq => (hpackets q hq).2, ?_⟩
        rw [hp, hasEom_packet, hsize.mp hdone, beq_self_eq_true]
      rw [hdone, append_nil] at hbuffer'
      have hcarries' := hcarries.snoc hbuffer'
        (forall_mem_append.mpr ⟨fun q hq => (hpackets q hq).1, by simpa using hprelogin⟩)
        hnumbered' hends
      refine ⟨next _ (σ.done ++ [σ.buffer]) σ.later, if_pos hdone, ?_⟩
      have hflatten : (messages ++ [packets ++ [p]]).flatten =
          messages.flatten ++ (packets ++ [p]) := by simp
      refine inStep_next h.handshake h.later hcarries' ?_ rfl rfl ?_ ?_ rfl
      · rw [hflatten]
        exact hsent
      · change σ.rest.length - packetSize σ.rest = 0
        rw [hsize.mp hdone, Nat.sub_self]
      · change UInt8.ofNat (count + 1) = _
        rw [hflatten, hcount']
    · have hmore : hasEom p = false := by
        rw [hp, hasEom_packet, beq_eq_false_iff_ne]
        exact fun heq => hdone (hsize.mpr heq)
      refine ⟨_, if_neg hdone, h.handshake, h.later, messages, packets ++ [p], [], hcarries,
        hnumbered', ?_, hbuffer'.symm, by rw [append_nil]; exact hsent,
        fun hfalse => (nomatch hfalse), ?_⟩
      · exact forall_mem_append.mpr ⟨hpackets, by simpa using ⟨hprelogin, hmore⟩⟩
      · refine .between rfl rfl (.inr ?_) ?_ rfl rfl
        · change σ.rest.length - packetSize σ.rest = (σ.rest.drop (packetSize σ.rest)).length
          rw [length_drop]
        · change UInt8.ofNat (count + 1) = _
          rw [hcount']

/-! ### Runs -/

variable {slicings : List Slicing}

/-- Every run of polls that take whole packets is framed right. -/
theorem InStep.correct (h : InStep σ)
    (htakes : Throughout TakesPacket slicings σ) : Correct slicings σ := by
  induction slicings generalizing σ with
  | nil => trivial
  | cons slicing slicings ih =>
    obtain ⟨hpacket, hrest⟩ := htakes
    obtain ⟨σ', hstep, h'⟩ := h.step hpacket slicing
    rw [hstep] at hrest
    exact ⟨σ', hstep, h'.framedAs, ih h' hrest⟩

/-- **Framing.**  Buffers that are not empty go out as whole PRELOGIN packets, if the polls meet a
stream that takes a packet at once. -/
theorem correct_of_takesPacket {bufs : List (List UInt8)} (hbufs : ∀ b ∈ bufs, b ≠ [])
    (source : Source) (answers : Stream' Answer) {slicings : List Slicing}
    (htakes : Throughout TakesPacket slicings
      (start (TlsOverTdsStream.new source ⟨[], answers⟩).tlsHandshakeStarting bufs)) :
    Correct slicings (start
      (TlsOverTdsStream.new source ⟨[], answers⟩).tlsHandshakeStarting bufs) := by
  have hnone : CarriesBuffers [] [] := ⟨rfl, by simp, rfl, by simp⟩
  exact InStep.correct (inStep_next rfl hbufs hnone rfl rfl rfl rfl rfl rfl) htakes

/-- A stream that takes three bytes, suspends, and then takes what it is offered. -/
def inPieces : Stream' Answer := fun n => [Answer.upTo 2, .pending].getD n (.upTo 99)

/-- Two buffers over such a stream: the first poll leaves a part of a header, the second completes
the first buffer and the third the other one. -/
theorem correct_of_takesPacket_inPieces :
    let stream := TlsOverTdsStream.new ⟨[], fun _ => .pending⟩ ⟨[], inPieces⟩
    let σ := start stream.tlsHandshakeStarting [[0xAA], [0xBB, 0xCC]]
    ∃ σ₁ σ₂ σ₃, σ.step .whole = .ok σ₁ ∧ σ₁.step .whole = .ok σ₂ ∧ σ₂.step .whole = .ok σ₃ ∧
      (σ₁.completed = false ∧ σ₁.stream.sink.written.length = 3) ∧
      (σ₂.completed = true ∧ FramedAs [[0xAA]] σ₂.stream.sink.written) ∧
      (σ₃.completed = true ∧ FramedAs [[0xAA], [0xBB, 0xCC]] σ₃.stream.sink.written) := by
  obtain ⟨σ₁, h₁, -, σ₂, h₂, hframed₂, σ₃, h₃, hframed₃, -⟩ :=
    @correct_of_takesPacket [[0xAA], [0xBB, 0xCC]] (by decide) ⟨[], fun _ => .pending⟩ inPieces
      [.whole, .whole, .whole] ⟨fun _ => .piece rfl (by decide) (.suspends rfl),
        fun _ => .packet rfl (by decide), fun _ => .packet rfl (by decide), trivial⟩
  refine ⟨σ₁, σ₂, σ₃, h₁, h₂, h₃, ?_⟩
  obtain rfl := Except.ok.inj h₁
  obtain rfl := Except.ok.inj h₂
  obtain rfl := Except.ok.inj h₃
  exact ⟨⟨rfl, rfl⟩, ⟨rfl, hframed₂ rfl⟩, rfl, hframed₃ rfl⟩

/-- A stream that accepts a header alone: the byte behind it completes the packet, but the next
buffer goes out without a header. -/
theorem handshake_write_breaks :
    ¬ Correct [.whole, .whole] (start (TlsOverTdsStream.new ⟨[], fun _ => .pending⟩
      ⟨[], fun _ => .upTo 7⟩).tlsHandshakeStarting [[0xAA], [0xBB]]) := by
  rintro ⟨σ₁, hfirst, -, σ₂, hsecond, hframed, -⟩
  obtain rfl := Except.ok.inj hfirst
  obtain rfl := Except.ok.inj hsecond
  obtain ⟨messages, hcarries, hwritten⟩ := hframed rfl
  have hlength := hcarries.length_le
  rw [← hwritten] at hlength
  exact absurd hlength (by decide)

open TlsOverTdsStream

/-! ### The bytes on the reader's side -/

/-- The polls lead from one session to the other, and each meets a stream that takes the packet. -/
def Reaches : List Slicing → WriteSession → WriteSession → Prop
  | [], σ, σ' => σ' = σ
  | slicing :: slicings, σ, σ' =>
    σ.TakesPacket ∧ ∃ σ₁, σ.step slicing = .ok σ₁ ∧ Reaches slicings σ₁ σ'

theorem InStep.reaches {σ' : WriteSession} (h : InStep σ)
    (hrun : Reaches slicings σ σ') : InStep σ' := by
  induction slicings generalizing σ with
  | nil => exact hrun ▸ h
  | cons slicing slicings ih =>
    obtain ⟨htakes, σ₁, hstep, hrest⟩ := hrun
    obtain ⟨σ₂, hstep', h₂⟩ := h.step htakes slicing
    rw [hstep] at hstep'
    cases hstep'
    exact ih h₂ hrest

/-- **Handshake.**  What a writer has handed down when it completes a buffer is, to a reader that
meets whole headers, the buffers written so far and the end of the stream. -/
theorem written_transparent_iff (hbufs : ∀ b ∈ bufs, b ≠ [])
    {source : Source} {answers : Stream' Answer}
    (hrun : Reaches slicings
      (start (TlsOverTdsStream.new source ⟨[], answers⟩).tlsHandshakeStarting bufs) σ)
    (hcompleted : σ.completed = true) {reads : Stream' Answer} (hlive : NeverFails reads)
    (sink : Sink) {caps : List ℕ} (hcaps : ∀ c ∈ caps, 0 < c) :
    let reader := (TlsOverTdsStream.new ⟨σ.stream.sink.written, reads⟩ sink).tlsHandshakeStarting
    TlsOverTdsStream.Transparent .closed caps σ.done.flatten reader ↔
      TlsOverTdsStream.Throughout WholeHeader caps reader := by
  have hnone : CarriesBuffers [] [] := ⟨rfl, by simp, rfl, by simp⟩
  have hin := (inStep_next rfl hbufs hnone rfl rfl rfl rfl rfl rfl).reaches hrun
  obtain ⟨messages, hcarries, hwritten⟩ := hin.framedAs hcompleted
  have hdata : σ.done.flatten = (messages.flatten.map payload).flatten := by
    rw [← hcarries.payloads, map_flatten, flatten_flatten, map_map]
    rfl
  refine TlsOverTdsStream.Framed.transparent_iff ?_ hcaps
  exact ⟨rfl, ⟨_, rfl, rfl⟩, rfl, hlive, [], messages.flatten, [], rfl,
    hwritten.trans (append_nil _).symm, hdata, fun p hp =>
      (hcarries.complete p hp).toTdsPacket, rfl⟩

theorem written_transparent_iff_oneByte :
    TlsOverTdsStream.Transparent .closed [4, 4] [0xAA]
      (TlsOverTdsStream.new ⟨[0x12, 1, 0, 9, 0, 0, 1, 0, 0xAA], fun _ => .upTo 8⟩
        ⟨[], fun _ => .pending⟩).tlsHandshakeStarting := by
  have hrun : Reaches [.whole] (start (TlsOverTdsStream.new ⟨[], fun _ => .pending⟩
      ⟨[], fun _ => .upTo 8⟩).tlsHandshakeStarting [[0xAA]]) _ :=
    ⟨fun _ => .packet rfl (by decide), _, rfl, rfl⟩
  refine (written_transparent_iff (by decide) hrun rfl (by intro k e h; cases h) _
    (by decide)).mpr ⟨fun _ _ n hn => ?_, fun _ hbytes => absurd rfl hbytes, trivial⟩
  cases hn
  decide

end WriteSession

end MssqlTds
