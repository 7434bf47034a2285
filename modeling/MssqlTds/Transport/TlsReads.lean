import MssqlTds.Transport.TlsOverTds

/-!
# Reads of the TLS handshake

What the framing stream promises its reader: the payloads of the packets in order, whatever the
pieces in which they arrive, nothing at the end of the stream only, and an error for a length field
that no packet has (`Transparent`).  It keeps the promise as long as every header comes whole and
announces a payload (`WholeHeader`): a header in pieces or with too small a length ends in a panic,
and a packet without payload looks like the end of the stream.

* `Framed` : what the stream stands for between two polls.
* `pollRead_framed` : one poll either does what is promised and keeps `Framed`, or breaks the
  promise.
* `transparent_iff_wholeHeader` : a run is transparent exactly if it meets whole headers only.
-/

namespace MssqlTds

open Bytes PacketWriter Polling List

/-! ### The promise -/

/-- What follows the last packet of a stream: its end, or a header that is none. -/
inductive Ending where
  | closed
  | malformed
  deriving DecidableEq, Repr

/-- The bytes that follow the last packet. -/
def Ending.Fits : Ending → List UInt8 → Prop
  | closed, rest => rest = []
  | malformed, rest => packetHeaderSize ≤ rest.length ∧ lengthField rest < packetHeaderSize

namespace TlsOverTdsStream

/-- Polls with buffers of the given sizes deliver `data` in order, and then how the stream ends. -/
def Transparent (ending : Ending) : List ℕ → List UInt8 → TlsOverTdsStream → Prop
  | [], _, _ => True
  | cap :: caps, data, s =>
    match s.pollRead cap with
    | .error _ => False
    | .ok (.pending, s') => Transparent ending caps data s'
    | .ok (.ready (.error _), _) => data = [] ∧ ending = .malformed
    | .ok (.ready (.ok []), s') =>
      data = [] ∧ ending = .closed ∧ s'.source.bytes = [] ∧ Transparent ending caps [] s'
    | .ok (.ready (.ok (b :: bs)), s') =>
      ∃ rest, data = b :: bs ++ rest ∧ Transparent ending caps rest s'

/-- The states before the polls of a run satisfy `P`. -/
def Throughout (P : TlsOverTdsStream → Prop) : List ℕ → TlsOverTdsStream → Prop
  | [], _ => True
  | cap :: caps, s => P s ∧
    match s.pollRead cap with
    | .error _ => True
    | .ok (_, s') => Throughout P caps s'

/-- A header that is due comes whole, with a length that a packet has, and if it announces no
payload then nothing follows it or the stream suspends behind it. -/
def WholeHeader (s : TlsOverTdsStream) : Prop :=
  s.remainingReadPacketPayloadLength = 0 → s.source.bytes ≠ [] → ∀ n,
    s.source.answers.head = .upTo n →
      packetHeaderSize ≤ n + 1 ∧ packetHeaderSize ≤ lengthField s.source.bytes ∧
        (lengthField s.source.bytes = packetHeaderSize →
          s.source.bytes.length = packetHeaderSize ∨ s.source.answers.tail.head = .pending)

/-! ### The stream between two polls -/

/-- The stream has `data` to deliver before it ends: the rest of a payload and whole packets. -/
structure Framed (ending : Ending) (data : List UInt8) (s : TlsOverTdsStream) : Prop where
  handshake : s.hasCompletedTlsHandshake = false
  header : ∃ header, s.packetHeaderReceiveBytes = some header ∧ header.length = packetHeaderSize
  counter : s.bytesOfPacketHeaderRead = 0
  live : NeverFails s.source.answers
  bytes : ∃ (part : List UInt8) (packets : List (List UInt8)) (rest : List UInt8),
    part.length = s.remainingReadPacketPayloadLength ∧
      s.source.bytes = part ++ (packets.flatten ++ rest) ∧
      data = part ++ (packets.map payload).flatten ∧ (∀ p ∈ packets, TdsPacket p) ∧
      ending.Fits rest

variable {ending : Ending} {data : List UInt8} {s : TlsOverTdsStream} {cap n : ℕ}

theorem readRequested_pending (h : s.source.answers.head = .pending) :
    s.readRequested cap =
      .ok (.pending, { s with source := ⟨s.source.bytes, s.source.answers.tail⟩ }) := by
  rw [readRequested, Source.pollRead_pending h]

/-- A read inside a payload takes some of it. -/
theorem readRequested_upTo {part rest : List UInt8} (h : s.source.answers.head = .upTo n)
    (hpart : part.length = s.remainingReadPacketPayloadLength) (hne : part ≠ []) (hcap : 0 < cap)
    (hbytes : s.source.bytes = part ++ rest) :
    ∃ b bs part', part = b :: bs ++ part' ∧ s.readRequested cap = .ok (.ready (.ok (b :: bs)),
      { s with
        source := ⟨part' ++ rest, s.source.answers.tail⟩
        remainingReadPacketPayloadLength := part'.length }) := by
  have hpos : 0 < part.length := length_pos_iff.mpr hne
  set k := min (n + 1) (min cap s.remainingReadPacketPayloadLength) with hk
  have hkpos : 0 < k := by omega
  have hkle : k ≤ part.length := by omega
  have htake : s.source.bytes.take k = part.take k := by
    rw [hbytes, take_append_of_le_length hkle]
  have hdrop : s.source.bytes.drop k = part.drop k ++ rest := by
    rw [hbytes, drop_append_of_le_length hkle]
  have hlength : (part.take k).length = k := by
    rw [length_take]
    omega
  obtain ⟨b, bs, hcons⟩ := exists_cons_of_ne_nil
    (show part.take k ≠ [] from ne_nil_of_length_pos (by omega))
  refine ⟨b, bs, part.drop k, ?_, ?_⟩
  · rw [← hcons, take_append_drop]
  · rw [readRequested, Source.pollRead_upTo h]
    dsimp only
    rw [← hk, htake, hdrop, if_neg (by rw [hcons]; exact cons_ne_nil _ _),
      checkedSub_of_le (by omega), length_drop, hlength, hpart, hcons]
    rfl

/-- Behind the header of a packet without payload, a read gets nothing. -/
theorem readRequested_empty (h : s.source.answers.head = .upTo n)
    (hzero : s.remainingReadPacketPayloadLength = 0) :
    s.readRequested cap =
      .ok (.ready (.ok []), { s with source := ⟨s.source.bytes, s.source.answers.tail⟩ }) := by
  rw [readRequested, Source.pollRead_upTo h]
  dsimp only
  rw [hzero, Nat.min_zero, Nat.min_zero, take_zero, if_pos rfl, drop_zero]

/-! ### Headers -/

/-- The stream behind the header that its bytes start with. -/
def pastHeader (s : TlsOverTdsStream) : TlsOverTdsStream :=
  { s with
    source := ⟨s.source.bytes.drop packetHeaderSize, s.source.answers.tail⟩
    bytesOfPacketHeaderRead := 0
    remainingReadPacketPayloadLength := lengthField s.source.bytes - packetHeaderSize
    packetHeaderReceiveBytes := some (s.source.bytes.take packetHeaderSize) }

/-- A read inside a payload leaves the header buffer alone. -/
theorem keepHeader_readRequested {header : List UInt8}
    (h : s.packetHeaderReceiveBytes = some header) :
    (s.readRequested cap).map (keepHeader header) = s.readRequested cap := by
  obtain ⟨source, sink, done, remaining, buffer, count, out, state⟩ := s
  obtain rfl : buffer = some header := h
  rw [readRequested]
  generalize source.pollRead (min cap remaining) = polled
  obtain ⟨(e | filled) | _, source'⟩ := polled
  · rfl
  · dsimp only
    by_cases hfilled : filled = []
    · rw [if_pos hfilled]
      rfl
    · rw [if_neg hfilled]
      cases checkedSub remaining filled.length <;> rfl
  · rfl

section Header

variable (hhandshake : s.hasCompletedTlsHandshake = false)
  (hzero : s.remainingReadPacketPayloadLength = 0) (hcount : s.bytesOfPacketHeaderRead = 0)
  {header : List UInt8} (hheader : s.packetHeaderReceiveBytes = some header)
include hhandshake hzero hcount hheader

theorem pollRead_eq_readHeader :
    s.pollRead cap =
      readHeader cap 1 { s with packetHeaderReceiveBytes := none } header := by
  rw [pollRead, hhandshake, hzero, hheader, hcount]
  rfl

theorem pollRead_header_pending (h : s.source.answers.head = .pending) :
    s.pollRead cap =
      .ok (.pending, { s with source := ⟨s.source.bytes, s.source.answers.tail⟩ }) := by
  rw [pollRead_eq_readHeader hhandshake hzero hcount hheader, readHeader, hzero,
    if_neg (by decide)]
  dsimp only
  rw [Source.pollRead_pending h]
  simp only [keepHeader, hheader]

theorem pollRead_header_ended (h : s.source.answers.head = .upTo n) (hbytes : s.source.bytes = []) :
    s.pollRead cap = .ok (.ready (.ok []), { s with source := ⟨[], s.source.answers.tail⟩ }) := by
  rw [pollRead_eq_readHeader hhandshake hzero hcount hheader, readHeader, hzero,
    if_neg (by decide)]
  dsimp only
  rw [Source.pollRead_upTo h, hbytes]
  simp [keepHeader, List.overwrite, hheader]

variable (hlength : header.length = packetHeaderSize)
include hlength

/-- The header's own counter starts at zero, and a piece of a header is subtracted from it. -/
theorem pollRead_header_split (h : s.source.answers.head = .upTo n) (hbytes : s.source.bytes ≠ [])
    (hn : n + 1 < packetHeaderSize) :
    s.pollRead cap = .error (.panic "attempt to subtract with overflow") := by
  have hpos : 0 < s.source.bytes.length := length_pos_iff.mpr hbytes
  have hpiece : (s.source.bytes.take (min (n + 1) (header.length - 0))).length =
      min (n + 1) s.source.bytes.length := by
    rw [length_take, hlength]
    omega
  have hne : s.source.bytes.take (min (n + 1) (header.length - 0)) ≠ [] :=
    ne_nil_of_length_pos (by omega)
  rw [pollRead_eq_readHeader hhandshake hzero hcount hheader, readHeader, hzero,
    if_neg (by decide)]
  dsimp only
  rw [Source.pollRead_upTo h]
  dsimp only
  rw [if_neg hne, if_pos (by omega), hpiece, hcount, checkedSub_of_lt (by omega)]
  rfl

section Whole

variable (h : s.source.answers.head = .upTo n) (hn : packetHeaderSize ≤ n + 1)
  (hbytes : packetHeaderSize ≤ s.source.bytes.length)
include h hn hbytes

theorem pollRead_header_whole :
    s.pollRead cap = (do
      let length ← checkedSub (lengthField s.source.bytes) packetHeaderSize
      let result ←
        { s.pastHeader with remainingReadPacketPayloadLength := length }.readRequested cap
      pure (keepHeader (s.source.bytes.take packetHeaderSize) result)) := by
  have hcap : min (n + 1) (header.length - 0) = packetHeaderSize := by omega
  have hpiece : (s.source.bytes.take packetHeaderSize).length = packetHeaderSize := by
    rw [length_take]
    omega
  have hne : s.source.bytes.take packetHeaderSize ≠ [] := by
    intro hnil
    rw [hnil] at hpiece
    exact absurd hpiece (by decide)
  have hreceived : header.overwrite 0 (s.source.bytes.take packetHeaderSize) =
      s.source.bytes.take packetHeaderSize := by
    rw [List.overwrite, take_zero, nil_append, hpiece, drop_of_length_le (by omega),
      append_nil]
  have hfield : lengthField (s.source.bytes.take packetHeaderSize) =
      lengthField s.source.bytes := by
    conv_rhs => rw [← take_append_drop packetHeaderSize s.source.bytes]
    exact (lengthField_append (by omega)).symm
  rw [pollRead_eq_readHeader hhandshake hzero hcount hheader, readHeader, hzero,
    if_neg (by decide)]
  dsimp only
  rw [Source.pollRead_upTo h]
  dsimp only
  rw [hcap, if_neg hne, if_neg (by omega), hcount, if_neg (by omega), hreceived, hfield]
  rfl

theorem pollRead_header_short (hshort : lengthField s.source.bytes < packetHeaderSize) :
    s.pollRead cap = .error (.panic "attempt to subtract with overflow") := by
  rw [pollRead_header_whole hhandshake hzero hcount hheader hlength h hn hbytes,
    checkedSub_of_lt hshort]
  rfl

theorem pollRead_header_packet (hfield : packetHeaderSize ≤ lengthField s.source.bytes) :
    s.pollRead cap = s.pastHeader.readRequested cap := by
  rw [pollRead_header_whole hhandshake hzero hcount hheader hlength h hn hbytes,
    checkedSub_of_le hfield]
  exact keepHeader_readRequested rfl

end Whole

end Header

/-! ### One poll -/

/-- A poll that keeps the promise. -/
inductive Delivers (ending : Ending) (data : List UInt8) :
    TdsResult (PollResult (List UInt8)) → Prop where
  | pending {s'} (h : Framed ending data s') : Delivers ending data (.ok (.pending, s'))
  | bytes {b bs rest s'} (hdata : data = b :: bs ++ rest) (h : Framed ending rest s') :
    Delivers ending data (.ok (.ready (.ok (b :: bs)), s'))
  | ended {s'} (hbytes : s'.source.bytes = []) (h : Framed ending data s') :
    Delivers ending data (.ok (.ready (.ok []), s'))

/-- A poll that breaks it: a panic, or an end where there is none. -/
inductive Breaks : TdsResult (PollResult (List UInt8)) → Prop where
  | panics (e : Error) : Breaks (.error e)
  | early {s' : TlsOverTdsStream} (h : s'.source.bytes ≠ []) : Breaks (.ok (.ready (.ok []), s'))

/-- A stream without bytes has nothing left to deliver. -/
theorem Framed.ended (h : Framed ending data s) (hbytes : s.source.bytes = []) :
    data = [] ∧ ending = .closed := by
  obtain ⟨part, packets, rest, -, hsplit, hdata, hpackets, hrest⟩ := h.bytes
  rw [hbytes] at hsplit
  obtain ⟨rfl, hpast⟩ := append_eq_nil_iff.mp hsplit.symm
  obtain ⟨hflat, rfl⟩ := append_eq_nil_iff.mp hpast
  have hnone : packets = [] := by
    refine eq_nil_iff_forall_not_mem.mpr fun p hp => ?_
    have hlength := (hpackets p hp).header
    rw [flatten_eq_nil_iff.mp hflat p hp] at hlength
    exact absurd hlength (by decide)
  subst hnone
  refine ⟨hdata, ?_⟩
  cases ending with
  | closed => rfl
  | malformed => exact absurd hrest.1 (by decide)

/-- A poll that takes no byte leaves the stream as it was. -/
theorem Framed.suspend (h : Framed ending data s) :
    Framed ending data { s with source := ⟨s.source.bytes, s.source.answers.tail⟩ } :=
  ⟨h.handshake, h.header, h.counter, h.live.tail, h.bytes⟩

/-- Reads from the current payload: only behind a header that announces none is there a choice. -/
theorem readRequested_framed (h : Framed ending data s) (hcap : 0 < cap) :
    ((s.remainingReadPacketPayloadLength = 0 →
        s.source.bytes = [] ∨ s.source.answers.head = .pending) →
      Delivers ending data (s.readRequested cap)) ∧
    (¬ (s.remainingReadPacketPayloadLength = 0 →
        s.source.bytes = [] ∨ s.source.answers.head = .pending) →
      Breaks (s.readRequested cap)) := by
  rcases h.live.head_cases with hhead | ⟨n, hhead⟩
  · rw [readRequested_pending hhead]
    exact ⟨fun _ => .pending h.suspend, fun hnot => absurd (fun _ => .inr hhead) hnot⟩
  by_cases hzero : s.remainingReadPacketPayloadLength = 0
  · rw [readRequested_empty hhead hzero]
    refine ⟨fun hok => ?_, fun hnot => .early fun hbytes => hnot fun _ => .inl hbytes⟩
    rcases hok hzero with hbytes | hpending
    · exact .ended hbytes h.suspend
    · rw [hhead] at hpending
      cases hpending
  · refine ⟨fun _ => ?_, fun hnot => absurd (fun hz => absurd hz hzero) hnot⟩
    obtain ⟨part, packets, rest, hlength, hsplit, hdata, hpackets, hrest⟩ := h.bytes
    have hne : part ≠ [] := by
      rintro rfl
      exact hzero hlength.symm
    obtain ⟨b, bs, part', rfl, hread⟩ := readRequested_upTo hhead hlength hne hcap hsplit
    rw [hread]
    refine .bytes (hdata.trans (append_assoc _ _ _)) ?_
    exact ⟨h.handshake, h.header, h.counter, h.live.tail,
      part', packets, rest, rfl, rfl, rfl, hpackets, hrest⟩

/-- Where a header is due, the stream has ended, a packet follows, or a header that is none. -/
theorem Framed.header_cases (h : Framed ending data s)
    (hzero : s.remainingReadPacketPayloadLength = 0) :
    s.source.bytes = [] ∨
      (packetHeaderSize ≤ s.source.bytes.length ∧ lengthField s.source.bytes < packetHeaderSize) ∨
      ∃ (p : List UInt8) (packets : List (List UInt8)) (rest : List UInt8),
        s.source.bytes = p ++ (packets.flatten ++ rest) ∧
        data = payload p ++ (packets.map payload).flatten ∧ TdsPacket p ∧
        (∀ q ∈ packets, TdsPacket q) ∧ ending.Fits rest := by
  obtain ⟨part, packets, rest, hpart, hsplit, hdata, hpackets, hrest⟩ := h.bytes
  rw [hzero, length_eq_zero_iff] at hpart
  subst hpart
  cases packets with
  | nil =>
    obtain rfl : s.source.bytes = rest := hsplit
    cases ending with
    | closed => exact .inl hrest
    | malformed => exact .inr (.inl hrest)
  | cons p packets =>
    refine .inr (.inr ⟨p, packets, rest, ?_, ?_, hpackets p mem_cons_self,
      fun q hq => hpackets q (mem_cons_of_mem _ hq), hrest⟩)
    · rw [hsplit, nil_append, flatten_cons, append_assoc]
    · rw [hdata, nil_append, map_cons, flatten_cons]

/-- Behind the header of a packet, its payload is due. -/
theorem Framed.pastHeader (h : Framed ending data s) {p rest : List UInt8}
    {packets : List (List UInt8)} (hp : TdsPacket p)
    (hsplit : s.source.bytes = p ++ (packets.flatten ++ rest))
    (hdata : data = payload p ++ (packets.map payload).flatten)
    (hpackets : ∀ q ∈ packets, TdsPacket q) (hrest : ending.Fits rest) :
    Framed ending data s.pastHeader := by
  have hheader := hp.header
  have hfield : lengthField s.source.bytes = p.length := by
    rw [hsplit, lengthField_append hheader, hp.length]
  have htake : (s.source.bytes.take packetHeaderSize).length = packetHeaderSize := by
    rw [length_take, hsplit, length_append]
    omega
  refine ⟨h.handshake, ⟨_, rfl, htake⟩, rfl, h.live.tail, payload p, packets, rest, ?_, ?_, hdata,
    hpackets, hrest⟩
  · change (p.drop packetHeaderSize).length = lengthField s.source.bytes - packetHeaderSize
    rw [hfield, length_drop]
  · change s.source.bytes.drop packetHeaderSize = _
    rw [hsplit, drop_append_of_le_length hheader]
    rfl

/-- A poll inside a payload; no header is due. -/
theorem pollRead_payload (h : Framed ending data s)
    (hpos : s.remainingReadPacketPayloadLength ≠ 0) (hcap : 0 < cap) :
    Delivers ending data (s.pollRead cap) := by
  have hread : s.pollRead cap = s.readRequested cap := by
    rw [pollRead, h.handshake, if_neg Bool.false_ne_true, if_pos (Nat.pos_of_ne_zero hpos)]
  rw [hread]
  exact (readRequested_framed h hcap).1 fun hzero => absurd hzero hpos

/-- A poll that finds bytes where a header is due. -/
theorem pollRead_header (h : Framed ending data s) (hzero : s.remainingReadPacketPayloadLength = 0)
    (hbytes : s.source.bytes ≠ []) (hhead : s.source.answers.head = .upTo n) (hcap : 0 < cap) :
    (s.WholeHeader → Delivers ending data (s.pollRead cap)) ∧
      (¬ s.WholeHeader → Breaks (s.pollRead cap)) := by
  obtain ⟨header, hheader, hlength⟩ := h.header
  by_cases hn : packetHeaderSize ≤ n + 1
  swap
  · rw [pollRead_header_split h.handshake hzero h.counter hheader hlength hhead hbytes
      (Nat.lt_of_not_le hn)]
    exact ⟨fun hwhole => absurd (hwhole hzero hbytes n hhead).1 hn, fun _ => .panics _⟩
  rcases h.header_cases hzero with hnil | ⟨hlong, hshort⟩ |
    ⟨p, packets, rest, hsplit, hdata, hp, hpackets, hrest⟩
  · exact absurd hnil hbytes
  · rw [pollRead_header_short h.handshake hzero h.counter hheader hlength hhead hn hlong hshort]
    refine ⟨fun hwhole => ?_, fun _ => .panics _⟩
    exact absurd (hwhole hzero hbytes n hhead).2.1 (Nat.not_le.mpr hshort)
  · have hpheader := hp.header
    have hfield : lengthField s.source.bytes = p.length := by
      rw [hsplit, lengthField_append hpheader, hp.length]
    have hlong : packetHeaderSize ≤ s.source.bytes.length := by
      rw [hsplit, length_append]
      omega
    rw [pollRead_header_packet h.handshake hzero h.counter hheader hlength hhead hn hlong
      (by omega)]
    -- what is left of the condition is about a header that announces no payload
    have hwhole : s.WholeHeader ↔ (s.pastHeader.remainingReadPacketPayloadLength = 0 →
        s.pastHeader.source.bytes = [] ∨ s.pastHeader.source.answers.head = .pending) := by
      have hempty : s.pastHeader.remainingReadPacketPayloadLength = 0 ↔
          lengthField s.source.bytes = packetHeaderSize := by
        change lengthField s.source.bytes - packetHeaderSize = 0 ↔ _
        omega
      have hlast : s.pastHeader.source.bytes = [] ↔ s.source.bytes.length = packetHeaderSize := by
        change s.source.bytes.drop packetHeaderSize = [] ↔ _
        rw [drop_eq_nil_iff]
        omega
      rw [hempty, hlast]
      refine ⟨fun hw => (hw hzero hbytes n hhead).2.2, fun hw _ _ m hm => ?_⟩
      rw [hhead] at hm
      cases hm
      exact ⟨hn, by omega, hw⟩
    rw [hwhole]
    exact readRequested_framed (h.pastHeader hp hsplit hdata hpackets hrest) hcap

/-- **One poll.**  It keeps the promise exactly if the header that is due is whole. -/
theorem pollRead_framed (h : Framed ending data s) (hcap : 0 < cap) :
    (s.WholeHeader → Delivers ending data (s.pollRead cap)) ∧
      (¬ s.WholeHeader → Breaks (s.pollRead cap)) := by
  obtain ⟨header, hheader, -⟩ := h.header
  by_cases hzero : s.remainingReadPacketPayloadLength = 0
  swap
  · refine ⟨fun _ => pollRead_payload h hzero hcap, fun hnot => absurd ?_ hnot⟩
    exact fun hz => absurd hz hzero
  rcases h.live.head_cases with hhead | ⟨n, hhead⟩
  · rw [pollRead_header_pending h.handshake hzero h.counter hheader hhead]
    refine ⟨fun _ => .pending h.suspend, fun hnot => absurd ?_ hnot⟩
    intro _ _ m hm
    rw [hhead] at hm
    cases hm
  · by_cases hbytes : s.source.bytes = []
    · rw [pollRead_header_ended h.handshake hzero h.counter hheader hhead hbytes]
      refine ⟨fun _ => .ended rfl ?_, fun hnot => absurd (fun _ hne => absurd hbytes hne) hnot⟩
      simpa only [hbytes] using h.suspend
    · exact pollRead_header h hzero hbytes hhead hcap

/-! ### Runs -/

theorem Framed.transparent_iff (h : Framed ending data s) {caps : List ℕ}
    (hcaps : ∀ c ∈ caps, 0 < c) :
    Transparent ending caps data s ↔ Throughout WholeHeader caps s := by
  induction caps generalizing data s with
  | nil => exact iff_of_true trivial trivial
  | cons cap caps ih =>
    have hrest : ∀ c ∈ caps, 0 < c := fun c hc => hcaps c (mem_cons_of_mem _ hc)
    obtain ⟨hdelivers, hbreaks⟩ := pollRead_framed h (hcaps cap mem_cons_self)
    rw [Transparent, Throughout]
    by_cases hwhole : s.WholeHeader
    · have hpoll := hdelivers hwhole
      generalize s.pollRead cap = result at hpoll ⊢
      cases hpoll with
      | pending h' =>
        dsimp only
        rw [ih h' hrest]
        exact (and_iff_right hwhole).symm
      | @bytes b bs rest s' hdata h' =>
        dsimp only
        rw [and_iff_right hwhole, ← ih h' hrest]
        refine ⟨fun ⟨rest', hdata', htransparent⟩ => ?_,
          fun htransparent => ⟨rest, hdata, htransparent⟩⟩
        rw [hdata, append_cancel_left_eq] at hdata'
        rw [hdata']
        exact htransparent
      | @ended s' hbytes h' =>
        obtain ⟨rfl, hending⟩ := h'.ended hbytes
        dsimp only
        rw [ih h' hrest]
        exact ⟨fun ⟨_, _, _, hrun⟩ => ⟨hwhole, hrun⟩, fun ⟨_, hrun⟩ => ⟨rfl, hending, hbytes, hrun⟩⟩
    · have hpoll := hbreaks hwhole
      generalize s.pollRead cap = result at hpoll ⊢
      refine iff_of_false ?_ fun hrun => hwhole hrun.1
      cases hpoll with
      | panics e => exact id
      | early hbytes => exact fun hend => hbytes hend.2.2.1

/-- **Transparency.**  The payloads of the packets are delivered in order, and then how the stream
ends, exactly if the polls meet whole headers only. -/
theorem transparent_iff_wholeHeader {packets : List (List UInt8)} {rest : List UInt8}
    (hpackets : ∀ p ∈ packets, TdsPacket p) (ending : Ending) (hrest : ending.Fits rest)
    {answers : Stream' Answer} (hlive : NeverFails answers) (sink : Sink) {caps : List ℕ}
    (hcaps : ∀ c ∈ caps, 0 < c) :
    Transparent ending caps (packets.map payload).flatten
        (new ⟨packets.flatten ++ rest, answers⟩ sink).tlsHandshakeStarting ↔
      Throughout WholeHeader caps
        (new ⟨packets.flatten ++ rest, answers⟩ sink).tlsHandshakeStarting := by
  refine Framed.transparent_iff ?_ hcaps
  exact ⟨rfl, ⟨_, rfl, rfl⟩, rfl, hlive, [], packets, rest, rfl, rfl, rfl, hpackets, hrest⟩

/-- A packet of two bytes, read with a buffer for one and one for more. -/
theorem transparent_iff_wholeHeader_twoBytes :
    Transparent .closed [1, 4, 4] [0xAA, 0xBB]
      (new ⟨[0x12, 1, 0, 10, 0, 0, 1, 0, 0xAA, 0xBB], fun _ => .upTo 7⟩
        ⟨[], fun _ => .pending⟩).tlsHandshakeStarting := by
  have hpacket : TdsPacket [0x12, 1, 0, 10, 0, 0, 1, 0, 0xAA, 0xBB] := ⟨by decide, by decide⟩
  refine (@transparent_iff_wholeHeader [[0x12, 1, 0, 10, 0, 0, 1, 0, 0xAA, 0xBB]] []
    (by simpa using hpacket) .closed rfl (fun _ => .upTo 7) (by intro k e h; cases h)
    ⟨[], fun _ => .pending⟩ [1, 4, 4] (by decide)).mpr ?_
  refine ⟨fun _ _ n hn => ?_, fun hzero => ?_, fun _ hbytes => ?_, trivial⟩
  · cases hn
    decide
  · exact absurd hzero (by decide)
  · exact absurd rfl hbytes

/-- A header in two pieces and one with too small a length make the read panic, and a packet without
payload hides the packet behind it. -/
theorem handshake_read_breaks :
    TdsPacket [0x12, 1, 0, 9, 0, 0, 1, 0, 0xAA] ∧ NeverFails (fun _ => .upTo 3) ∧
      ¬ Transparent .closed [1] [0xAA]
        (new ⟨[0x12, 1, 0, 9, 0, 0, 1, 0, 0xAA], fun _ => .upTo 3⟩
          ⟨[], fun _ => .pending⟩).tlsHandshakeStarting ∧
      ¬ Transparent .malformed [1] []
        (new ⟨[0x12, 1, 0, 7, 0, 0, 1, 0], fun _ => .upTo 7⟩
          ⟨[], fun _ => .pending⟩).tlsHandshakeStarting ∧
      ¬ Transparent .closed [1] [0xAA]
        (new ⟨[0x12, 0, 0, 8, 0, 0, 1, 0, 0x12, 1, 0, 9, 0, 0, 2, 0, 0xAA], fun _ => .upTo 7⟩
          ⟨[], fun _ => .pending⟩).tlsHandshakeStarting := by
  refine ⟨⟨by decide, by decide⟩, fun _ _ h => (nomatch h), id, id, ?_⟩
  rintro ⟨hdata, -⟩
  cases hdata

end TlsOverTdsStream

end MssqlTds
