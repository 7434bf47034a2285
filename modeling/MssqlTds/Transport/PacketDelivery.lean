import MssqlTds.Transport.RawStream

/-!
# The readers deliver the payload of the packets

`Streams t size data eom packets` is what a transport stands for when the bytes to come are packets:
`data` is what its readers get next, `eom` says that the message ends with it, and `packets` are the
packets behind, some of whose bytes may be parked in the buffer.  A refill moves the payload of the
first packet behind `data`, and a reader takes bytes off the front.
-/

namespace MssqlTds

open Bytes PacketWriter List

/-! ### Raw bytes that are packets -/

section Packets

variable {size : ℕ} {p q rest more : List UInt8} {packets : List (List UInt8)}

/-- A stream has one first packet. -/
theorem WellFormedPacket.append_inj (hp : WellFormedPacket size p) (hq : WellFormedPacket size q)
    (h : p ++ rest = q ++ more) : p = q ∧ rest = more := by
  refine List.append_inj h ?_
  rw [← hp.length, ← hq.length, ← @lengthField_append p rest hp.header, h,
    lengthField_append hq.header]

theorem eq_cons_of_append (hwf : ∀ p ∈ packets, WellFormedPacket size p)
    (hp : WellFormedPacket size p) (h : packets.flatten = p ++ rest) :
    ∃ ps, packets = p :: ps ∧ rest = ps.flatten := by
  cases packets with
  | nil =>
    have hheader := hp.header
    have hlen := congrArg List.length h
    simp only [flatten_nil, length_nil, length_append, packetHeaderSize] at hlen hheader
    omega
  | cons q qs =>
    obtain ⟨rfl, rfl⟩ := hp.append_inj (hwf q mem_cons_self) (h.symm.trans flatten_cons)
    exact ⟨qs, rfl, rfl⟩

/-- Packets do not start with a length field that no packet has. -/
theorem not_badLength_flatten (hwf : ∀ p ∈ packets, WellFormedPacket size p) :
    ¬ BadLength size packets.flatten := by
  rintro ⟨hheader, hbad⟩
  cases packets with
  | nil => simp [packetHeaderSize] at hheader
  | cons q qs =>
    have hq := hwf q mem_cons_self
    have hlow := hq.header
    have hhigh := hq.fits
    rw [flatten_cons, lengthField_append hlow, hq.length] at hbad
    omega

/-- Packets that end before the first of them does are none. -/
theorem eq_nil_of_unfinished (hwf : ∀ p ∈ packets, WellFormedPacket size p)
    (h : Unfinished size packets.flatten) : packets = [] := by
  cases packets with
  | nil => rfl
  | cons q qs =>
    have hq := hwf q mem_cons_self
    have hlow := hq.header
    rw [Unfinished, flatten_cons, lengthField_append hlow, hq.length, length_append] at h
    omega

end Packets

/-! ### Refills -/

namespace NetworkTransport

/-- The transport stands for the bytes `data` to read, whether the message ends with them, and the
packets behind. -/
structure Streams (t : NetworkTransport) (size : ℕ) (data : List UInt8) (eom : Bool)
    (packets : List (List UInt8)) : Prop where
  wellFormed : ∀ p ∈ packets, WellFormedPacket size p
  held : ∃ raw, t.Holds size data raw eom ∧ raw ++ t.wire = packets.flatten

/-- Why a refill can fail: the next packet is malformed, there is none, or the network does not
deliver it. -/
inductive Stops (t : NetworkTransport) (packets : List (List UInt8)) : Error → Prop
  | malformed {p : List UInt8} {ps : List (List UInt8)} (hpackets : packets = p :: ps)
      (hbad : ¬ Acceptable p) : Stops t packets TdsReadBuffer.payloadFreeError
  | closed (hpackets : packets = []) : Stops t packets (closedError 0)
  | undelivered {e : Error} (hfail : ¬ t.Delivering) (he : ∀ message, e ≠ .panic message) :
      Stops t packets e

variable {t : NetworkTransport} {size : ℕ} {data : List UInt8} {eom : Bool}
  {packets : List (List UInt8)}

theorem Streams.carries (h : t.Streams size data eom packets) :
    t.Carries size data eom packets.flatten := h.held

theorem Stops.not_panic {e : Error} (h : t.Stops packets e) (message : String) :
    e ≠ .panic message := by
  cases h with
  | malformed _ _ => simp [TdsReadBuffer.payloadFreeError]
  | closed _ => simp [closedError]
  | undelivered _ he => exact he message

theorem RawStops.stops {e : Error} (hwf : ∀ p ∈ packets, WellFormedPacket size p)
    (h : t.RawStops size packets.flatten e) : t.Stops packets e := by
  cases h with
  | badLength hbad => exact absurd hbad (not_badLength_flatten hwf)
  | malformed hraw hp hbad =>
    obtain ⟨ps, hpackets, -⟩ := eq_cons_of_append hwf hp hraw
    exact .malformed hpackets hbad
  | closed hshort =>
    obtain rfl := eq_nil_of_unfinished hwf hshort
    exact .closed rfl
  | undelivered hfail he => exact .undelivered hfail he

/-- How a refill ends: the payload of the first packet is behind the bytes to read, or the call
fails. -/
inductive Refilled (t : NetworkTransport) (size : ℕ) (data : List UInt8)
    (packets : List (List UInt8)) : EStateM.Result Error NetworkTransport Unit → Prop
  | packet {p : List UInt8} {ps : List (List UInt8)} {t' : NetworkTransport}
      (hpackets : packets = p :: ps) (hok : Acceptable p)
      (hstreams : t'.Streams size (data ++ payload p) (hasEom p) ps)
      (hmore : t.Delivering → t'.Delivering) : Refilled t size data packets (.ok () t')
  | stopped {e : Error} {t' : NetworkTransport} (hstops : t.Stops packets e)
      (hbounded : t'.Bounded) :
      Refilled t size data packets (.error e t')

theorem Streams.bounded (h : t.Streams size data eom packets) : t.Bounded := h.carries.bounded

theorem Streams.remaining (h : t.Streams size data eom packets) :
    t.getRemainingByteCount = data.length := h.carries.remaining

theorem Streams.size_eq (h : t.Streams size data eom packets) : t.maxPacketSize = size :=
  h.carries.size_eq

theorem Streams.eom_eq (h : t.Streams size data eom packets) : t.endOfMessage = eom :=
  h.carries.eom_eq

theorem RawRefilled.refilled {r : EStateM.Result Error NetworkTransport Unit}
    (h : RawRefilled t size data packets.flatten r)
    (hwf : ∀ p ∈ packets, WellFormedPacket size p) : Refilled t size data packets r := by
  cases h with
  | packet hraw hp hok hcarries hmore =>
    obtain ⟨ps, rfl, rfl⟩ := eq_cons_of_append hwf hp hraw
    have hps : ∀ q ∈ ps, WellFormedPacket size q := fun q hq => hwf q (mem_cons_of_mem _ hq)
    exact .packet rfl hok ⟨hps, hcarries⟩ hmore
  | stopped hstops hbounded => exact .stopped (hstops.stops hwf) hbounded

theorem readTdsPacket_refilled (h : t.Streams size data eom packets) (hdata : data.length ≤ size) :
    Refilled t size data packets (readTdsPacket t) :=
  (readTdsPacket_raw h.carries hdata).refilled h.wellFormed

/-- The non-blocking refill appends a packet or leaves what the transport stands for alone. -/
theorem tryReadTdsPacket_streams (h : t.Streams size data eom packets) :
    (∃ t', tryReadTdsPacket t = .ok true t' ∧ Refilled t size data packets (.ok () t')) ∨
      (∃ t', tryReadTdsPacket t = .ok false t' ∧ t'.Streams size data eom packets) ∨
      ∃ e t', tryReadTdsPacket t = .error e t' ∧ t.Stops packets e ∧ t'.Bounded := by
  rcases tryReadTdsPacket_raw h.carries with ⟨t', hrun, hrefilled⟩ | ⟨t', hrun, hcarries⟩ |
    ⟨e, t', hrun, hstops, hbounded⟩
  · exact .inl ⟨t', hrun, hrefilled.refilled h.wellFormed⟩
  · exact .inr (.inl ⟨t', hrun, h.wellFormed, hcarries⟩)
  · exact .inr (.inr ⟨e, t', hrun, hstops.stops h.wellFormed, hbounded⟩)

end NetworkTransport

end MssqlTds
