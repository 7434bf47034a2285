import MssqlTds.Io.Bookkeeping
import MssqlTds.Transport.BulkReaders

/-!
# Messages survive the wire

The packets that a writer makes of a message, put to a reader of the same packet size, give its
bytes back: in reads of any lengths, and however the network cuts the packets.  `OneMessage` is what
holds of the packets that are left, and `message_read_back` says it of a whole message.
-/

namespace MssqlTds

open PacketWriter NetworkTransport EState List

/-- Well-formed packets of which the last one ends the message, and only that one may be empty. -/
def OneMessage (size : ℕ) : List (List UInt8) → Prop
  | [] => True
  | p :: ps => WellFormedPacket size p ∧ (hasEom p = true ↔ ps = []) ∧ (ps ≠ [] → payload p ≠ []) ∧
    OneMessage size ps

theorem oneMessage_of_forall {size : ℕ} {packets : List (List UInt8)}
    (hwf : ∀ p ∈ packets, WellFormedPacket size p)
    (heom : ∀ k (h : k < packets.length), hasEom packets[k] = true ↔ k + 1 = packets.length)
    (hfull : ∀ p ∈ packets.dropLast, payload p ≠ []) : OneMessage size packets := by
  induction packets with
  | nil => trivial
  | cons p ps ih =>
    refine ⟨hwf p mem_cons_self, (heom 0 (Nat.succ_pos _)).trans (by simp), fun hne => ?_,
      ih (fun q hq => hwf q (mem_cons_of_mem _ hq))
        (fun k hk => (heom (k + 1) (Nat.succ_lt_succ hk)).trans (by simp)) fun q hq => ?_⟩
    · exact hfull p (by rw [dropLast_cons_of_ne_nil hne]; exact mem_cons_self)
    · cases ps with
      | nil => cases hq
      | cons p' ps => exact hfull q (mem_cons_of_mem _ hq)

namespace ByteQueue

/-- The queue has the rest of one message, with these bytes. -/
def Ahead (size : ℕ) (bytes : List UInt8) (q : ByteQueue) : Prop :=
  ∃ packets, OneMessage size packets ∧ q.raw = packets.flatten ∧ (q.eom = true → packets = []) ∧
    bytes = q.data ++ packets.flatMap payload

/-- One read, within the message. -/
theorem Ahead.fetch {size n : ℕ} {bytes : List UInt8} {q : ByteQueue} (h : q.Ahead size bytes)
    (hn : n ≤ bytes.length) :
    ∃ q', fetch size n false 0 q = .ok (bytes.take n, q') ∧ q'.Ahead size (bytes.drop n) := by
  obtain ⟨packets, hpackets, hraw, heom, rfl⟩ := h
  induction packets generalizing q with
  | nil =>
    rw [flatMap_nil, append_nil] at hn ⊢
    exact ⟨_, fetch_enough hn, [], trivial, hraw, fun _ => rfl, by simp⟩
  | cons p ps ih =>
    by_cases henough : n ≤ q.data.length
    · rw [take_append_of_le_length henough, drop_append_of_le_length henough]
      exact ⟨_, fetch_enough henough, p :: ps, hpackets, hraw, heom, rfl⟩
    · obtain ⟨hp, hlast, hsome, hps⟩ := hpackets
      have hopen : q.eom = false := by
        cases hq : q.eom with
        | false => rfl
        | true => cases heom hq
      -- only the last packet may be empty, and then there was nothing left to read
      have hne : q.data ++ payload p ≠ [] := by
        intro hnil
        obtain ⟨hdata, hempty⟩ := append_eq_nil_iff.mp hnil
        obtain rfl : ps = [] := not_not.mp fun hps => hsome hps hempty
        simp [hdata, hempty] at hn henough
        omega
      have hok : Acceptable p := fun hlen => hlast.mpr (not_not.mp fun hps => hsome hps (by
        rw [payload, drop_eq_nil_iff, hlen]))
      rw [fetch_refill (Nat.lt_of_not_le henough) (by rw [hopen]; rfl), hraw, flatten_cons,
        splitPacket_append hp, if_pos hok]
      dsimp only
      rw [if_neg hne, flatMap_cons, ← append_assoc]
      exact ih (q := ⟨q.data ++ payload p, hasEom p, ps.flatten⟩) hps rfl hlast.mp
        (by simpa using hn)

end ByteQueue

namespace NetworkTransport

theorem Feeds.readBytes {size n : ℕ} {t : NetworkTransport} {q : ByteQueue} (hsize : 8 < size)
    (h : t.Feeds size q) : Fetched size [] (readBytes n t) (q.fetch size n false 0) := by
  unfold NetworkTransport.readBytes
  rw [bind_ok get_apply, h.carries.size_eq]
  exact bulkLoop_fetched hsize (by omega) le_rfl h le_rfl

/-- The transport gives the bytes in reads of any lengths. -/
def Yields (t : NetworkTransport) (bytes : List UInt8) : Prop :=
  ∀ lengths : List ℕ, lengths.sum ≤ bytes.length →
    ∃ results t', performAll (lengths.map .readBytes) t = .ok results t' ∧
      results.map length = lengths ∧ results.flatten = bytes.take lengths.sum

theorem Feeds.yields {size : ℕ} (hsize : 8 < size) {t : NetworkTransport} {q : ByteQueue}
    {bytes : List UInt8} (h : t.Feeds size q) (hq : q.Ahead size bytes) : t.Yields bytes := by
  intro lengths hsum
  induction lengths generalizing t q bytes with
  | nil => exact ⟨[], t, rfl, rfl, by simp⟩
  | cons n lengths ih =>
    rw [sum_cons] at hsum ⊢
    obtain ⟨q', hfetch, hq'⟩ := hq.fetch (show n ≤ bytes.length by omega)
    have hread := Feeds.readBytes (n := n) hsize h
    rw [hfetch] at hread
    generalize hbytes : NetworkTransport.readBytes n t = r at hread
    cases hread with
    | @ok _ t₁ _ h₁ =>
      obtain ⟨results, t', hrun, hlengths, hflatten⟩ := ih h₁ hq' (by rw [length_drop]; omega)
      refine ⟨bytes.take n :: results, t', ?_, ?_, ?_⟩
      · rw [map_cons, performAll]
        exact (bind_ok hbytes).trans (bind_ok hrun)
      · rw [map_cons, hlengths, length_take, Nat.min_eq_left (by omega)]
      · rw [flatten_cons, hflatten, take_add]

end NetworkTransport

theorem bookkept_writeMessage {n : Network} (ops : List WriteOp) :
    Keeps (Bookkept n) (Bookkept n) (writeMessage ops) := by
  have hops : Keeps (Bookkept n) (Bookkept n) (ops.forM WriteOp.run) := by
    induction ops with
    | nil => exact .pure ()
    | cons op ops ih => exact ((Bookkept.sendInvariant n).run op).bind fun _ => ih
  exact hops.bind fun _ => (Bookkept.sendInvariant n).finalize

/-- **A message survives the wire.**  Whatever is written to a message, a reader of its packets gets
the bytes back in reads of any lengths, as long as the network delivers. -/
theorem message_read_back (t : PacketType) (net : Network) (timeout : Option ℕ)
    (handle : Option CancelHandle) (ops : List WriteOp) (hge : 16 ≤ net.packetSize)
    (hle : net.packetSize ≤ 65535) (hs : ∀ k, (net.env k).Succeeds) :
    ∃ w' packets, writeMessage ops (.new t net timeout handle) = .ok () w' ∧
      w'.network.log = net.log ++ packets.map SendRecord.complete ∧
      ∀ polls, (start net.packetSize packets polls).Delivering →
        (start net.packetSize packets polls).Yields (ops.flatMap WriteOp.bytes) := by
  obtain ⟨w', packets, hrun, hlog, hframed⟩ :=
    writeMessage_framed t net timeout handle ops hge (by omega) hs
  refine ⟨w', packets, hrun, hlog, fun polls hdel => ?_⟩
  have hbook : Bookkept net w' := by
    have hends := bookkept_writeMessage ops _
      (.new t net timeout handle (Nat.le_trans (by decide) hge))
    rwa [hrun] at hends
  have hwf : ∀ p ∈ packets, WellFormedPacket net.packetSize p := by
    intro p hp
    have hsent : SendRecord.complete p ∈ sendsSince net w' := by
      rw [sendsSince, hlog, drop_left]
      exact mem_map_of_mem hp
    have hfits := hframed.fits p hp
    refine ⟨(hbook.packets _ hsent).1.1, hfits, ?_⟩
    rw [hframed.length p hp, Nat.mod_eq_of_lt (by omega)]
  have hmessage : OneMessage net.packetSize packets :=
    oneMessage_of_forall hwf hframed.eom fun p hp => by
      rw [payload, ne_eq, drop_eq_nil_iff, hframed.full p hp]
      simp only [packetHeaderSize]
      omega
  obtain ⟨raw, hholds, hraw⟩ := (start_stands (by omega) hwf polls).held
  have hfeeds : Feeds _ net.packetSize ⟨[], false, packets.flatten⟩ := ⟨⟨raw, hholds, hraw⟩, hdel⟩
  exact hfeeds.yields (by omega) ⟨packets, hmessage, rfl, by simp, hframed.payloads.symm⟩

/-- Four bytes, which arrive one by one. -/
theorem message_read_back_four :
    ∃ w' packets polls, writeMessage [.u32 7]
      (.new .sqlBatch (readyNetwork 16) none none) = .ok () w' ∧
      w'.network.log = [] ++ packets.map SendRecord.complete ∧
      (start 16 packets polls).Yields [7, 0, 0, 0] := by
  obtain ⟨w', packets, hrun, hlog, hread⟩ := message_read_back .sqlBatch (readyNetwork 16) none none
    [.u32 7] le_rfl (by decide) fun _ => SendEnv.ready_succeeds
  refine ⟨w', packets, .replicate (packets.flatten.length + 1) (.ready 0), hrun, hlog, hread _ ?_⟩
  exact ⟨rfl, by simp [start], by simp [start, countP_replicate, ReadPoll.isReady]⟩

end MssqlTds
