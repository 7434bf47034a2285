import MssqlTds.Lib.EState
import MssqlTds.Io.PacketWriter

/-!
# What one packet-sending call can do

Every call of `populateHeaderAndSend` ends in one of four ways (`populateHeaderAndSend_cases`): it
is refused before the send is polled, the send is interrupted, the send completes but the call fails
before its accounting, or the packet is sent and accounted for.  Later proofs about the writer use
this case distinction and never open the race between send, deadline and cancellation again.
-/

namespace MssqlTds.PacketWriter

open EState

variable {w : PacketWriter} {l i : Bool}

/-- The send was polled and stopped after `n` bytes. -/
def interrupted (w : PacketWriter) (l i : Bool) (n : ℕ) : PacketWriter :=
  { w.framed l i with
    sendAttempted := true
    sendIncomplete := true
    network := { (w.framed l i).network with
      log := w.network.log ++ [⟨w.packet l i, min n (w.packet l i).length, false⟩] } }

def completed (w : PacketWriter) (l i : Bool) : PacketWriter :=
  { w.framed l i with
    sendAttempted := true
    sendIncomplete := false
    messageComplete := l && !i
    network := { (w.framed l i).network with
      log := w.network.log ++ [⟨w.packet l i, (w.packet l i).length, true⟩]
      resetDispatched := w.network.resetDispatched || (w.headerResetMode ≠ .none && !i)
      dispatchNotes :=
        w.network.dispatchNotes + if w.headerResetMode ≠ .none && !i then 1 else 0 } }

/-- The send completed and the packet is accounted for. -/
def accounted (w : PacketWriter) (l i : Bool) : PacketWriter :=
  { w.completed l i with
    isFirstPacket := false
    packetId := w.packetId + 1
    eomPending := !l
    payloadCursor := (w.framedCursor l i).setPosition (w.savedPosition i) }

theorem settleSend_attempted (d : Bool) (ps : List Poll) (s : SendProgress)
    (h : s.attempted = true) : (settleSend d ps s).1.attempted = true := by
  induction ps generalizing s with
  | nil => exact h
  | cons p ps ih =>
    rw [settleSend]
    split
    · rfl
    · split
      · rfl
      · exact ih _ rfl

variable {ps : List Poll}

theorem raceWithBudget_attempted {d : Bool} {s : SendProgress} {c : Bool}
    (h : (raceWithBudget d ps s).2 = .ok c) : (raceWithBudget d ps s).1.attempted = true := by
  induction ps generalizing s with
  | nil => cases h
  | cons p ps ih =>
    rw [raceWithBudget] at h ⊢
    split at h
    · cases h
    · rw [if_neg ‹_›]
      split at h
      · rfl
      · split at h
        · rw [if_pos ‹_›]
          exact settleSend_attempted d ps (s.poll p) rfl
        · rw [if_neg ‹_›]
          exact ih h

theorem raceUntilCancelled_attempted {d k : Bool} {s : SendProgress} {c : Bool}
    (h : (raceUntilCancelled d k ps s).2 = .ok c) :
    (raceUntilCancelled d k ps s).1.attempted = true := by
  induction ps generalizing s with
  | nil => cases h
  | cons p ps ih =>
    rw [raceUntilCancelled] at h ⊢
    split at h
    · cases h
    · rw [if_neg ‹_›]
      split at h
      · cases h
      · rw [if_neg ‹_›]
        split at h
        · rfl
        · split at h
          · cases h
          · rw [if_neg ‹_›]
            exact ih h

/-- A send that completes was polled. -/
theorem raceSend_attempted {c : Bool} (h : (w.raceSend ps).2 = .ok c) :
    (w.raceSend ps).1.attempted = true := by
  unfold raceSend at h ⊢
  split
  · rename_i handle hh
    rw [hh] at h
    dsimp only at h ⊢
    split
    · rw [if_pos ‹_›] at h
      exact raceWithBudget_attempted h
    · rw [if_neg ‹_›] at h
      exact raceUntilCancelled_attempted h
  · rename_i hh
    rw [hh] at h
    exact raceUntilCancelled_attempted h

theorem awaitSend_cases (ps : List Poll) (data : List UInt8) (w : PacketWriter) :
    (∃ e, awaitSend ps data w = .error e w) ∨
    (∃ e n, awaitSend ps data w = .error e (w.noteSend data ⟨true, n⟩ false)) ∨
    (∃ c n, awaitSend ps data w = .ok c (w.noteSend data ⟨true, n⟩ true)) := by
  unfold awaitSend
  rcases h : w.raceSend ps with ⟨⟨attempted, n⟩, e | c⟩
  · cases attempted with
    | false => exact .inl ⟨e, rfl⟩
    | true => exact .inr (.inl ⟨e, n, rfl⟩)
  · have hatt : (w.raceSend ps).1.attempted = true := raceSend_attempted (c := c) (by rw [h])
    rw [h] at hatt
    subst hatt
    exact .inr (.inr ⟨c, n, rfl⟩)

theorem markSent_noteSend (n : ℕ) (w : PacketWriter) :
    ((w.framed l i).noteSend (w.packet l i) ⟨true, n⟩ true).markSent w.headerResetMode l i =
      w.completed l i := by
  by_cases h : w.headerResetMode = .none <;> cases i <;>
    simp [noteSend, markSent, completed, framed, h, Network.noteResetDispatched]

theorem runFirstPacketCallback_eq (env : SendEnv) (w : PacketWriter) :
    runFirstPacketCallback env w =
      match if w.isFirstPacket then firstPacketCallback env w else .ok () with
      | .ok () => .ok () { w with isFirstPacket := false }
      | .error e => .error e w := by
  simp only [runFirstPacketCallback, bind_apply, get_apply, EState.ite_apply]
  split
  · cases firstPacketCallback env w <;> rfl
  · rename_i hf
    simp only [Bool.not_eq_true] at hf
    rw [pure_apply, ← hf]

theorem firstPacketCallback_ok {env : SendEnv} (h : env.disableSsl = .ok ()) (w : PacketWriter) :
    firstPacketCallback env w = .ok () := by
  unfold firstPacketCallback
  split
  · rw [h, ite_self]
  · rfl

theorem accountSend_eq (n : ℕ) (c : Bool) (env : SendEnv) (w : PacketWriter) :
    accountSend env w.headerResetMode (w.savedPosition i) l i c
        ((w.framed l i).noteSend (w.packet l i) ⟨true, n⟩ true) =
      if w.maxTimeoutSec.isSome && env.expiredAfter then
        .error (.timeoutError "Timeout expired") (w.completed l i)
      else match if w.isFirstPacket then firstPacketCallback env (w.completed l i) else .ok () with
        | .error e => .error e (w.completed l i)
        | .ok () =>
          if c then .error (.operationCancelledError "Request was cancelled") (w.accounted l i)
          else .ok () (w.accounted l i) := by
  simp only [accountSend, bind_apply, EState.ite_apply, get_apply,
    modify_apply, throw_apply, pure_apply, markSent_noteSend]
  split
  · rw [if_pos ‹_›]
  · have hfirst : (w.completed l i).isFirstPacket = w.isFirstPacket := rfl
    rw [if_neg ‹_›, runFirstPacketCallback_eq, hfirst]
    cases (if w.isFirstPacket = true then firstPacketCallback env (w.completed l i) else .ok ())
      <;> rfl

theorem populateHeaderAndSend_eq (w : PacketWriter) (h : (l || !i) = true) :
    populateHeaderAndSend l i w =
      if w.cancelHandle.isSome && w.nextEnv.cancelledAtEntry then
        .error (.operationCancelledError "Request was cancelled") (w.framed l i)
      else if w.maxTimeoutSec.isSome && w.nextEnv.expiredAtEntry then
        .error (.timeoutError "Timeout expired") (w.framed l i)
      else match awaitSend w.nextEnv.polls (w.packet l i) (w.framed l i) with
        | .ok c w' => accountSend w.nextEnv w.headerResetMode (w.savedPosition i) l i c w'
        | .error e w' => .error e w' := by
  have hassert : (!(l || !i)) = false := by rw [h]; rfl
  simp only [populateHeaderAndSend, hassert, bind_apply, EState.ite_apply, get_apply,
    modify_apply, throw_apply, Bool.false_eq_true, if_false]
  split
  · rfl
  split
  · rfl
  · cases awaitSend w.nextEnv.polls (w.packet l i) (w.framed l i) <;> rfl

/-- The ways a packet-sending call ends. -/
theorem populateHeaderAndSend_cases (w : PacketWriter) (h : (l || !i) = true) :
    (∃ e, populateHeaderAndSend l i w = .error e (w.framed l i)) ∨
    (∃ e n, populateHeaderAndSend l i w = .error e (w.interrupted l i n)) ∨
    (∃ e, populateHeaderAndSend l i w = .error e (w.completed l i) ∧ ¬ w.nextEnv.QuietAfter) ∨
    populateHeaderAndSend l i w = .ok () (w.accounted l i) ∨
    (∃ e, populateHeaderAndSend l i w = .error e (w.accounted l i)) := by
  rw [populateHeaderAndSend_eq w h]
  split
  · exact .inl ⟨_, rfl⟩
  split
  · exact .inl ⟨_, rfl⟩
  obtain ⟨e, h⟩ | ⟨e, n, h⟩ | ⟨c, n, h⟩ :=
    awaitSend_cases w.nextEnv.polls (w.packet l i) (w.framed l i)
  · exact .inl ⟨e, by rw [h]⟩
  · exact .inr (.inl ⟨e, n, by rw [h]; rfl⟩)
  rw [h]
  simp only [accountSend_eq]
  split
  · rename_i hexp
    exact .inr (.inr (.inl ⟨_, rfl, fun hq => by simp [hq.1] at hexp⟩))
  split
  · rename_i hcb
    refine .inr (.inr (.inl ⟨_, rfl, fun hq => ?_⟩))
    rw [firstPacketCallback_ok hq.2, ite_self] at hcb
    cases hcb
  · cases c with
    | false => exact .inr (.inr (.inr (.inl rfl)))
    | true => exact .inr (.inr (.inr (.inr ⟨_, rfl⟩)))

/-! ### Undisturbed sends -/

theorem race_quiet {d k : Bool} (h : completesQuietly ps = true) (s : SendProgress) :
    (raceWithBudget d ps s).2 = .ok false ∧ (raceUntilCancelled d k ps s).2 = .ok false := by
  induction ps generalizing s with
  | nil => cases h
  | cons p ps ih =>
    simp only [completesQuietly, Poll.quiet, Bool.and_eq_true, Bool.not_eq_true'] at h
    obtain ⟨⟨hd, hc⟩, hnet⟩ := h
    rcases hp : p.net with _ | ⟨e | u⟩
    · rw [hp] at hnet
      simpa [raceWithBudget, raceUntilCancelled, hd, hc, hp] using ih hnet (s.poll p)
    · simp [hp] at hnet
    · simp [raceWithBudget, raceUntilCancelled, hd, hc, hp, Except.map]

theorem raceSend_quiet (h : completesQuietly ps = true) (w : PacketWriter) :
    (w.raceSend ps).2 = .ok false := by
  unfold raceSend
  split
  · dsimp only
    split
    · exact (race_quiet (k := true) h _).1
    · exact (race_quiet h _).2
  · exact (race_quiet h _).2

/-- A send that succeeds undisturbed is sent and accounted for. -/
theorem populateHeaderAndSend_ok (hl : (l || !i) = true) (h : w.nextEnv.Succeeds) :
    populateHeaderAndSend l i w = .ok () (w.accounted l i) := by
  obtain ⟨hce, hde, hps, hda, hssl⟩ := h
  have hrace := raceSend_quiet hps (w.framed l i)
  have hatt := raceSend_attempted hrace
  have hawait : awaitSend w.nextEnv.polls (w.packet l i) (w.framed l i) =
      .ok false ((w.framed l i).noteSend (w.packet l i)
        ⟨true, ((w.framed l i).raceSend w.nextEnv.polls).1.handed⟩ true) := by
    unfold awaitSend
    rcases hs : (w.framed l i).raceSend w.nextEnv.polls with ⟨⟨attempted, n⟩, r⟩
    rw [hs] at hrace hatt
    simp only at hrace hatt
    rw [hrace, hatt]
  rw [populateHeaderAndSend_eq w hl, hce, hde, hawait]
  simp only [Bool.and_false, Bool.false_eq_true, if_false, accountSend_eq, hda,
    firstPacketCallback_ok hssl, ite_self]

end MssqlTds.PacketWriter
