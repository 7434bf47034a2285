import MssqlTds.Io.MessageFraming

/-!
# Failure bookkeeping of the packet writer

Here sends may complete, fail, or be interrupted by cancellation or a deadline, and a message may be
written on, suspended, resumed, finalized or cancelled after any of that.  The writer's flags are
compared with what the network received, which is read off its log.

`SendInvariant` reduces an invariant of all writer methods to the packet-sending call; `Bookkept` is
the invariant that relates the flags to the log.
-/

namespace MssqlTds

open EState PacketWriter Keeps List

/-! ### Invariants of the writer's methods -/

/-- Properties `P` (kept by success) and `E` (reached by failure) that only depend on the cursor
through its being filled behind the header. -/
structure SendInvariant (P E : PacketWriter → Prop) : Prop where
  size : ∀ {w}, P w → packetHeaderSize ≤ w.packetSize
  filled : ∀ {w}, P w → w.payloadCursor.Filled packetHeaderSize
  cursor : ∀ {w c}, P w → c.Filled packetHeaderSize → P { w with payloadCursor := c }
  send : ∀ l, Keeps P E (populateHeaderAndSend l false)
  weaken : ∀ w, P w → E w

namespace SendInvariant

variable {P E : PacketWriter → Prop} (h : SendInvariant P E)
include h

theorem mapCursor {f : Cursor → Cursor}
    (hf : ∀ c, c.Filled packetHeaderSize → (f c).Filled packetHeaderSize) :
    Keeps P E (mapCursor f) :=
  modify fun _ hw => h.cursor hw (hf _ (h.filled hw))

theorem writeUnchecked (bs : List UInt8) : Keeps P E (writeUnchecked bs) :=
  h.mapCursor fun _ hc => Cursor.filled_write hc

theorem resetCursor : Keeps P E (PacketWriter.mapCursor (·.setPosition packetHeaderSize)) :=
  h.mapCursor fun _ _ => Cursor.filled_setPosition_self

theorem moveOverflow : Keeps P E moveOverflow :=
  get_bind fun _ hw => ite (throw h.weaken _)
    (h.mapCursor fun _ hc => Cursor.filled_copyWithin _ hc (h.size hw))

theorem handleOverflowIfNeeded : Keeps P E handleOverflowIfNeeded :=
  get_bind fun _ _ => ite ((h.send false).bind fun _ => h.moveOverflow) (pure ())

theorem writeChecked (bs : List UInt8) : Keeps P E (writeChecked bs) :=
  (h.writeUnchecked bs).bind fun _ => h.handleOverflowIfNeeded

theorem writeFixedBytes (bs : List UInt8) : Keeps P E (writeFixedBytes bs) := by
  have hbytes : Keeps P E (bs.forM writeByteAsync) := by
    induction bs with
    | nil => exact pure ()
    | cons b bs ih => exact (h.writeChecked [b]).bind fun _ => ih
  exact get_bind fun _ _ => ite (h.writeUnchecked bs) hbytes

theorem writeLoop (fuel : ℕ) (remaining : List UInt8) : Keeps P E (writeLoop fuel remaining) := by
  induction fuel generalizing remaining with
  | zero => exact throw h.weaken _
  | succ fuel ih =>
    refine ite (get_bind fun w _ => ite ?_ (h.writeUnchecked _)) (pure ())
    exact (h.writeUnchecked _).bind fun _ => (h.send false).bind fun _ =>
      h.resetCursor.bind fun _ => ih _

theorem writeStringLoop (fuel : ℕ) (units : Utf16Units) :
    Keeps P E (writeStringLoop fuel units) := by
  induction fuel generalizing units with
  | zero => exact throw h.weaken _
  | succ fuel ih =>
    refine get_bind fun w hw => ite (ite ?_ ?_) ?_
    · rcases units.nextUnit with ⟨_ | unit, units'⟩
      · exact pure ()
      · exact (h.writeChecked _).bind fun _ => (h.writeChecked _).bind fun _ => ih _
    · exact (h.send false).bind fun _ => h.resetCursor.bind fun _ => ih _
    · have hfilled (n : ℕ) : (units.writeLe w.payloadCursor n).2.1.Filled packetHeaderSize :=
        ((units.writeLe_spec w.payloadCursor n).2.1.2 _ (h.filled hw)).1
      exact (h.mapCursor fun _ _ => hfilled _).bind fun _ =>
        ite (h.handleOverflowIfNeeded.bind fun _ => ite (pure ()) (ih _))
          (ite (pure ()) (ih _))

theorem run (op : WriteOp) : Keeps P E op.run := by
  cases op with
  | stringUnicode v => exact h.writeStringLoop _ _
  | slice c => exact h.writeLoop _ _
  | fixedBytes bs => exact h.writeFixedBytes bs
  | suspendResume => exact modify fun _ hw => hw
  | _ => exact h.writeChecked _

theorem finalize : Keeps P E finalize :=
  get_bind fun _ _ =>
    ite ((h.send true).bind fun _ => h.resetCursor) (pure ())

end SendInvariant

/-! ### Runs of one message -/

inductive MessageOp where
  /-- A checked write, or a suspension followed by a resumption. -/
  | write (op : WriteOp)
  | writeUnchecked (bytes : List UInt8)
  | finalize
  | cancelCurrentMessage

/-- The writer call. -/
def MessageOp.run : MessageOp → WriterM Unit
  | write op => op.run
  | writeUnchecked bs => PacketWriter.writeUnchecked bs
  | finalize => PacketWriter.finalize
  | cancelCurrentMessage => PacketWriter.cancelCurrentMessage

/-- Make the calls one after the other, whether they succeed or fail. -/
def runMessage (w : PacketWriter) : List MessageOp → PacketWriter
  | [] => w
  | op :: ops => runMessage (finalState op.run w) ops

/-- No call is made while a send is incomplete. -/
def Disciplined (w : PacketWriter) : List MessageOp → Prop
  | [] => True
  | op :: ops => w.sendIncomplete = false ∧ Disciplined (finalState op.run w) ops

def lastCompleted (sends : List SendRecord) : Option (List UInt8) :=
  ((sends.filter SendRecord.completed).getLast?).map SendRecord.packet

/-- A packet that is all there: a header whose length field agrees with the packet. -/
def IsPacket (p : List UInt8) : Prop :=
  packetHeaderSize ≤ p.length ∧ lengthField p = p.length % 65536

/-- Completed sends that carried a reset bit the server will not be told to ignore. -/
def resetSends (sends : List SendRecord) : List SendRecord :=
  sends.filter fun r => r.completed && hasReset r.packet && !hasIgnore r.packet

/-- Every packet but the first completed one carries the number after that of the last packet
completed before it. -/
def IdChain (sends : List SendRecord) : Prop :=
  ∀ before r after, sends = before ++ r :: after →
    ∀ p, lastCompleted before = some p → packetIdField r.packet = packetIdField p + 1

section Sends

variable {sends : List SendRecord} {r : SendRecord}

theorem lastCompleted_concat : lastCompleted (sends ++ [r]) =
    if r.completed then some r.packet else lastCompleted sends := by
  by_cases h : r.completed = true <;> simp [lastCompleted, filter_append, h]

theorem length_resetSends_concat : (resetSends (sends ++ [r])).length = (resetSends sends).length +
    if r.completed && hasReset r.packet && !hasIgnore r.packet then 1 else 0 := by
  by_cases h : (r.completed && hasReset r.packet && !hasIgnore r.packet) = true <;>
    simp [resetSends, filter_append, h]

theorem idChain_concat (h : IdChain sends)
    (hr : ∀ p, lastCompleted sends = some p → packetIdField r.packet = packetIdField p + 1) :
    IdChain (sends ++ [r]) := by
  intro before r' after heq p hp
  rcases eq_nil_or_concat after with rfl | ⟨after', x, rfl⟩
  · obtain ⟨rfl, hr'⟩ := append_inj' heq rfl
    cases hr'
    exact hr p hp
  · rw [concat_eq_append, ← cons_append, ← append_assoc] at heq
    obtain ⟨heq', -⟩ := append_inj' heq rfl
    exact h before r' after' heq' p hp

end Sends

/-! ### The invariant -/

/-- The sends of a message that began on network `n`. -/
def sendsSince (n : Network) (w : PacketWriter) : List SendRecord :=
  w.network.log.drop n.log.length

/-- The writer's flags agree with the sends of its message, which began on network `n`. -/
structure Bookkept (n : Network) (w : PacketWriter) : Prop where
  size : packetHeaderSize ≤ w.packetSize
  filled : w.payloadCursor.Filled packetHeaderSize
  env : w.network.env = n.env
  log : n.log <+: w.network.log
  attempted : w.sendAttempted = false → sendsSince n w = []
  packets : ∀ r ∈ sendsSince n w, IsPacket r.packet ∧ (r.completed = true → r.bytes = r.packet)
  complete : w.messageComplete =
    (lastCompleted (sendsSince n w)).any fun p => hasEom p && !hasIgnore p
  notes : w.network.dispatchNotes = n.dispatchNotes + (resetSends (sendsSince n w)).length
  ignored : ∀ r ∈ sendsSince n w, hasIgnore r.packet = true →
    r.packet.length = packetHeaderSize ∧ hasEom r.packet = true ∧ hasReset r.packet = false
  ids : (∀ k, (n.env k).QuietAfter) → IdChain (sendsSince n w) ∧
    ∀ p, lastCompleted (sendsSince n w) = some p → w.packetId = packetIdField p + 1

/-- What the packet about to be sent looks like. -/
theorem packet_fields {w : PacketWriter} {l i : Bool} (hsize : packetHeaderSize ≤ w.packetSize)
    (hfilled : w.payloadCursor.Filled packetHeaderSize) :
    IsPacket (w.packet l i) ∧ (i = true → (w.packet l i).length = packetHeaderSize) ∧
      hasEom (w.packet l i) = l ∧ hasIgnore (w.packet l i) = (l && i) ∧
      hasReset (w.packet l i) = decide (w.headerResetMode ≠ .none) ∧
      packetIdField (w.packet l i) = w.packetId := by
  obtain ⟨hpos, hlen⟩ := hfilled
  have hge : packetHeaderSize ≤ w.packetLength i := by
    simp only [packetLength, savedPosition]
    split <;> split at * <;> omega
  have hle : w.packetLength i ≤ max packetHeaderSize w.payloadCursor.buf.length := by
    simp only [packetLength, savedPosition]
    split <;> split at * <;> omega
  have hrest : ((w.payloadCursor.buf.drop packetHeaderSize).take
      (w.packetLength i - packetHeaderSize)).length = w.packetLength i - packetHeaderSize := by
    rw [length_take, length_drop]
    omega
  rw [packet_eq_header l i hge]
  refine ⟨⟨?_, ?_⟩, ?_, hasEom_header .., hasIgnore_header .., hasReset_header ..,
    packetIdField_header ..⟩
  · rw [length_header]
    omega
  · rw [lengthField_header, length_header, hrest, Nat.add_sub_cancel' hge]
  · rintro rfl
    rw [length_header, hrest, Nat.add_sub_cancel' hge]
    simp only [packetLength, savedPosition, if_true]
    split <;> omega

namespace Bookkept

variable {n : Network} {w w' : PacketWriter} {l i : Bool}

/-- A call that logs no send keeps the invariant. -/
theorem of_log_eq (h : Bookkept n w) (hsize : w'.packetSize = w.packetSize)
    (hfilled : w'.payloadCursor.Filled packetHeaderSize) (henv : w'.network.env = w.network.env)
    (hlog : w'.network.log = w.network.log) (hatt : w'.sendAttempted = w.sendAttempted)
    (hcomplete : w'.messageComplete = w.messageComplete)
    (hnotes : w'.network.dispatchNotes = w.network.dispatchNotes)
    (hid : w'.packetId = w.packetId) : Bookkept n w' := by
  have hsends : sendsSince n w' = sendsSince n w := by rw [sendsSince, hlog, sendsSince]
  constructor
  case filled => exact hfilled
  all_goals simp only [hsends, hsize, henv, hlog, hatt, hcomplete, hnotes, hid]
  exacts [h.size, h.env, h.log, h.attempted, h.packets, h.complete, h.notes, h.ignored, h.ids]

/-- A call that logs one send of the packet framed in `w` keeps the invariant. -/
theorem of_send {k : ℕ} {c : Bool} (h : Bookkept n w) (hli : (l || !i) = true)
    (hreset : i = true → w.headerResetMode = .none) (hsize : w'.packetSize = w.packetSize)
    (hfilled : w'.payloadCursor.Filled packetHeaderSize) (henv : w'.network.env = w.network.env)
    (hlog : w'.network.log = w.network.log ++ [⟨w.packet l i, k, c⟩])
    (hk : c = true → k = (w.packet l i).length) (hatt : w'.sendAttempted = true)
    (hcomplete : w'.messageComplete = if c then l && !i else w.messageComplete)
    (hnotes : w'.network.dispatchNotes = w.network.dispatchNotes +
      if c && (decide (w.headerResetMode ≠ .none) && !i) then 1 else 0)
    (hid : (∀ k, (n.env k).QuietAfter) → w'.packetId = if c then w.packetId + 1 else w.packetId) :
    Bookkept n w' := by
  obtain ⟨hpacket, hlen, heom, hign, hres, hpid⟩ := packet_fields (l := l) (i := i) h.size h.filled
  have hign' : hasIgnore (w.packet l i) = i := by rw [hign]; cases l <;> cases i <;> simp_all
  have hsends : sendsSince n w' = sendsSince n w ++ [⟨w.packet l i, k, c⟩] := by
    rw [sendsSince, hlog, drop_append_of_le_length h.log.length_le, sendsSince]
  constructor
  case size => rw [hsize]; exact h.size
  case filled => exact hfilled
  case env => rw [henv]; exact h.env
  case log => rw [hlog]; exact h.log.trans (prefix_append _ _)
  case attempted => simp [hatt]
  case packets =>
    intro r hr
    rw [hsends] at hr
    rcases mem_append.mp hr with hr | hr
    · exact h.packets r hr
    · rw [mem_singleton.mp hr]
      exact ⟨hpacket, fun hc => by simp [SendRecord.bytes, hk hc]⟩
  case complete =>
    rw [hsends, lastCompleted_concat, hcomplete]
    cases c with
    | true => simp [heom, hign']
    | false => simpa using h.complete
  case notes =>
    rw [hsends, length_resetSends_concat, hnotes, h.notes, Nat.add_assoc]
    simp only [hres, hign', Bool.and_assoc]
  case ignored =>
    intro r hr hi
    rw [hsends] at hr
    rcases mem_append.mp hr with hr | hr
    · exact h.ignored r hr hi
    · rw [mem_singleton.mp hr] at hi ⊢
      have hi' : i = true := hign'.symm.trans hi
      refine ⟨hlen hi', ?_, by rw [hres, hreset hi']; rfl⟩
      rw [heom]
      simpa [hi'] using hli
  case ids =>
    intro hquiet
    obtain ⟨hchain, hlast⟩ := h.ids hquiet
    rw [hsends, lastCompleted_concat, hid hquiet]
    refine ⟨idChain_concat hchain fun p hp => by rw [hpid]; exact hlast p hp, fun p hp => ?_⟩
    cases c with
    | true =>
      simp only [if_true, Option.some.injEq] at hp ⊢
      rw [← hp, hpid]
    | false => exact hlast p (by simpa using hp)

/-- A packet-sending call keeps the invariant; a send it leaves incomplete is marked. -/
theorem send (l i : Bool) (h : Bookkept n w) (hli : (l || !i) = true)
    (hreset : i = true → w.headerResetMode = .none) :
    Ends (Bookkept n) (Bookkept n) (populateHeaderAndSend l i w) := by
  have hframed : (w.framedCursor l i).Filled packetHeaderSize := by
    simp only [framedCursor, Cursor.Filled, Cursor.write_pos, Cursor.length_write,
      length_buildHeader, Cursor.setPosition_pos]
    omega
  have hsaved : ((w.framedCursor l i).setPosition (w.savedPosition i)).Filled
      packetHeaderSize := by
    have := h.filled
    simp only [framedCursor, savedPosition, Cursor.Filled, Cursor.length_write,
      length_buildHeader, Cursor.setPosition_pos, Cursor.setPosition_buf] at this ⊢
    split <;> omega
  obtain ⟨e, hrun⟩ | ⟨e, k, hrun⟩ | ⟨e, hrun, hq⟩ | hrun | ⟨e, hrun⟩ :=
    populateHeaderAndSend_cases w hli
  all_goals rw [hrun]
  · exact h.of_log_eq rfl hframed rfl rfl rfl rfl rfl rfl
  · exact h.of_send hli hreset rfl hframed rfl rfl (absurd · Bool.false_ne_true) rfl rfl rfl
      fun _ => rfl
  · refine h.of_send hli hreset rfl hframed rfl rfl (fun _ => rfl) rfl rfl ?_ fun hquiet => ?_
    · simp [completed]
    · have henv : w.nextEnv = n.env w.network.calls := congrFun h.env _
      exact absurd (henv ▸ hquiet w.network.calls) hq
  all_goals
    refine h.of_send hli hreset rfl hsaved rfl rfl (fun _ => rfl) rfl rfl ?_ fun _ => rfl
    simp [accounted, completed]

theorem new (t : PacketType) (n : Network) (timeout : Option ℕ) (handle : Option CancelHandle)
    (hsize : packetHeaderSize ≤ n.packetSize) :
    Bookkept n (PacketWriter.new t n timeout handle) := by
  obtain ⟨-, -, -, hps, hlog⟩ := new_fields t n timeout handle
  have hsends : sendsSince n (PacketWriter.new t n timeout handle) = [] := by
    rw [sendsSince, hlog, drop_length]
  have hnew : (PacketWriter.new t n timeout handle).network.env = n.env ∧
      (PacketWriter.new t n timeout handle).network.dispatchNotes = n.dispatchNotes ∧
      (PacketWriter.new t n timeout handle).messageComplete = false ∧
      (PacketWriter.new t n timeout handle).payloadCursor = ⟨[], packetHeaderSize⟩ := by
    cases t <;> exact ⟨rfl, rfl, rfl, rfl⟩
  obtain ⟨henv, hnotes, hcomplete, hcursor⟩ := hnew
  constructor
  case size => rwa [hps]
  case filled => rw [hcursor]; exact ⟨le_rfl, le_max_left _ _⟩
  case env => exact henv
  case log => exact hlog ▸ prefix_refl _
  case ids => simp [hsends, IdChain, lastCompleted]
  all_goals simp [hsends, hcomplete, hnotes, lastCompleted, resetSends]

theorem sendInvariant (n : Network) : SendInvariant (Bookkept n) (Bookkept n) where
  size h := h.size
  filled h := h.filled
  cursor h hc := h.of_log_eq rfl hc rfl rfl rfl rfl rfl rfl
  send l _ h := h.send l false (by simp) (by simp)
  weaken _ h := h

/-- Cancelling a message clears its reset request before the ignore packet is framed. -/
theorem cancelCurrentMessage : Keeps (Bookkept n) (Bookkept n) cancelCurrentMessage := by
  intro w h
  have h' : Bookkept n { w with resetMode := .none } :=
    h.of_log_eq rfl h.filled rfl rfl rfl rfl rfl rfl
  exact h'.send true true rfl (by simp [headerResetMode])

theorem run (op : MessageOp) : Keeps (Bookkept n) (Bookkept n) op.run := by
  cases op with
  | write op => exact (sendInvariant n).run op
  | writeUnchecked bs => exact (sendInvariant n).writeUnchecked bs
  | finalize => exact (sendInvariant n).finalize
  | cancelCurrentMessage => exact cancelCurrentMessage

theorem runMessage (h : Bookkept n w) (ops : List MessageOp) : Bookkept n (runMessage w ops) := by
  induction ops generalizing w with
  | nil => exact h
  | cons op ops ih => exact ih ((run op).finalState (fun _ h => h) h)

end Bookkept

/-! ### Disciplined runs -/

def AllCompleted (n : Network) (w : PacketWriter) : Prop :=
  ∀ r ∈ sendsSince n w, r.completed = true

/-- No send of the message is incomplete. -/
structure Clean (n : Network) (w : PacketWriter) : Prop extends Bookkept n w where
  notIncomplete : w.sendIncomplete = false
  allCompleted : AllCompleted n w

/-- No send of the message is incomplete, unless the flag says so. -/
structure Tidy (n : Network) (w : PacketWriter) : Prop extends Bookkept n w where
  allCompleted : w.sendIncomplete = false → AllCompleted n w

namespace Clean

variable {n : Network} {w : PacketWriter}

theorem tidy (h : Clean n w) : Tidy n w := ⟨h.toBookkept, fun _ => h.allCompleted⟩

theorem send (l i : Bool) (h : Clean n w) (hli : (l || !i) = true)
    (hreset : i = true → w.headerResetMode = .none) :
    Ends (Clean n) (Tidy n) (populateHeaderAndSend l i w) := by
  have hbook := h.toBookkept.send l i hli hreset
  have hdone (w' : PacketWriter)
      (hlog : w'.network.log = w.network.log ++ [⟨w.packet l i, (w.packet l i).length, true⟩]) :
      AllCompleted n w' := by
    intro r hr
    rw [sendsSince, hlog, drop_append_of_le_length h.log.length_le] at hr
    rcases mem_append.mp hr with hr | hr
    · exact h.allCompleted r hr
    · rw [mem_singleton.mp hr]
  obtain ⟨e, hrun⟩ | ⟨e, k, hrun⟩ | ⟨e, hrun, -⟩ | hrun | ⟨e, hrun⟩ :=
    populateHeaderAndSend_cases w hli
  all_goals rw [hrun] at hbook ⊢
  · exact ⟨hbook, fun _ => h.allCompleted⟩
  · exact ⟨hbook, fun hinc => nomatch hinc⟩
  · exact ⟨hbook, fun _ => hdone _ rfl⟩
  · exact ⟨hbook, rfl, hdone _ rfl⟩
  · exact ⟨hbook, fun _ => hdone _ rfl⟩

theorem sendInvariant (n : Network) : SendInvariant (Clean n) (Tidy n) where
  size h := h.size
  filled h := h.filled
  cursor h hc := ⟨h.of_log_eq rfl hc rfl rfl rfl rfl rfl rfl, h.notIncomplete, h.allCompleted⟩
  send l _ h := h.send l false (by simp) (by simp)
  weaken _ h := h.tidy

theorem run (op : MessageOp) : Keeps (Clean n) (Tidy n) op.run := by
  cases op with
  | write op => exact (sendInvariant n).run op
  | writeUnchecked bs => exact (sendInvariant n).writeUnchecked bs
  | finalize => exact (sendInvariant n).finalize
  | cancelCurrentMessage =>
    intro w h
    have h' : Clean n { w with resetMode := .none } :=
      ⟨h.of_log_eq rfl h.filled rfl rfl rfl rfl rfl rfl, h.notIncomplete, h.allCompleted⟩
    exact h'.send true true rfl (by simp [headerResetMode])

end Clean

theorem Tidy.runMessage {n : Network} {w : PacketWriter} (h : Tidy n w) (ops : List MessageOp)
    (hd : Disciplined w ops) : Tidy n (runMessage w ops) := by
  induction ops generalizing w with
  | nil => exact h
  | cons op ops ih =>
    have hclean : Clean n w := ⟨h.toBookkept, hd.1, h.allCompleted hd.1⟩
    exact ih ((Clean.run op).finalState (fun _ h => h.tidy) hclean) hd.2

/-- **Failure bookkeeping.**  Whatever happens to its sends, at every point of a message: a writer
that has attempted no send has handed no byte to the network; a writer with no incomplete send has
handed over whole packets, if no call was made while a send was incomplete; the completion flag
follows the last completed packet; a dispatched reset is recorded once for each completed packet
that carried the bit; and ignore packets are bare headers without reset bit, numbered after the last
completed packet unless a call failed between completing a send and accounting for it. -/
theorem failure_bookkeeping (t : PacketType) (net : Network) (timeout : Option ℕ)
    (handle : Option CancelHandle) (ops : List MessageOp)
    (hsize : packetHeaderSize ≤ net.packetSize) :
    let w₀ := .new t net timeout handle
    let w := runMessage w₀ ops
    ∃ sends, w.network.log = net.log ++ sends ∧
      (w.suspend.nothingSent = true → sends.flatMap SendRecord.bytes = []) ∧
      (Disciplined w₀ ops → w.sendIncomplete = false →
        ∀ r ∈ sends, r.completed = true ∧ r.bytes = r.packet ∧ IsPacket r.packet) ∧
      (w.messageComplete = true ↔
        ∃ p, lastCompleted sends = some p ∧ hasEom p = true ∧ hasIgnore p = false) ∧
      w.network.dispatchNotes = net.dispatchNotes + (resetSends sends).length ∧
      (∀ r ∈ sends, hasIgnore r.packet = true →
        r.packet.length = packetHeaderSize ∧ hasEom r.packet = true ∧ hasReset r.packet = false) ∧
      ((∀ k, (net.env k).QuietAfter) → ∀ before r after p, sends = before ++ r :: after →
        hasIgnore r.packet = true → lastCompleted before = some p →
        packetIdField r.packet = packetIdField p + 1) := by
  intro w₀ w
  have hnew : Bookkept net w₀ := .new t net timeout handle hsize
  have h : Bookkept net w := hnew.runMessage ops
  refine ⟨sendsSince net w, ?_, ?_, ?_, ?_, h.notes, h.ignored, ?_⟩
  · obtain ⟨sends, hs⟩ := h.log
    rw [sendsSince, ← hs, drop_left]
  · intro hn
    have hatt : w.sendAttempted = false := by simpa [SuspendedMessage.nothingSent, suspend] using hn
    rw [h.attempted hatt]
    rfl
  · intro hd hinc r hr
    have htidy : Tidy net w₀ := ⟨hnew, fun _ r hr => by
      rw [sendsSince, (new_fields t net timeout handle).2.2.2.2, drop_length] at hr
      cases hr⟩
    have hcomp := (htidy.runMessage ops hd).allCompleted hinc r hr
    exact ⟨hcomp, (h.packets r hr).2 hcomp, (h.packets r hr).1⟩
  · rw [h.complete, Option.any_eq_true]
    simp
  · intro hq before r after p hs _ hp
    exact (h.ids hq).1 before r after hs p hp

/-- A network with a reset waiting, whose second send fails after five bytes and whose third stalls
after three until the write deadline passes. -/
def failingNetwork : Network :=
  { readyNetwork 16 with
    pendingReset := .reset
    env := fun k =>
      if k = 1 then
        { SendEnv.ready with
          polls := [⟨false, false, false, false, 5, some (.error (.io "broken pipe"))⟩] }
      else if k = 2 then
        { SendEnv.ready with
          polls := [⟨false, false, false, false, 3, none⟩, ⟨true, false, false, false, 0, none⟩] }
      else .ready }

/-- The first packet carries the reset, and the ignore packet the number of the two that were cut
off. -/
theorem failure_bookkeeping_interrupted :
    let w := runMessage (.new .rpcRequest failingNetwork (some 30) none)
      [.write (.slice [0, 1, 2, 3, 4, 5, 6, 7, 8, 9, 10, 11, 12, 13, 14, 15, 16]),
        .write .suspendResume, .write (.slice [1, 2, 3, 4, 5, 6, 7, 8, 9]), .cancelCurrentMessage]
    (w.network.log.map fun r => (r.packet.take 8, r.handed, r.completed)) =
      [([3, 8, 0, 16, 0, 0, 1, 0], 16, true), ([3, 0, 0, 16, 0, 0, 2, 0], 5, false),
        ([3, 0, 0, 16, 0, 0, 2, 0], 3, false), ([3, 3, 0, 8, 0, 0, 2, 0], 8, true)] ∧
    ∃ sends, w.network.log = sends ∧ w.network.dispatchNotes = 0 + (resetSends sends).length ∧
      (w.messageComplete = true ↔
        ∃ p, lastCompleted sends = some p ∧ hasEom p = true ∧ hasIgnore p = false) ∧
      ∀ before r after p, sends = before ++ r :: after → hasIgnore r.packet = true →
        lastCompleted before = some p → packetIdField r.packet = packetIdField p + 1 := by
  have hquiet : ∀ k, (failingNetwork.env k).QuietAfter := by
    intro k
    unfold failingNetwork
    dsimp only
    split_ifs <;> exact ⟨rfl, rfl⟩
  obtain ⟨sends, hlog, -, -, hcomplete, hnotes, -, hids⟩ :=
    failure_bookkeeping .rpcRequest failingNetwork (some 30) none _ (by decide)
  exact ⟨by decide, sends, hlog, hnotes, hcomplete, hids hquiet⟩

/-- A network whose first send stalls after three bytes until the write deadline passes. -/
def stallingNetwork : Network :=
  { readyNetwork 16 with
    env := fun k => if k = 0 then
        { SendEnv.ready with
          polls := [⟨false, false, false, false, 3, none⟩, ⟨true, false, false, false, 0, none⟩] }
      else .ready }

/-- A message cancelled after an interrupted send: the ignore packet clears the flag, behind a
packet of which the server has three bytes. -/
theorem sendIncomplete_cleared :
    let w := runMessage (PacketWriter.new .sqlBatch stallingNetwork (some 30) none)
      [.write (.slice [1, 2, 3, 4, 5, 6, 7, 8, 9]), .write .suspendResume, .cancelCurrentMessage]
    w.sendIncomplete = false ∧ ∃ r ∈ w.network.log, r.completed = false ∧ r.bytes.length = 3 := by
  decide

/-! ### The reset request of a message -/

/-- The message still has the reset request it took. -/
structure HoldsReset (n : Network) (w₀ w : PacketWriter) : Prop extends Bookkept n w where
  mode : w.resetMode = w₀.resetMode
  pending : w.network.pendingReset = w₀.network.pendingReset

theorem HoldsReset.sendInvariant (n : Network) (w₀ : PacketWriter) :
    SendInvariant (HoldsReset n w₀) (HoldsReset n w₀) where
  size h := h.size
  filled h := h.filled
  cursor h hc := ⟨(Bookkept.sendInvariant n).cursor h.toBookkept hc, h.mode, h.pending⟩
  send l w h := by
    have hbook := h.toBookkept.send l false (by simp) (by simp)
    obtain ⟨e, hrun⟩ | ⟨e, k, hrun⟩ | ⟨e, hrun, -⟩ | hrun | ⟨e, hrun⟩ :=
      populateHeaderAndSend_cases w (l := l) (i := false) (by simp)
    all_goals
      rw [hrun] at hbook ⊢
      exact ⟨hbook, h.mode, h.pending⟩
  weaken _ h := h

theorem HoldsReset.runMessage {n : Network} {w₀ w : PacketWriter} (h : HoldsReset n w₀ w)
    {ops : List MessageOp} (hops : .cancelCurrentMessage ∉ ops) :
    HoldsReset n w₀ (runMessage w ops) := by
  induction ops generalizing w with
  | nil => exact h
  | cons op ops ih =>
    have hop : Keeps (HoldsReset n w₀) (HoldsReset n w₀) op.run := by
      cases op with
      | write op => exact (sendInvariant n w₀).run op
      | writeUnchecked bs => exact (sendInvariant n w₀).writeUnchecked bs
      | finalize => exact (sendInvariant n w₀).finalize
      | cancelCurrentMessage => exact absurd mem_cons_self hops
    exact ih (hop.finalState (fun _ h => h) h) fun hmem => hops (mem_cons_of_mem _ hmem)

/-- **No reset is lost.**  A message that was never withdrawn and has sent nothing, whatever its
calls did, hands back the reset request that it took, and it has dispatched none. -/
theorem abandoned_reset_restored (t : PacketType) (net : Network) (timeout : Option ℕ)
    (handle : Option CancelHandle) {ops : List MessageOp}
    (hsize : packetHeaderSize ≤ net.packetSize) (hops : .cancelCurrentMessage ∉ ops) :
    let w := runMessage (.new t net timeout handle) ops
    w.suspend.nothingSent = true →
      (w.suspend.abandon w.network).pendingReset = net.pendingReset ∧
        w.network.log = net.log ∧ w.network.dispatchNotes = net.dispatchNotes := by
  intro w hnothing
  have h : HoldsReset net (.new t net timeout handle) w :=
    (HoldsReset.mk (.new t net timeout handle hsize) rfl rfl).runMessage hops
  have hsends : sendsSince net w = [] :=
    h.attempted (by simpa [SuspendedMessage.nothingSent, suspend] using hnothing)
  refine ⟨?_, ?_, ?_⟩
  · rw [SuspendedMessage.abandon, apply_ite Network.pendingReset]
    change (if w.resetMode ≠ .none then w.resetMode else w.network.pendingReset) = _
    rw [h.mode, h.pending, PacketWriter.new]
    -- a message that may carry a request has taken it, any other has left it
    by_cases hcarries : t.carriesReset = true
    · simp +contextual [hcarries, Network.takeResetMode, eq_comm]
    · simp [hcarries]
  · obtain ⟨sends, hlog⟩ := h.log
    rw [sendsSince, ← hlog, drop_left] at hsends
    rw [← hlog, hsends, append_nil]
  · rw [h.notes, hsends]
    rfl

/-- A batch that stays in its buffer. -/
theorem abandoned_reset_restored_batch :
    let net := { readyNetwork 16 with pendingReset := .reset }
    let w := runMessage (.new .sqlBatch net none none) [.write (.slice [1, 2, 3])]
    (w.suspend.abandon w.network).pendingReset = .reset :=
  (abandoned_reset_restored .sqlBatch _ none none (by decide) (by simp) (by decide)).1

end MssqlTds
