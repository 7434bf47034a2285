import MssqlTds.Datatypes.NarrowEncoding
import MssqlTds.Lib.Utf8Lossy

/-!
# Transcoding data-at-execution chunks

An application sends a long parameter in chunks that may end anywhere, also inside a character.
`DaeTranscode.push` converts what a chunk completes and carries the rest to the next one;
`DaeTranscode.finish` converts what is left at the end.

The proof compares every chunking with the text of the whole value: after each push the text so far
is the text of the bytes in front of the carry, and the carry is the character that the bytes end
inside of, so that whatever follows is read as it is in the whole value
(`Cuts.text`, `incompleteTail_cuts`).
-/

namespace MssqlTds.Odbc

open Unicode List

/-- The encoding of the application's buffer. -/
inductive DaeSource where
  | raw
  | utf8
  | utf16
  deriving DecidableEq, Repr

/-- The encoding on the wire. -/
inductive DaeTarget where
  | raw
  | utf16
  | narrow (collation : SqlCollation)
  deriving DecidableEq, Repr

/-- A conversion of streamed chunks. -/
structure DaeTranscode where
  source : DaeSource
  target : DaeTarget
  validatePassthrough : Bool
  deriving DecidableEq, Repr

structure DaeChunk where
  bytes : List UInt8
  /-- A character had no representation and was replaced. -/
  hadLoss : Bool
  deriving DecidableEq, Repr

/-- Bytes that needed no substitution. -/
def DaeChunk.exact (bytes : List UInt8) : DaeChunk := ⟨bytes, false⟩

/-- Chunks after each other, with their losses together. -/
def DaeChunk.append (a b : DaeChunk) : DaeChunk := ⟨a.bytes ++ b.bytes, a.hadLoss || b.hadLoss⟩

/-! ### Unfinished characters -/

/-- What the byte `back` places from the end says of an unfinished sequence, if anything. -/
def incompleteUtf8TailAt (buf : List UInt8) (back : ℕ) : Option ℕ :=
  match buf.drop (buf.length - back) with
  | [] => some 0
  | byte :: continuations =>
    if byte < 0x80 then some 0
    else
      let needed : ℕ :=
        if 0xC2 ≤ byte ∧ byte ≤ 0xDF then 2
        else if 0xE0 ≤ byte ∧ byte ≤ 0xEF then 3
        else if 0xF0 ≤ byte ∧ byte ≤ 0xF4 then 4
        else 0
      if needed = 0 then if 0x80 ≤ byte ∧ byte ≤ 0xBF then none else some 0
      else if ¬continuations.all (fun c => 0x80 ≤ c ∧ c ≤ 0xBF) then some 0
      else if continuations.head?.any (fun c => (byte = 0xE0 ∧ c < 0xA0) ∨
        (byte = 0xED ∧ c > 0x9F) ∨
          (byte = 0xF0 ∧ c < 0x90) ∨ (byte = 0xF4 ∧ c > 0x8F)) then some 0
      else some (if back < needed then back else 0)

/-- Bytes at the end that begin an unfinished UTF-8 sequence. -/
def incompleteUtf8Tail (buf : List UInt8) : ℕ :=
  ((List.range' 1 (min 3 buf.length)).findSome? (incompleteUtf8TailAt buf)).getD 0

/-- Bytes at the end that begin an unfinished UTF-16 character: half a unit, and a leading surrogate
in front of it. -/
def incompleteUtf16Tail (buf : List UInt8) : ℕ :=
  let odd := buf.length % 2
  let unitsEnd := buf.length - odd
  match (buf.take unitsEnd).drop (unitsEnd - 2) with
  | [lo, hi] =>
    let last := lo.toNat + 256 * hi.toNat
    if 0xD800 ≤ last ∧ last < 0xDC00 then odd + 2 else odd
  | _ => odd

/-- The text of UTF-16 bytes; half a unit at the end is dropped. -/
def decodeUtf16le (bytes : List UInt8) : List Char := decodeUnits (ofUnitsLe bytes).1

namespace DaeTranscode

variable (cs : Codecs) (t : DaeTranscode)

/-- The buffer's bytes are the bytes of the wire. -/
def isPassthrough : Bool :=
  match t.source, t.target with
  | .raw, _ => true
  | .utf16, .utf16 => true
  | .utf8, .narrow collation => collation.utf8
  | _, _ => false

def incompleteTail (buf : List UInt8) : ℕ :=
  match t.source with
  | .raw => 0
  | .utf8 => incompleteUtf8Tail buf
  | .utf16 => incompleteUtf16Tail buf

def decode (bytes : List UInt8) : List Char :=
  match t.source with
  | .utf16 => decodeUtf16le bytes
  | _ => fromUtf8Lossy bytes

def encode (text : List Char) : DaeChunk :=
  match t.target with
  | .utf16 => .exact (utf16le text)
  | .narrow collation =>
    let encoded := cs.encodeNarrow text collation
    ⟨encoded.bytes, encoded.hadLoss⟩
  | .raw => .exact (asBytes text)

/-- Converts what a chunk completes; the second component is what is carried to the next. -/
def push (carry chunk : List UInt8) : DaeChunk × List UInt8 :=
  if t.isPassthrough && !t.validatePassthrough then (DaeChunk.exact chunk, carry)
  else
    let buf := carry ++ chunk
    let split := buf.length - t.incompleteTail buf
    (encode cs t (t.decode (buf.take split)), buf.drop split)

/-- Converts what a value ended inside of. -/
def finish (carry : List UInt8) : DaeChunk :=
  if carry.isEmpty then DaeChunk.exact []
  else encode cs t (t.decode carry)

/-! ### A whole value -/

/-- The chunks of a value one after the other: what is written, and the carry. -/
def pushAll : List UInt8 → List (List UInt8) → DaeChunk × List UInt8
  | carry, [] => (DaeChunk.exact [], carry)
  | carry, chunk :: chunks =>
    let (out, carry) := push cs t carry chunk
    let (rest, carry) := pushAll carry chunks
    (DaeChunk.append out rest, carry)

/-- What is written of a value sent in the given chunks. -/
def stream (chunks : List (List UInt8)) : DaeChunk :=
  let (out, carry) := pushAll cs t [] chunks
  DaeChunk.append out (finish cs t carry)

end DaeTranscode

/-! ### The carry is the unfinished character -/

theorem incompleteUtf8TailAt_eq {buf : List UInt8} {back : ℕ} {byte : UInt8}
    {continuations : List UInt8} (h : buf.drop (buf.length - back) = byte :: continuations) :
    incompleteUtf8TailAt buf back =
      if byte < 0x80 then some 0
      else if sequenceLength byte = 0 then if isContinuation byte then none else some 0
      else if ¬continuations.all isContinuation then some 0
      else if continuations.head?.any (isForbiddenSecond byte) then some 0
      else some (if back < sequenceLength byte then back else 0) := by
  have hcont : isContinuation = fun c => decide (0x80 ≤ c ∧ c ≤ 0xBF) := by
    funext c
    simp [isContinuation]
  rw [incompleteUtf8TailAt, h, hcont]
  simp only [decide_eq_true_eq]
  rfl

theorem sequenceLength_of_continuation {c : UInt8} (h : isContinuation c = true) :
    ¬c < 0x80 ∧ sequenceLength c = 0 := by
  rw [isContinuation, Bool.and_eq_true_iff, decide_eq_true_eq, decide_eq_true_eq] at h
  refine ⟨UInt8.not_lt.mpr h.1, ?_⟩
  by_contra hne
  have hnot := (not_continuation_of_sequenceLength (Nat.pos_of_ne_zero hne)).1
  simp [isContinuation, h] at hnot

/-- The last bytes of an open sequence say nothing, its first byte how long it is. -/
theorem incompleteUtf8TailAt_open {a : List UInt8} {lead : UInt8} {conts : List UInt8}
    (h : IsOpen (lead :: conts)) :
    incompleteUtf8TailAt (a ++ lead :: conts) (conts.length + 1) = some (conts.length + 1) ∧
      ∀ back, 0 < back → back ≤ conts.length →
        incompleteUtf8TailAt (a ++ lead :: conts) back = none := by
  obtain ⟨hlen, hall, hsecond⟩ := h
  have hpos : 0 < sequenceLength lead := Nat.lt_of_le_of_lt (Nat.zero_le _) hlen
  constructor
  · have hdrop : (a ++ lead :: conts).drop ((a ++ lead :: conts).length - (conts.length + 1))
        = lead :: conts := by
      rw [length_append, length_cons, Nat.add_sub_cancel, drop_left]
    have hany : ¬conts.head?.any (isForbiddenSecond lead) = true := by
      cases conts with
      | nil => exact Bool.false_ne_true
      | cons c cs => simp [hsecond c rfl]
    rw [incompleteUtf8TailAt_eq hdrop, if_neg (not_continuation_of_sequenceLength hpos).2,
      if_neg (Nat.ne_of_gt hpos), if_neg (not_not_intro (all_eq_true.mpr hall)), if_neg hany,
      if_pos hlen]
  · intro back hback hle
    obtain ⟨c, rest, hc⟩ := exists_cons_of_length_pos
      (show 0 < (conts.drop (conts.length - back)).length by rw [length_drop]; omega)
    have hmem : c ∈ conts := mem_of_mem_drop (hc ▸ mem_cons_self)
    have hdrop : (a ++ lead :: conts).drop ((a ++ lead :: conts).length - back) = c :: rest := by
      rw [← hc, drop_append, drop_of_length_le (by simp; omega), nil_append]
      rw [show (a ++ lead :: conts).length - back - a.length = conts.length - back + 1 by
        simp; omega]
      rfl
    obtain ⟨hbyte, hzero⟩ := sequenceLength_of_continuation (hall c hmem)
    rw [incompleteUtf8TailAt_eq hdrop, if_neg hbyte, if_pos hzero, if_pos (hall c hmem)]

/-- A byte that reports an unfinished sequence begins an open one. -/
theorem isOpen_of_incompleteUtf8TailAt {buf : List UInt8} {back n : ℕ} (hback : back ≤ buf.length)
    (h : incompleteUtf8TailAt buf back = some (n + 1)) :
    IsOpen (buf.drop (buf.length - back)) := by
  cases hdrop : buf.drop (buf.length - back) with
  | nil =>
    rw [incompleteUtf8TailAt, hdrop] at h
    cases h
  | cons byte conts =>
    have hlen : back = conts.length + 1 := by
      have hlength := congrArg List.length hdrop
      rw [length_drop, length_cons] at hlength
      omega
    rw [incompleteUtf8TailAt_eq hdrop] at h
    split_ifs at h with h1 h2 h3 h4 h5 h6
    all_goals try cases h
    refine ⟨by omega, all_eq_true.mp h4, ?_⟩
    intro c hc
    cases hforbidden : isForbiddenSecond byte c with
    | false => rfl
    | true =>
      rw [hc] at h5
      exact absurd hforbidden h5

/-- **The bytes held back are the open sequence.** -/
theorem incompleteUtf8Tail_eq (buf : List UInt8) :
    incompleteUtf8Tail buf = (pending buf).length := by
  rw [incompleteUtf8Tail]
  rcases pending_open (.inl rfl) buf with hnil | ⟨hopen, a, ha⟩
  · -- a byte that reported a sequence would leave it open
    rw [pending, hnil]
    cases hfind : (List.range' 1 (min 3 buf.length)).findSome? (incompleteUtf8TailAt buf) with
    | none => rfl
    | some n =>
      cases n with
      | zero => rfl
      | succ n =>
        obtain ⟨back, hmem, hback⟩ := exists_of_findSome?_eq_some hfind
        have hle : back ≤ buf.length := by
          rw [mem_range'_1] at hmem
          omega
        have hsuffix := isOpen_of_incompleteUtf8TailAt hle hback
        have hpending := pending_append_of_open (buf.take (buf.length - back)) hsuffix
        rw [take_append_drop, pending, hnil] at hpending
        rw [← hpending] at hsuffix
        exact absurd hsuffix id
  · rw [show (feedAll [] buf).2 = pending buf from rfl] at hopen ha
    have hmax := hopen.length_le
    generalize pending buf = s at hopen ha hmax
    cases s with
    | nil => exact absurd hopen id
    | cons lead conts =>
      obtain ⟨hat, hbefore⟩ := @incompleteUtf8TailAt_open a lead conts hopen
      subst ha
      rw [length_cons] at hmax ⊢
      have hrange : List.range' 1 (min 3 (a ++ lead :: conts).length)
          = List.range' 1 conts.length ++ (conts.length + 1)
            :: List.range' (conts.length + 2) (min 3 (a ++ lead :: conts).length - conts.length - 1)
          := by
        have hlen : min 3 (a ++ lead :: conts).length
            = conts.length + (min 3 (a ++ lead :: conts).length - conts.length - 1 + 1) := by
          rw [length_append, length_cons]
          omega
        rw [hlen, ← List.range'_append_1, List.range'_succ, Nat.add_comm 1 conts.length]
        congr 3
        omega
      have hnone : (List.range' 1 conts.length).findSome?
          (incompleteUtf8TailAt (a ++ lead :: conts)) = none := by
        rw [List.findSome?_eq_none_iff]
        intro back hback
        rw [mem_range'_1] at hback
        exact hbefore back (by omega) (by omega)
      rw [hrange, List.findSome?_append, hnone, Option.none_or, List.findSome?_cons, hat]
      rfl

theorem unitLe_eq (u : UInt16) :
    ∃ lo hi, unitLe u = [lo, hi] ∧ lo.toNat + 256 * hi.toNat = u.toNat := by
  refine ⟨_, _, rfl, ?_⟩
  have hu := u.toNat_lt
  rw [UInt8.toNat_ofNat', UInt8.toNat_ofNat']
  omega

/-- What is held back of UTF-16 bytes: a leading surrogate, if they end in one, and half a unit. -/
theorem incompleteUtf16Tail_eq (buf : List UInt8) :
    ∃ us rest, buf = unitsLe us ++ rest ∧ rest.length ≤ 1 ∧
      incompleteUtf16Tail buf = (unitsLe (heldUnit us).toList ++ rest).length := by
  obtain ⟨hbuf, hrest⟩ := unitsLe_ofUnitsLe buf
  generalize (ofUnitsLe buf).1 = us at hbuf
  generalize (ofUnitsLe buf).2 = rest at hbuf hrest
  refine ⟨us, rest, hbuf.symm, by omega, ?_⟩
  have hend : buf.length - buf.length % 2 = (unitsLe us).length := by
    rw [← hrest, ← hbuf, length_append, Nat.add_sub_cancel]
  have htake : buf.take (unitsLe us).length = unitsLe us := by
    rw [← hbuf, take_left]
  simp only [incompleteUtf16Tail, hend, htake]
  rw [← hrest]
  rcases eq_nil_or_concat us with rfl | ⟨us, u, rfl⟩
  · rfl
  · obtain ⟨lo, hi, hunit, hvalue⟩ := unitLe_eq u
    have hlead : (0xD800 ≤ u.toNat ∧ u.toNat < 0xDC00) ↔ isLead u = true := by
      rw [isLead, Bool.and_eq_true, decide_eq_true_eq, decide_eq_true_eq]
    rw [concat_eq_append, unitsLe_append, length_append, length_unitsLe [u],
      length_singleton, Nat.mul_one, Nat.add_sub_cancel, drop_left, unitsLe_cons,
      unitsLe_nil, append_nil, hunit, heldUnit_concat]
    dsimp only
    rw [hvalue]
    by_cases h : isLead u = true
    · rw [if_pos (hlead.mpr h), if_pos h, length_append, length_unitsLe, Nat.add_comm]
      rfl
    · rw [if_neg (mt hlead.mp h), if_neg h]
      rfl

/-! ### Where a value can be cut -/

namespace DaeTranscode

variable {cs : Codecs} {t : DaeTranscode}

/-- Whatever follows the bytes `s`, the text in front of them is the same. -/
def Cuts (t : DaeTranscode) (a s : List UInt8) : Prop :=
  ∀ rest, t.decode (a ++ s ++ rest) = t.decode a ++ t.decode (s ++ rest)

theorem decodeUtf16le_unitsLe_append (us : List UInt16) (bs : List UInt8) :
    decodeUtf16le (unitsLe us ++ bs) = decodeUnits (us ++ (ofUnitsLe bs).1) := by
  rw [decodeUtf16le, ofUnitsLe_unitsLe_append]

theorem decodeUtf16le_unitsLe (us : List UInt16) :
    decodeUtf16le (unitsLe us) = decodeUnits us := by
  rw [decodeUtf16le, ofUnitsLe_unitsLe]

/-- **What is held back does not change the text in front of it**, and is at most three bytes. -/
theorem incompleteTail_cuts (hsource : t.source ≠ .raw) (buf : List UInt8) :
    t.Cuts (buf.take (buf.length - t.incompleteTail buf))
        (buf.drop (buf.length - t.incompleteTail buf)) ∧
      (buf.drop (buf.length - t.incompleteTail buf)).length ≤ 3 := by
  cases hs : t.source with
  | raw => exact absurd hs hsource
  | utf8 =>
    have htail : t.incompleteTail buf = (pending buf).length := by
      rw [incompleteTail, hs]
      exact incompleteUtf8Tail_eq buf
    obtain ⟨a, ha, hlen⟩ : ∃ a, buf = a ++ pending buf ∧ (pending buf).length ≤ 3 := by
      rcases pending_open (.inl rfl) buf with hnil | ⟨hopen, a, ha⟩
      · exact ⟨buf, by rw [pending, hnil, append_nil], by rw [pending, hnil]; decide⟩
      · exact ⟨a, ha, hopen.length_le⟩
    have hpending : pending (a ++ pending buf) = pending buf := by rw [← ha]
    rw [htail]
    generalize pending buf = s at *
    subst ha
    rw [length_append, Nat.add_sub_cancel, take_left, drop_left]
    refine ⟨?_, hlen⟩
    intro rest
    simp only [decode, hs]
    exact fromUtf8Lossy_append hpending rest
  | utf16 =>
    have htail : t.incompleteTail buf = incompleteUtf16Tail buf := by
      rw [incompleteTail, hs]
    rw [htail]
    obtain ⟨us, rest, rfl, hodd, hlen⟩ := incompleteUtf16Tail_eq buf
    have hsplit : unitsLe us ++ rest =
        unitsLe (settledUnits us) ++ (unitsLe (heldUnit us).toList ++ rest) := by
      rw [← append_assoc, ← unitsLe_append, settledUnits_append_heldUnit]
    rw [hlen, hsplit, length_append, Nat.add_sub_cancel, take_left, drop_left]
    constructor
    · intro more
      simp only [decode, hs]
      rw [← hsplit, decodeUtf16le_unitsLe, append_assoc, append_assoc,
        decodeUtf16le_unitsLe_append, decodeUtf16le_unitsLe_append, decodeUnits_settled]
    · have hheld := (heldUnit us).length_toList_le
      rw [length_append, length_unitsLe]
      omega

/-! ### Every chunking -/

/-- The encoder of a narrow target works character by character.  UTF-8 and the code pages do, so
this is about the other encodings of the library. -/
def EncodesCharacters (cs : Codecs) (t : DaeTranscode) : Prop :=
  ∀ collation e, t.target = .narrow collation → resolveCollation collation = .encodingRs e →
    e ≠ .utf8 → cs.Stateless (.encodingRs e)

theorem EncodesCharacters.stateless {collation : SqlCollation} (h : EncodesCharacters cs t)
    (ht : t.target = .narrow collation) : cs.Stateless (resolveCollation collation) := by
  refine Codecs.stateless_of_library fun e hother he => ?_
  rw [he]
  exact h collation e ht he hother

section Streaming

variable (htarget : EncodesCharacters cs t)

include htarget

theorem encode_append (a b : List Char) :
    encode cs t (a ++ b) = DaeChunk.append (encode cs t a) (encode cs t b) := by
  unfold encode
  cases ht : t.target with
  | raw => simp [DaeChunk.exact, DaeChunk.append, asBytes]
  | utf16 => simp [DaeChunk.exact, DaeChunk.append, utf16le, utf16Units]
  | narrow collation =>
    simp only [Codecs.encodeNarrow, (htarget.stateless ht).encodeNarrowWith_append]
    rfl

theorem encode_nil : encode cs t [] = DaeChunk.exact [] := by
  unfold encode
  cases ht : t.target with
  | raw => rfl
  | utf16 => rfl
  | narrow collation =>
    simp only [Codecs.encodeNarrow, (htarget.stateless ht).encodeNarrowWith_eq]
    rfl

theorem finish_eq (carry : List UInt8) :
    finish cs t carry = encode cs t (t.decode carry) := by
  cases carry with
  | nil =>
    have hempty : t.decode [] = [] := by
      unfold decode
      cases t.source <;> rfl
    rw [hempty, encode_nil htarget]
    rfl
  | cons b bs => rfl

variable (hsource : t.source ≠ .raw)
  (hconvert : (t.isPassthrough && !t.validatePassthrough) = false)

include hsource hconvert

/-- **Run invariant.**  What has been written is the encoding of a text, and the whole value reads
as that text and what the carry and the rest of the value read as. -/
theorem pushAll_text (carry : List UInt8) (chunks : List (List UInt8)) :
    ∃ text, (pushAll cs t carry chunks).1 = encode cs t text ∧
      ∀ rest, t.decode (carry ++ chunks.flatten ++ rest)
        = text ++ t.decode ((pushAll cs t carry chunks).2 ++ rest) := by
  induction chunks generalizing carry with
  | nil =>
    refine ⟨[], (encode_nil htarget).symm, ?_⟩
    intro rest
    simp [pushAll]
  | cons chunk chunks ih =>
    have hpush : push cs t carry chunk
        = (encode cs t (t.decode ((carry ++ chunk).take
            ((carry ++ chunk).length - t.incompleteTail (carry ++ chunk)))),
          (carry ++ chunk).drop
            ((carry ++ chunk).length - t.incompleteTail (carry ++ chunk))) := by
      rw [push, hconvert]
      rfl
    obtain ⟨hcuts, -⟩ := incompleteTail_cuts hsource (carry ++ chunk)
    have hjoin := take_append_drop
      ((carry ++ chunk).length - t.incompleteTail (carry ++ chunk)) (carry ++ chunk)
    generalize (carry ++ chunk).take _ = front at hpush hcuts hjoin
    generalize (carry ++ chunk).drop _ = held at hpush hcuts hjoin
    obtain ⟨text, hout, hrest⟩ := ih held
    refine ⟨t.decode front ++ text, ?_, ?_⟩
    · simp only [pushAll, hpush]
      rw [encode_append htarget, hout]
    · intro rest
      simp only [pushAll, hpush]
      rw [flatten_cons, ← append_assoc carry, ← hjoin, append_assoc (front ++ held),
        hcuts, ← append_assoc held, hrest, append_assoc]

/-- A value is written as the encoding of its whole text. -/
theorem stream_eq (chunks : List (List UInt8)) :
    stream cs t chunks = encode cs t (t.decode chunks.flatten) := by
  obtain ⟨text, hout, hrest⟩ := pushAll_text htarget hsource hconvert [] chunks
  have hwhole := hrest []
  rw [nil_append, append_nil, append_nil] at hwhole
  rw [stream]
  dsimp only
  rw [hout, finish_eq htarget, hwhole, encode_append htarget]

end Streaming

/-- Bytes that pass through are written as they are. -/
theorem pushAll_passthrough (h : (t.isPassthrough && !t.validatePassthrough) = true)
    (carry : List UInt8) (chunks : List (List UInt8)) :
    pushAll cs t carry chunks = (DaeChunk.exact chunks.flatten, carry) := by
  induction chunks with
  | nil => rfl
  | cons chunk chunks ih =>
    simp only [pushAll, push, h, if_true, ih]
    rfl

theorem length_carry_le (hsource : t.source ≠ .raw) (chunks : List (List UInt8))
    {carry : List UInt8} (hcarry : carry.length ≤ 3) :
    (pushAll cs t carry chunks).2.length ≤ 3 := by
  induction chunks generalizing carry with
  | nil => exact hcarry
  | cons chunk chunks ih =>
    simp only [pushAll]
    refine ih ?_
    rw [push]
    split
    · exact hcarry
    · exact (incompleteTail_cuts hsource (carry ++ chunk)).2

end DaeTranscode

open DaeTranscode in
/-- **Transcoding does not depend on the chunks.**  However the bytes of a value are split, well
formed or not, the same bytes are written and the same loss is reported as for the value in one
chunk, and no push leaves more than three bytes for the next. -/
theorem dae_transcode_chunking (cs : Codecs) (t : DaeTranscode) (hsource : t.source ≠ .raw)
    (htarget : EncodesCharacters cs t) (chunks : List (List UInt8)) :
    stream cs t chunks = stream cs t [chunks.flatten] ∧
      (pushAll cs t [] chunks).2.length ≤ 3 := by
  refine ⟨?_, length_carry_le hsource chunks (by decide)⟩
  cases hpass : (t.isPassthrough && !t.validatePassthrough) with
  | true => simp only [stream, pushAll_passthrough hpass, flatten_singleton]
  | false =>
    rw [stream_eq htarget hsource hpass, stream_eq htarget hsource hpass, flatten_singleton]

/-- An accented letter, and a character that the code page lacks, for a column in OEM United States;
each is cut in the middle. -/
theorem dae_transcode_chunking_cut :
    let t : DaeTranscode := ⟨.utf8, .narrow ⟨0, 0, 0, 30⟩, false⟩
    DaeTranscode.stream Codecs.latin1 t [[0xC3], [0xA9, 0xE4, 0xB8], [0xAD]] =
        DaeTranscode.stream Codecs.latin1 t [[0xC3, 0xA9, 0xE4, 0xB8, 0xAD]] ∧
      DaeTranscode.stream Codecs.latin1 t [[0xC3, 0xA9, 0xE4, 0xB8, 0xAD]] = ⟨[0x82, 0x3F], true⟩ :=
  ⟨(dae_transcode_chunking Codecs.latin1 ⟨.utf8, .narrow ⟨0, 0, 0, 30⟩, false⟩ (by decide)
    (fun _ _ ht he => by cases ht; cases he) [[0xC3], [0xA9, 0xE4, 0xB8], [0xAD]]).1, by decide⟩

end MssqlTds.Odbc
