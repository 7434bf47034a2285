import MssqlTds.Lib.Utf8Slice

/-!
# Reading any bytes as UTF-8

`fromUtf8Lossy` reads a byte string as text and puts a replacement character where it is malformed,
one for each longest start of a sequence that cannot be continued.  It is a machine that takes the
bytes one by one; its state is the sequence that has been started and not finished.

* `feedAll_append`: bytes can be taken in pieces.
* `pending_open`, `pending_append_of_open`: the state is the open sequence the bytes end in, if they
  end in one.
* `fromUtf8Lossy_append`: the text of a byte string can be cut in front of the open sequence it ends
  in.
-/

namespace Unicode

open List

/-! ### Sequences -/

/-- A byte that does not begin a sequence. -/
def isContinuation (b : UInt8) : Bool := 0x80 ≤ b && b ≤ 0xBF

/-- Bytes of the sequence a byte beyond ASCII begins, `0` if it begins none. -/
def sequenceLength (b : UInt8) : ℕ :=
  if 0xC2 ≤ b ∧ b ≤ 0xDF then 2
  else if 0xE0 ≤ b ∧ b ≤ 0xEF then 3
  else if 0xF0 ≤ b ∧ b ≤ 0xF4 then 4
  else 0

/-- A second byte that would make an overlong form, a surrogate or a number beyond Unicode. -/
def isForbiddenSecond (lead b : UInt8) : Bool :=
  (lead = 0xE0 ∧ b < 0xA0) ∨ (lead = 0xED ∧ b > 0x9F) ∨ (lead = 0xF0 ∧ b < 0x90) ∨
    (lead = 0xF4 ∧ b > 0x8F)

/-- The byte can follow those of a sequence. -/
def continues (lead : UInt8) (conts : List UInt8) (b : UInt8) : Bool :=
  isContinuation b && (!conts.isEmpty || !isForbiddenSecond lead b)

/-- The character of a whole sequence. -/
def scalarOf : List UInt8 → Char
  | [a, b] => Char.ofNat ((a.toNat - 0xC0) * 64 + (b.toNat - 0x80))
  | [a, b, c] => Char.ofNat ((a.toNat - 0xE0) * 4096 + (b.toNat - 0x80) * 64 + (c.toNat - 0x80))
  | [a, b, c, d] => Char.ofNat ((a.toNat - 0xF0) * 262144 + (b.toNat - 0x80) * 4096
      + (c.toNat - 0x80) * 64 + (d.toNat - 0x80))
  | _ => replacement

/-! ### The machine -/

/-- A byte between sequences: characters and open sequence. -/
def start (b : UInt8) : List Char × List UInt8 :=
  if b < 0x80 then ([Char.ofNat b.toNat], [])
  else if 0 < sequenceLength b then ([], [b])
  else ([replacement], [])

/-- What is left open at the end is replaced. -/
def flush : List UInt8 → List Char
  | [] => []
  | _ :: _ => [replacement]

/-- A byte after an open sequence. -/
def feed (p : List UInt8) (b : UInt8) : List Char × List UInt8 :=
  match p with
  | [] => start b
  | lead :: conts =>
    if continues lead conts b then
      if conts.length + 2 = sequenceLength lead then ([scalarOf (lead :: conts ++ [b])], [])
      else ([], lead :: conts ++ [b])
    else (replacement :: (start b).1, (start b).2)

/-- All bytes, after an open sequence. -/
def feedAll : List UInt8 → List UInt8 → List Char × List UInt8
  | p, [] => ([], p)
  | p, b :: bs => ((feed p b).1 ++ (feedAll (feed p b).2 bs).1, (feedAll (feed p b).2 bs).2)

/-- The open sequence that bytes end in. -/
def pending (bs : List UInt8) : List UInt8 := (feedAll [] bs).2

/-- The text of bytes, with what is malformed replaced. -/
def fromUtf8Lossy (bs : List UInt8) : List Char := (feedAll [] bs).1 ++ flush (pending bs)

theorem feedAll_append (p a b : List UInt8) :
    feedAll p (a ++ b)
      = ((feedAll p a).1 ++ (feedAll (feedAll p a).2 b).1, (feedAll (feedAll p a).2 b).2) := by
  induction a generalizing p with
  | nil => rfl
  | cons x a ih => simp only [cons_append, feedAll, ih, append_assoc]

/-- A byte that begins a sequence or is one ends what is open. -/
theorem feed_of_not_continuation {b : UInt8} (h : isContinuation b = false) (p : List UInt8) :
    feed p b = (flush p ++ (start b).1, (start b).2) := by
  cases p with
  | nil => rfl
  | cons lead conts =>
    have hno : continues lead conts b = false := by rw [continues, h, Bool.false_and]
    rw [feed, hno, if_neg Bool.false_ne_true]
    rfl

theorem feedAll_cons_of_not_continuation {b : UInt8} (h : isContinuation b = false)
    (p bs : List UInt8) :
    feedAll p (b :: bs) = (flush p ++ (feedAll [] (b :: bs)).1, (feedAll [] (b :: bs)).2) := by
  simp only [feedAll, feed_of_not_continuation h, flush, nil_append, append_assoc]

/-! ### Open sequences -/

/-- The start of a sequence that is not finished. -/
def IsOpen : List UInt8 → Prop
  | [] => False
  | lead :: conts => conts.length + 1 < sequenceLength lead ∧
    (∀ c ∈ conts, isContinuation c = true) ∧ ∀ c ∈ conts.head?, isForbiddenSecond lead c = false

theorem sequenceLength_le (b : UInt8) : sequenceLength b ≤ 4 := by
  unfold sequenceLength
  split_ifs <;> omega

theorem not_continuation_of_sequenceLength {b : UInt8} (h : 0 < sequenceLength b) :
    isContinuation b = false ∧ ¬b < 0x80 := by
  have hlow : 0xC2 ≤ b := by
    unfold sequenceLength at h
    split_ifs at h with h2 h3 h4
    · exact h2.1
    · exact UInt8.le_trans (by decide) h3.1
    · exact UInt8.le_trans (by decide) h4.1
    · exact absurd h (Nat.lt_irrefl 0)
  rw [UInt8.le_iff_toNat_le] at hlow
  have h194 : (0xC2 : UInt8).toNat = 194 := rfl
  simp only [isContinuation, Bool.and_eq_false_iff, decide_eq_false_iff_not, UInt8.le_iff_toNat_le,
    UInt8.lt_iff_toNat_lt, UInt8.reduceToNat]
  omega

variable {s : List UInt8}

theorem IsOpen.length_le (h : IsOpen s) : s.length ≤ 3 := by
  cases s with
  | nil => exact absurd h id
  | cons lead conts =>
    have hlen := h.1
    have hmax := sequenceLength_le lead
    rw [length_cons]
    omega

theorem start_pending (b : UInt8) : (start b).2 = [] ∨ (start b).2 = [b] ∧ IsOpen [b] := by
  unfold start
  split
  · exact .inl rfl
  · split
    · next h =>
      refine .inr ⟨rfl, ?_, by simp, by simp⟩
      unfold sequenceLength at h ⊢
      split_ifs at h ⊢ <;> simp_all
    · exact .inl rfl

/-- A further byte keeps a sequence open, finishes it or begins the next. -/
theorem feed_pending (h : s = [] ∨ IsOpen s) (b : UInt8) :
    (feed s b).2 = [] ∨ IsOpen (feed s b).2 ∧ ((feed s b).2 = s ++ [b] ∨ (feed s b).2 = [b]) := by
  have hstart : (start b).2 = [] ∨
      IsOpen (start b).2 ∧ ((start b).2 = s ++ [b] ∨ (start b).2 = [b]) := by
    rcases start_pending b with hnil | ⟨heq, hopen⟩
    · exact .inl hnil
    · exact .inr ⟨heq ▸ hopen, .inr heq⟩
  cases s with
  | nil => exact hstart
  | cons lead conts =>
    have hopen : IsOpen (lead :: conts) := h.resolve_left (cons_ne_nil _ _)
    rw [feed]
    split
    case isFalse => exact hstart
    case isTrue hcont =>
      split
      case isTrue => exact .inl rfl
      case isFalse hmore =>
        obtain ⟨hlen, hall, hsecond⟩ := hopen
        obtain ⟨hb, hfirst⟩ := Bool.and_eq_true_iff.mp hcont
        refine .inr ⟨⟨?_, ?_, ?_⟩, .inl rfl⟩
        · show (conts ++ [b]).length + 1 < sequenceLength lead
          rw [length_append, length_singleton]
          omega
        · intro c hc
          rcases mem_append.mp hc with hc | hc
          · exact hall c hc
          · rwa [mem_singleton.mp hc]
        · -- the second byte is the new one only if there was none before
          cases conts with
          | nil => simpa using hfirst
          | cons c cs => exact hsecond

/-- **The state is an open sequence** that the bytes end in. -/
theorem pending_open {p : List UInt8} (h : p = [] ∨ IsOpen p) (bs : List UInt8) :
    (feedAll p bs).2 = [] ∨
      IsOpen (feedAll p bs).2 ∧ ∃ a, p ++ bs = a ++ (feedAll p bs).2 := by
  induction bs generalizing p with
  | nil =>
    rcases h with h | h
    · exact .inl h
    · exact .inr ⟨h, [], by simp [feedAll]⟩
  | cons b bs ih =>
    rw [feedAll]
    rcases feed_pending h b with hnil | ⟨hopen, heq⟩
    · rcases ih (.inl hnil) with hr | ⟨hr, a, ha⟩
      · exact .inl hr
      · refine .inr ⟨hr, p ++ [b] ++ a, ?_⟩
        have hbs : a ++ (feedAll (feed p b).2 bs).2 = bs := by
          rw [← ha, hnil]
          rfl
        rw [append_assoc, append_assoc, hbs]
        rfl
    · rcases ih (.inr hopen) with hr | ⟨hr, a, ha⟩
      · exact .inl hr
      · rcases heq with heq | heq
        · refine .inr ⟨hr, a, ?_⟩
          rw [← ha, heq]
          simp
        · refine .inr ⟨hr, p ++ a, ?_⟩
          rw [append_assoc, ← ha, heq]
          simp

theorem feedAll_open_append {lead : UInt8} {c d : List UInt8} (h : IsOpen (lead :: (c ++ d))) :
    feedAll (lead :: c) d = ([], lead :: (c ++ d)) := by
  induction d generalizing c with
  | nil => simp [feedAll]
  | cons b d ih =>
    obtain ⟨hlen, hall, hsecond⟩ := h
    have hcont : continues lead c b = true := by
      rw [continues, hall b (by simp), Bool.true_and]
      cases c with
      | nil => simpa using hsecond
      | cons => rfl
    have hmore : ¬c.length + 2 = sequenceLength lead := by
      simp only [length_append, length_cons] at hlen
      omega
    have hfeed : feed (lead :: c) b = ([], lead :: (c ++ [b])) := by
      rw [feed, if_pos hcont, if_neg hmore]
      rfl
    have happ : c ++ b :: d = (c ++ [b]) ++ d := by simp
    rw [feedAll, hfeed, happ, ih (happ ▸ ⟨hlen, hall, hsecond⟩)]
    rfl

/-- An open sequence is taken without a character. -/
theorem feedAll_open (h : IsOpen s) : feedAll [] s = ([], s) := by
  cases s with
  | nil => exact absurd h id
  | cons lead conts =>
    have hpos : 0 < sequenceLength lead := Nat.lt_of_le_of_lt (Nat.zero_le _) h.1
    have hstart : start lead = ([], [lead]) := by
      rw [start, if_neg (not_continuation_of_sequenceLength hpos).2, if_pos hpos]
    rw [feedAll, feed, hstart, @feedAll_open_append lead [] conts h]
    rfl

theorem IsOpen.head_not_continuation {lead : UInt8} {conts : List UInt8}
    (h : IsOpen (lead :: conts)) : isContinuation lead = false :=
  (not_continuation_of_sequenceLength (Nat.lt_of_le_of_lt (Nat.zero_le _) h.1)).1

/-- Bytes that end in an open sequence leave it open, whatever is in front of it. -/
theorem pending_append_of_open (a : List UInt8) (h : IsOpen s) :
    pending (a ++ s) = s := by
  rw [pending, feedAll_append]
  cases s with
  | nil => exact absurd h id
  | cons lead conts =>
    rw [feedAll_cons_of_not_continuation h.head_not_continuation, feedAll_open h]

/-- **Text can be cut where nothing is open**, and in front of what is. -/
theorem fromUtf8Lossy_append {a s : List UInt8} (h : pending (a ++ s) = s) (b : List UInt8) :
    fromUtf8Lossy (a ++ s ++ b) = fromUtf8Lossy a ++ fromUtf8Lossy (s ++ b) := by
  rcases pending_open (.inl rfl) (a ++ s) with hnil | ⟨hopen, -⟩
  · -- nothing is open behind `a`
    obtain rfl : s = [] := h.symm.trans hnil
    rw [append_nil] at h ⊢
    simp only [fromUtf8Lossy, pending] at h ⊢
    rw [feedAll_append, h, nil_append]
    simp [flush]
  · rw [show (feedAll [] (a ++ s)).2 = s from h] at hopen
    cases s with
    | nil => exact absurd hopen id
    | cons lead conts =>
      simp only [fromUtf8Lossy, pending, append_assoc, cons_append]
      rw [feedAll_append]
      rw [feedAll_cons_of_not_continuation hopen.head_not_continuation]
      simp

end Unicode
