import MssqlTds.Lib.Reader

/-!
# Reading what is already there

A reader that works on the bytes received so far may give up, without a result and without an
error, where the bytes run out or where it does not handle what it meets.  `Attempt ε` is such a
reader: it fails with `none` to give up and with `some e` on an error.

`Anticipates m m' q` compares an attempt on the bytes `q` with a reader of the whole queue.  If the
attempt has a result, the reader has the same one and takes the same bytes, whatever follows `q`.
If it fails, so does the reader, not necessarily with the same error.  Nothing is said where it
gives up.  The relation is kept by `bind`, so it is proved along the steps of the two readers.
-/

namespace Reader

open List

variable {ε ε' α β : Type} {q : List UInt8}

/-- A reader that may give up. -/
abbrev Attempt (ε : Type) := Reader (Option ε)

/-- The outcome of an attempt on `bytes`: nothing if it gave up, and otherwise the value with the
number of bytes it took. -/
def Attempt.run (m : Attempt ε α) (bytes : List UInt8) : Except ε (Option (α × ℕ)) :=
  match m bytes with
  | .ok (a, rest) => .ok (some (a, bytes.length - rest.length))
  | .error none => .ok none
  | .error (some e) => .error e

/-- Give up unless `m` takes `n` bytes. -/
def Attempt.taking (n : ℕ) (m : Attempt ε α) : Attempt ε α := fun q =>
  match m q with
  | .ok (a, q') => if q.length - q'.length = n then .ok (a, q') else .error none
  | .error e => .error e

/-- Run `m` on the next `n` bytes, and give up unless it takes them all. -/
def Attempt.exactly (n : ℕ) (m : Attempt ε α) : Attempt ε α := fun q =>
  if n ≤ q.length then
    match m (q.take n) with
    | .ok (a, []) => .ok (a, q.drop n)
    | .ok (_, _ :: _) => .error none
    | .error e => .error e
  else .error none

variable {a : α}

theorem reads_exactly {m : Attempt ε α} {bs : List UInt8} {n : ℕ} (h : Reads m bs a)
    (hn : bs.length = n) : Reads (Attempt.exactly n m) bs a := by
  intro rest
  rw [Attempt.exactly, if_pos (by rw [length_append]; omega), take_left' hn,
    drop_left' hn, h.run]

/-- The two readers have the same results; they may fail with different errors. -/
def SameResults (m m' : Reader ε α) : Prop := ∀ q r, m q = .ok r ↔ m' q = .ok r

namespace SameResults

theorem refl (m : Reader ε α) : SameResults m m := fun _ _ => Iff.rfl

theorem bind {m m' : Reader ε α} {f f' : α → Reader ε β} (hm : SameResults m m')
    (hf : ∀ a, SameResults (f a) (f' a)) : SameResults (m >>= f) (m' >>= f') := by
  rintro q ⟨b, r⟩
  simp only [bind_eq_ok, hm _ _, hf _ _ _]

theorem map {m m' : Reader ε α} (hm : SameResults m m') (f : α → β) :
    SameResults (f <$> m) (f <$> m') := by
  rintro q ⟨b, r⟩
  simp only [map_eq_ok, hm _ _]

theorem ite {c : Prop} [Decidable c] {m m' n n' : Reader ε α} (hm : SameResults m m')
    (hn : SameResults n n') : SameResults (if c then m else n) (if c then m' else n') := by
  split
  · exact hm
  · exact hn

end SameResults

/-- An attempt that takes all bytes. -/
theorem run_reads {m : Attempt ε α} {bs : List UInt8} (h : Reads m bs a) :
    m.run bs = .ok (some (a, bs.length)) := by
  simp only [Attempt.run, h.run, length_nil, Nat.sub_zero]

/-- What `m` makes of `q`, `m'` makes of every queue that starts with `q`. -/
def Anticipates (m : Attempt ε α) (m' : Reader ε' α) (q : List UInt8) : Prop :=
  ∀ rest, match m q with
    | .ok (a, q') => q' <:+ q ∧ m' (q ++ rest) = .ok (a, q' ++ rest)
    | .error none => True
    | .error (some _) => ∃ e, m' (q ++ rest) = .error e

namespace Anticipates

variable {m : Attempt ε α} {m' : Reader ε' α}

theorem ok {q' : List UInt8} (h : Anticipates m m' q) (hm : m q = .ok (a, q'))
    (rest : List UInt8) : q' <:+ q ∧ m' (q ++ rest) = .ok (a, q' ++ rest) := by
  have := h rest
  rwa [hm] at this

theorem error {e : ε} (h : Anticipates m m' q) (hm : m q = .error (some e))
    (rest : List UInt8) : ∃ e', m' (q ++ rest) = .error e' := by
  have := h rest
  rwa [hm] at this

theorem pure (a : α) : Anticipates (pure a : Attempt ε α) (pure a : Reader ε' α) q :=
  fun _ => ⟨suffix_refl q, rfl⟩

/-- Giving up promises nothing. -/
theorem giveUp : Anticipates (throw none : Attempt ε α) m' q := fun _ => trivial

theorem fail (e : ε) (e' : ε') :
    Anticipates (throw (some e) : Attempt ε α) (throw e' : Reader ε' α) q := fun _ => ⟨e', rfl⟩

theorem bind {f : α → Attempt ε β} {f' : α → Reader ε' β} (hm : Anticipates m m' q)
    (hf : ∀ a q', m q = .ok (a, q') → Anticipates (f a) (f' a) q') :
    Anticipates (m >>= f) (m' >>= f') q := by
  intro rest
  rw [bind_apply]
  match h : m q with
  | .ok (a, q') =>
    obtain ⟨hsuffix, hm'⟩ := hm.ok h rest
    rw [bind_ok hm']
    match hfa : f a q' with
    | .ok (b, q'') =>
      obtain ⟨hsuffix', hf'⟩ := (hf a q' h).ok hfa rest
      simp only [hfa]
      exact ⟨hsuffix'.trans hsuffix, hf'⟩
    | .error none => simp only [hfa]
    | .error (some e) =>
      simp only [hfa]
      exact (hf a q' h).error hfa rest
  | .error none => trivial
  | .error (some e) =>
    obtain ⟨e', he⟩ := hm.error h rest
    exact ⟨e', bind_error he⟩

theorem map (hm : Anticipates m m' q) (f : α → β) : Anticipates (f <$> m) (f <$> m') q := by
  intro rest
  rw [map_apply]
  match h : m q with
  | .ok (a, q') =>
    obtain ⟨hsuffix, hm'⟩ := hm.ok h rest
    exact ⟨hsuffix, by rw [map_apply, hm']⟩
  | .error none => trivial
  | .error (some e) =>
    obtain ⟨e', he⟩ := hm.error h rest
    exact ⟨e', by rw [map_apply, he]⟩

theorem ite {c : Prop} [Decidable c] {n : Attempt ε α} {n' : Reader ε' α}
    (hm : c → Anticipates m m' q) (hn : ¬ c → Anticipates n n' q) :
    Anticipates (if c then m else n) (if c then m' else n') q := by
  split
  · exact hm ‹_›
  · exact hn ‹_›

/-- A check of the attempt at which the reader goes on. -/
theorem guard {c : Prop} [Decidable c] (hm : ¬ c → Anticipates m m' q) :
    Anticipates (if c then throw none else m) m' q := by
  split
  · exact giveUp
  · exact hm ‹_›

theorem take (eof : ℕ → ℕ → ε') (n : ℕ) :
    Anticipates (take (fun _ _ => none) n : Attempt ε _) (Reader.take eof n) q := by
  intro rest
  by_cases h : n ≤ q.length
  · simp only [Reader.take, if_pos h, length_append, if_pos (Nat.le_add_right_of_le h),
      take_append_of_le_length h, drop_append_of_le_length h]
    exact ⟨drop_suffix n q, trivial⟩
  · simp only [Reader.take, if_neg h]

theorem taking (n : ℕ) (hm : Anticipates m m' q) : Anticipates (Attempt.taking n m) m' q := by
  intro rest
  have := hm rest
  unfold Attempt.taking
  split at this
  · rename_i a q' hq
    by_cases hn : q.length - q'.length = n
    · simp only [hq, if_pos hn]
      exact this
    · simp only [hq, if_neg hn]
  · simp only [‹m q = _›]
  · simp only [‹m q = _›]
    exact this

theorem exactly {n : ℕ} (hm : n ≤ q.length → Anticipates m m' (q.take n)) :
    Anticipates (Attempt.exactly n m) m' q := by
  intro rest
  unfold Attempt.exactly
  by_cases hn : n ≤ q.length
  · have := hm hn (q.drop n ++ rest)
    rw [← append_assoc, take_append_drop] at this
    simp only [if_pos hn]
    match hq : m (q.take n) with
    | .ok (a, []) =>
      simp only [hq, nil_append] at this ⊢
      exact ⟨drop_suffix n q, this.2⟩
    | .ok (_, _ :: _) => trivial
    | .error none => trivial
    | .error (some e) =>
      rw [hq] at this
      exact this
  · simp only [if_neg hn]

/-- The reader takes the bytes that the attempt reports. -/
theorem run {used : ℕ} (h : Anticipates m m' q) (hm : m.run q = .ok (some (a, used)))
    (rest : List UInt8) :
    used ≤ q.length ∧ m' (q ++ rest) = .ok (a, (q ++ rest).drop used) := by
  unfold Attempt.run at hm
  split at hm
  · rename_i a' q' hq
    cases hm
    obtain ⟨⟨taken, rfl⟩, hm'⟩ := h.ok hq rest
    rw [hm', append_assoc, length_append, Nat.add_sub_cancel, drop_left]
    exact ⟨Nat.le_add_right _ _, rfl⟩
  · cases hm
  · cases hm

theorem run_error {e : ε} (h : Anticipates m m' q) (hm : m.run q = .error e)
    (rest : List UInt8) : ∃ e', m' (q ++ rest) = .error e' := by
  unfold Attempt.run at hm
  split at hm
  · cases hm
  · cases hm
  · exact h.error ‹_› rest

end Anticipates

end Reader
