import Mathlib.Tactic.Common

/-!
# Segments of a fixed buffer

`segment lo n l` are the `n` elements of `l` from index `lo` on, and `overwrite l dst bs` is `l`
with `bs` written over what stood at `dst`.  The lemmas say what a segment is after a write: the
written elements, or what it was if the write does not touch it.
-/

namespace List

variable {α : Type} {l bs : List α} {lo n m k dst : ℕ}

/-- The `n` elements from index `lo` on. -/
def segment (lo n : ℕ) (l : List α) : List α := (l.drop lo).take n

/-- Write `bs` over what stands at `dst`. -/
def overwrite (l : List α) (dst : ℕ) (bs : List α) : List α :=
  l.take dst ++ bs ++ l.drop (dst + bs.length)

@[simp] theorem segment_zero : segment lo 0 l = [] := by simp [segment]

theorem length_segment (h : lo + n ≤ l.length) : (segment lo n l).length = n := by
  simp only [segment, length_take, length_drop]
  omega

theorem segment_add : segment lo (n + m) l = segment lo n l ++ segment (lo + n) m l := by
  simp only [segment, take_add, drop_drop]

theorem take_segment (h : n ≤ m) : (segment lo m l).take n = segment lo n l := by
  rw [segment, take_take, Nat.min_eq_left h, segment]

theorem drop_segment : (segment lo m l).drop n = segment (lo + n) (m - n) l := by
  rw [segment, drop_take, drop_drop, segment]

theorem length_overwrite (h : dst + bs.length ≤ l.length) :
    (l.overwrite dst bs).length = l.length := by
  simp only [overwrite, length_append, length_take, length_drop]
  omega

theorem segment_overwrite_self (h : dst + bs.length ≤ l.length) :
    segment dst bs.length (l.overwrite dst bs) = bs := by
  have hlen : (l.take dst).length = dst := by
    rw [length_take]
    omega
  rw [segment, overwrite, append_assoc, drop_left' hlen, take_left]

theorem segment_overwrite_before (h : lo + n ≤ dst) (hdst : dst ≤ l.length) :
    segment lo n (l.overwrite dst bs) = segment lo n l := by
  have hlen : (l.take dst).length = dst := by
    rw [length_take]
    omega
  rw [segment, overwrite, append_assoc, drop_append_of_le_length (by omega),
    take_append_of_le_length (by rw [length_drop, hlen]; omega), drop_take, take_take,
    Nat.min_eq_left (by omega), segment]

theorem segment_overwrite_after (h : dst + bs.length ≤ lo) (hl : dst + bs.length ≤ l.length) :
    segment lo n (l.overwrite dst bs) = segment lo n l := by
  have hlen : (l.take dst ++ bs).length = dst + bs.length := by
    rw [length_append, length_take]
    omega
  obtain ⟨k, rfl⟩ := Nat.exists_eq_add_of_le h
  rw [segment, overwrite, ← drop_drop, drop_left' hlen, drop_drop, segment]

/-! ### Copies within the buffer -/

/-- The `n` elements at `lo` copied over those at `dst`. -/
def copySegment (l : List α) (lo n dst : ℕ) : List α := l.overwrite dst (segment lo n l)

theorem length_copySegment (hlo : lo + n ≤ l.length) (hdst : dst + n ≤ l.length) :
    (l.copySegment lo n dst).length = l.length :=
  length_overwrite (by rwa [length_segment hlo])

theorem segment_copySegment_self (hlo : lo + n ≤ l.length) (hdst : dst + n ≤ l.length) :
    segment dst n (l.copySegment lo n dst) = segment lo n l := by
  have hself : segment dst (segment lo n l).length (l.copySegment lo n dst) = segment lo n l :=
    segment_overwrite_self (by rwa [length_segment hlo])
  rwa [length_segment hlo] at hself

theorem segment_copySegment_before (h : k + m ≤ dst) (hdst : dst ≤ l.length) :
    segment k m (l.copySegment lo n dst) = segment k m l := segment_overwrite_before h hdst

theorem segment_copySegment_after (hlo : lo + n ≤ l.length) (h : dst + n ≤ k)
    (hdst : dst + n ≤ l.length) : segment k m (l.copySegment lo n dst) = segment k m l :=
  segment_overwrite_after (by rwa [length_segment hlo]) (by rwa [length_segment hlo])

end List
