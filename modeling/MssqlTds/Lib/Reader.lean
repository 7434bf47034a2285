import MssqlTds.Lib.Bytes

/-!
# Reading from a byte queue

`Reader ε` is a computation that takes bytes off the front of a queue, or fails with an error of
type `ε`.  What an empty queue means is up to the caller: `take` and `le` are given the error for
it.

`Reads m bs a` specifies a reader on the bytes of one encoding: whatever comes after them, `m`
takes exactly `bs` off the queue and returns `a`.  `Takes m n` says less, of every queue: when `m`
succeeds, it has taken `n` bytes.  Such specifications compose along `bind`.
-/

open Bytes List

/-- A 24-bit number in the 32-bit type it is kept in. -/
abbrev UInt24 := { v : UInt32 // v.toNat < 2 ^ 24 }

/-- The low 24 bits. -/
def UInt24.ofNat (n : ℕ) : UInt24 :=
  ⟨UInt32.ofNat (n % 2 ^ 24), by
    rw [UInt32.toNat_ofNat']
    omega⟩

theorem UInt24.ofNat_mod (n : ℕ) : UInt24.ofNat (n % 2 ^ 24) = UInt24.ofNat n := by
  simp only [UInt24.ofNat, Nat.mod_mod]

theorem UInt24.ofNat_toNat (v : UInt24) : UInt24.ofNat v.val.toNat = v := by
  apply Subtype.ext
  show UInt32.ofNat (v.val.toNat % 2 ^ 24) = v.val
  rw [Nat.mod_eq_of_lt v.property, UInt32.ofNat_toNat]

/-- A computation that takes bytes off the front of a queue. -/
abbrev Reader (ε : Type) := StateT (List UInt8) (Except ε)

namespace Reader

variable {ε α β : Type} {q : List UInt8}

/-- The next `n` bytes; `eof` is given the bytes wanted and the bytes there are. -/
def take (eof : ℕ → ℕ → ε) (n : ℕ) : Reader ε (List UInt8) := fun q =>
  if n ≤ q.length then .ok (q.take n, q.drop n) else .error (eof n q.length)

/-- The next `k` bytes as a little-endian number. -/
def le (eof : ℕ → ℕ → ε) (k : ℕ) : Reader ε ℕ := ofLe <$> take eof k

section Scalars

variable (eof : ℕ → ℕ → ε)

def u8 : Reader ε UInt8 := UInt8.ofNat <$> le eof 1

def u16 : Reader ε UInt16 := UInt16.ofNat <$> le eof 2

def u24 : Reader ε UInt24 := .ofNat <$> le eof 3

def u32 : Reader ε UInt32 := UInt32.ofNat <$> le eof 4

def u40 : Reader ε UInt64 := UInt64.ofNat <$> le eof 5

def u64 : Reader ε UInt64 := UInt64.ofNat <$> le eof 8

def i16 : Reader ε Int16 := UInt16.toInt16 <$> u16 eof

def i32 : Reader ε Int32 := UInt32.toInt32 <$> u32 eof

def i64 : Reader ε Int64 := UInt64.toInt64 <$> u64 eof

end Scalars

/-! ### Running readers -/

@[simp] theorem pure_apply (a : α) : (pure a : Reader ε α) q = .ok (a, q) := rfl

@[simp] theorem throw_apply (e : ε) : (throw e : Reader ε α) q = .error e := rfl

@[simp] theorem bind_apply (m : Reader ε α) (f : α → Reader ε β) :
    (m >>= f) q = match m q with
      | .ok (a, q') => f a q'
      | .error e => .error e := by
  show Except.bind _ _ = _
  cases m q <;> rfl

@[simp] theorem map_apply (m : Reader ε α) (f : α → β) :
    (f <$> m) q = match m q with
      | .ok (a, q') => .ok (f a, q')
      | .error e => .error e := by
  show Except.bind _ _ = _
  cases m q <;> rfl

variable {f : α → Reader ε β} {m : Reader ε α}

theorem bind_ok {a : α} {q' : List UInt8}
    (h : m q = .ok (a, q')) : (m >>= f) q = f a q' := by
  rw [bind_apply, h]

variable {r : List UInt8}

theorem bind_eq_ok {b : β} :
    (m >>= f) q = .ok (b, r) ↔ ∃ a q', m q = .ok (a, q') ∧ f a q' = .ok (b, r) := by
  constructor
  · intro h
    rw [bind_apply] at h
    split at h
    · exact ⟨_, _, ‹_›, h⟩
    · cases h
  · rintro ⟨a, q', hm, hf⟩
    rw [bind_ok hm, hf]

theorem map_eq_ok {f : α → β} {b : β} :
    (f <$> m) q = .ok (b, r) ↔ ∃ a, m q = .ok (a, r) ∧ f a = b := by
  constructor
  · intro h
    rw [map_apply] at h
    split at h
    · cases h
      exact ⟨_, ‹_›, rfl⟩
    · cases h
  · rintro ⟨a, hm, rfl⟩
    rw [map_apply, hm]

variable {eof : ℕ → ℕ → ε}

theorem take_eq_ok {n : ℕ} {bs r : List UInt8} :
    take eof n q = .ok (bs, r) ↔ q = bs ++ r ∧ bs.length = n := by
  rw [take]
  constructor
  · intro h
    split at h
    · cases h
      exact ⟨(take_append_drop n q).symm, by rwa [length_take, Nat.min_eq_left]⟩
    · cases h
  · rintro ⟨rfl, rfl⟩
    rw [if_pos (by simp), take_left, drop_left]

theorem le_eq_ok {k n : ℕ} :
    le eof k q = .ok (n, r) ↔ q = leBytes k n ++ r ∧ n < 256 ^ k := by
  rw [le, map_eq_ok]
  constructor
  · rintro ⟨bs, h, rfl⟩
    obtain ⟨rfl, rfl⟩ := take_eq_ok.mp h
    rw [leBytes_ofLe]
    exact ⟨rfl, ofLe_lt bs⟩
  · rintro ⟨rfl, hn⟩
    exact ⟨leBytes k n, take_eq_ok.mpr ⟨rfl, length_leBytes k n⟩, ofLe_leBytes_of_lt hn⟩

theorem bind_error {e : ε} (h : m q = .error e) :
    (m >>= f) q = .error e := by
  rw [bind_apply, h]

/-! ### Reading one encoding -/

/-- `m` takes exactly `bs` off any queue that starts with them, and returns `a`. -/
def Reads (m : Reader ε α) (bs : List UInt8) (a : α) : Prop :=
  ∀ rest, m (bs ++ rest) = .ok (a, rest)

variable {m : Reader ε α} {bs cs : List UInt8} {a : α} {b : β}

theorem Reads.pure (a : α) : Reads (pure a : Reader ε α) [] a := fun _ => rfl

theorem Reads.bind (hm : Reads m bs a) (hf : Reads (f a) cs b) :
    Reads (m >>= f) (bs ++ cs) b := by
  intro rest
  rw [append_assoc, bind_ok (hm (cs ++ rest))]
  exact hf rest

theorem Reads.map (hm : Reads m bs a) (f : α → β) : Reads (f <$> m) bs (f a) := by
  intro rest
  rw [map_apply, hm rest]

/-- A last step that reads nothing. -/
theorem Reads.bind_pure (hm : Reads m bs a) (hf : f a = Pure.pure b) :
    Reads (m >>= f) bs b := by
  intro rest
  rw [bind_ok (hm rest), hf, pure_apply]

/-- The whole queue is read. -/
theorem Reads.run (hm : Reads m bs a) : m bs = .ok (a, []) := by
  have h := hm []
  rwa [append_nil] at h

theorem reads_take (eof : ℕ → ℕ → ε) {n : ℕ} (h : bs.length = n) : Reads (take eof n) bs bs := by
  intro rest
  rw [take, if_pos (by rw [length_append]; omega), take_left' h, drop_left' h]

theorem reads_le (eof : ℕ → ℕ → ε) (k n : ℕ) :
    Reads (le eof k) (leBytes k n) (n % 256 ^ k) := by
  rw [← ofLe_leBytes]
  exact (reads_take eof (length_leBytes k n)).map ofLe

section Scalars

variable (eof : ℕ → ℕ → ε)

theorem reads_u8 (v : UInt8) : Reads (u8 eof) [v] v := by
  have h := (reads_le eof 1 v.toNat).map UInt8.ofNat
  simpa [leBytes, u8, Nat.mod_eq_of_lt v.toNat_lt] using h

theorem reads_u16 (n : ℕ) : Reads (u16 eof) (leBytes 2 n) (UInt16.ofNat n) := by
  have h := (reads_le eof 2 n).map UInt16.ofNat
  rwa [show n % 256 ^ 2 = n % 2 ^ 16 from rfl, UInt16.ofNat_mod_size] at h

theorem reads_u24 (n : ℕ) : Reads (u24 eof) (leBytes 3 n) (UInt24.ofNat n) := by
  have h := (reads_le eof 3 n).map UInt24.ofNat
  rwa [show n % 256 ^ 3 = n % 2 ^ 24 from rfl, UInt24.ofNat_mod] at h

theorem reads_u32 (n : ℕ) : Reads (u32 eof) (leBytes 4 n) (UInt32.ofNat n) := by
  have h := (reads_le eof 4 n).map UInt32.ofNat
  rwa [show n % 256 ^ 4 = n % 2 ^ 32 from rfl, UInt32.ofNat_mod_size] at h

theorem reads_u40 (n : ℕ) : Reads (u40 eof) (leBytes 5 n) (UInt64.ofNat (n % 256 ^ 5)) :=
  (reads_le eof 5 n).map UInt64.ofNat

theorem reads_u64 (n : ℕ) : Reads (u64 eof) (leBytes 8 n) (UInt64.ofNat n) := by
  have h := (reads_le eof 8 n).map UInt64.ofNat
  rwa [show n % 256 ^ 8 = n % 2 ^ 64 from rfl, UInt64.ofNat_mod_size] at h

theorem reads_i16 (v : Int16) : Reads (i16 eof) (leBytes 2 v.toUInt16.toNat) v := by
  have h := (reads_u16 eof v.toUInt16.toNat).map UInt16.toInt16
  rwa [UInt16.ofNat_toNat, Int16.toInt16_toUInt16] at h

theorem reads_i32 (v : Int32) : Reads (i32 eof) (leBytes 4 v.toUInt32.toNat) v := by
  have h := (reads_u32 eof v.toUInt32.toNat).map UInt32.toInt32
  rwa [UInt32.ofNat_toNat, Int32.toInt32_toUInt32] at h

theorem reads_i64 (v : Int64) : Reads (i64 eof) (leBytes 8 v.toUInt64.toNat) v := by
  have h := (reads_u64 eof v.toUInt64.toNat).map UInt64.toInt64
  rwa [UInt64.ofNat_toNat, Int64.toInt64_toUInt64] at h

end Scalars

/-! ### The number of bytes taken -/

/-- When `m` succeeds, it has taken `n` bytes off the queue. -/
def Takes (m : Reader ε α) (n : ℕ) : Prop :=
  ∀ q a r, m q = .ok (a, r) → ∃ bs, q = bs ++ r ∧ bs.length = n

section Takes

variable {n k : ℕ} {eof : ℕ → ℕ → ε}

theorem takes_pure (a : α) : Takes (Pure.pure a : Reader ε α) 0 := by
  intro q a r h
  cases h
  exact ⟨[], rfl, rfl⟩

theorem takes_throw (e : ε) : Takes (throw e : Reader ε α) n := by
  intro q a r h
  cases h

theorem takes_take : Takes (take eof n) n := by
  intro q bs r h
  exact ⟨bs, take_eq_ok.mp h⟩

theorem Takes.map (hm : Takes m n) (f : α → β) : Takes (f <$> m) n := by
  intro q b r h
  obtain ⟨a, ha, -⟩ := map_eq_ok.mp h
  exact hm q a r ha

theorem Takes.bind (hm : Takes m n) (hf : ∀ a, Takes (f a) k) :
    Takes (m >>= f) (n + k) := by
  intro q b r h
  obtain ⟨a, q', ha, hb⟩ := bind_eq_ok.mp h
  obtain ⟨bs, rfl, rfl⟩ := hm q a q' ha
  obtain ⟨cs, rfl, rfl⟩ := hf a q' b r hb
  exact ⟨bs ++ cs, by rw [append_assoc], length_append⟩

end Takes

/-! ### Repetition -/

/-- Read a number of items one after the other. -/
def times (m : Reader ε α) : ℕ → Reader ε (List α)
  | 0 => .pure []
  | n + 1 => do
    let a ← m
    let as ← times m n
    Pure.pure (a :: as)

end Reader
