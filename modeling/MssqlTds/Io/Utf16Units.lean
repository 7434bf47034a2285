import MssqlTds.Lib.Cursor
import MssqlTds.Lib.Unicode

/-!
# The resumable UTF-16 encoder of the packet writer

`Utf16Units` walks over a text and hands out its UTF-16 units, one at a time (`nextUnit`) or in
runs written to a cursor (`writeLe`).  A unit limit that cuts a surrogate pair leaves the low
surrogate in `pendingLow`.  `units` are the units still to come; every operation takes them from the
front (`nextUnit_spec`, `stageLe_spec`, `writeLe_spec`), and so does every sequence of them
(`calls_exhaust`).
-/

namespace MssqlTds

open Unicode List

/-- A UTF-16 encoder part-way through a text. -/
structure Utf16Units where
  /-- The characters not yet encoded. -/
  rest : List Char
  /-- Low surrogate of a character whose high surrogate is already out. -/
  pendingLow : Option UInt16
  deriving DecidableEq, Repr

namespace Utf16Units

def stageUnits : ℕ := 256

/-- Bytes tested for ASCII at once. -/
def asciiBlock : ℕ := 16

/-- An encoder at the start of a text. -/
def new (value : List Char) : Utf16Units := ⟨value, none⟩

def nextUnit (u : Utf16Units) : Option UInt16 × Utf16Units :=
  match u.pendingLow with
  | some low => (some low, { u with pendingLow := none })
  | none =>
    match u.rest with
    | [] => (none, u)
    | ch :: rest =>
      let units := encodeUtf16 ch
      (units.head?, { rest, pendingLow := units.tail.head? })

/-- Number of ASCII bytes at the front: whole blocks first, then byte by byte. -/
def asciiPrefixLenLoop : ℕ → List UInt8 → ℕ
  | 0, bytes => (bytes.takeWhile isAscii).length
  | fuel + 1, bytes =>
    if asciiBlock ≤ bytes.length ∧ (bytes.take asciiBlock).all isAscii then
      asciiBlock + asciiPrefixLenLoop fuel (bytes.drop asciiBlock)
    else (bytes.takeWhile isAscii).length

/-- Number of ASCII bytes at the front. -/
def asciiPrefixLen (bytes : List UInt8) : ℕ := asciiPrefixLenLoop bytes.length bytes

/-- The loop of `stageLe`: `staged` units stand in `dst`, which has room for `capacity`. -/
def stageLoop (capacity : ℕ) : ℕ → Utf16Units → ℕ → List UInt8 → ℕ × List UInt8 × Utf16Units
  | 0, u, staged, dst => (staged, dst, u)
  | fuel + 1, u, staged, dst =>
    if staged < capacity then
      let bytes := asBytes u.rest
      let ascii := asciiPrefixLen (bytes.take (min bytes.length (capacity - staged)))
      let dst := dst ++ (bytes.take ascii).flatMap fun b => [b, 0]
      let staged := staged + ascii
      -- the characters skipped are ASCII, so the byte offset is a character offset
      let u := { u with rest := u.rest.drop ascii }
      if staged = capacity then (staged, dst, u)
      else match u.rest with
        | [] => (staged, dst, u)
        | ch :: rest =>
          match encodeUtf16 ch with
          | hi :: lo :: _ =>
            if staged + 1 < capacity then
              stageLoop capacity fuel { u with rest } (staged + 2) (dst ++ unitLe hi ++ unitLe lo)
            else stageLoop capacity fuel ⟨rest, some lo⟩ (staged + 1) (dst ++ unitLe hi)
          | unit :: _ => stageLoop capacity fuel { u with rest } (staged + 1) (dst ++ unitLe unit)
          | [] => stageLoop capacity fuel { u with rest } staged dst
    else (staged, dst, u)

/-- Fill a staging buffer of `capacity` units; gives their number, their bytes and the encoder. -/
def stageLe (u : Utf16Units) (capacity : ℕ) : ℕ × List UInt8 × Utf16Units :=
  match u.pendingLow with
  | some low =>
    if 0 < capacity then
      stageLoop capacity (u.rest.length + 1) { u with pendingLow := none } 1 (unitLe low)
    else stageLoop capacity (u.rest.length + 1) u 0 []
  | none => stageLoop capacity (u.rest.length + 1) u 0 []

/-- The loop of `writeLe`, `written` units being out. -/
def writeLoop (maxUnits : ℕ) : ℕ → Utf16Units → Cursor → ℕ → ℕ × Cursor × Utf16Units
  | 0, u, out, written => (written, out, u)
  | fuel + 1, u, out, written =>
    if written < maxUnits then
      let room := min (maxUnits - written) stageUnits
      let (staged, stage, u) := u.stageLe room
      if staged = 0 then (written, out, u)
      else
        let out := out.write stage
        let written := written + staged
        if staged < room then (written, out, u) else writeLoop maxUnits fuel u out written
    else (written, out, u)

/-- Write up to `maxUnits` units at the cursor; fewer means the text is exhausted. -/
def writeLe (u : Utf16Units) (out : Cursor) (maxUnits : ℕ) : ℕ × Cursor × Utf16Units :=
  writeLoop maxUnits (maxUnits + 1) u out 0

/-! ### What is taken, is taken from the front -/

/-- The units an encoder has yet to give. -/
def units (u : Utf16Units) : List UInt16 := u.pendingLow.toList ++ utf16Units u.rest

@[simp] theorem units_new (value : List Char) : (new value).units = utf16Units value := rfl

@[simp] theorem units_mk_none (t : List Char) : units ⟨t, none⟩ = utf16Units t := rfl

@[simp] theorem units_mk_some (t : List Char) (lo : UInt16) :
    units ⟨t, some lo⟩ = lo :: utf16Units t := rfl

theorem nextUnit_spec (u : Utf16Units) :
    u.nextUnit.1 = u.units.head? ∧ u.nextUnit.2.units = u.units.tail := by
  obtain ⟨rest, pending⟩ := u
  cases pending with
  | some low => simp [nextUnit]
  | none =>
    cases rest with
    | nil => simp [nextUnit]
    | cons ch rest =>
      rcases encodeUtf16_cases ch with ⟨unit, h⟩ | ⟨hi, lo, h⟩ <;> simp [nextUnit, h]

theorem asciiPrefixLenLoop_eq (fuel : ℕ) (bytes : List UInt8) :
    asciiPrefixLenLoop fuel bytes = (bytes.takeWhile isAscii).length := by
  induction fuel generalizing bytes with
  | zero => rfl
  | succ fuel ih =>
    rw [asciiPrefixLenLoop]
    split
    · rename_i h
      have hall : ∀ b ∈ bytes.take asciiBlock, isAscii b = true := all_eq_true.mp h.2
      conv_rhs => rw [← take_append_drop asciiBlock bytes]
      rw [takeWhile_append_of_pos hall, length_append, length_take, ih,
        Nat.min_eq_left h.1]
    · rfl

theorem asciiPrefixLen_eq (bytes : List UInt8) :
    asciiPrefixLen bytes = (bytes.takeWhile isAscii).length :=
  asciiPrefixLenLoop_eq _ _

/-- What staging up to a total of `capacity` units does to an encoder with units `us` and to a
buffer that already holds `staged` of them. -/
structure Staged (us : List UInt16) (capacity staged : ℕ) (dst : List UInt8)
    (r : ℕ × List UInt8 × Utf16Units) : Prop where
  count : r.1 = staged + min (capacity - staged) us.length
  bytes : r.2.1 = dst ++ unitsLe (us.take (capacity - staged))
  units : r.2.2.units = us.drop (capacity - staged)

variable {dst : List UInt8} {capacity staged : ℕ}

theorem Staged.full {u : Utf16Units}
    (h : capacity ≤ staged) : Staged u.units capacity staged dst (staged, dst, u) := by
  have h0 : capacity - staged = 0 := Nat.sub_eq_zero_of_le h
  constructor <;> simp [h0]

theorem Staged.done :
    Staged [] capacity staged dst (staged, dst, ⟨[], none⟩) := by
  constructor <;> simp

theorem Staged.prepend (us : List UInt16) {vs : List UInt16}
    {r : ℕ × List UInt8 × Utf16Units} (hcap : staged + us.length ≤ capacity)
    (h : Staged vs capacity (staged + us.length) (dst ++ unitsLe us) r) :
    Staged (us ++ vs) capacity staged dst r := by
  have hsplit : capacity - staged = us.length + (capacity - (staged + us.length)) := by omega
  constructor
  · rw [h.count, length_append]
    omega
  · rw [h.bytes, hsplit, take_length_add_append, unitsLe_append, append_assoc]
  · rw [h.units, hsplit, drop_length_add_append]

theorem stageLoop_full {capacity staged fuel : ℕ} {u : Utf16Units}
    (h : capacity ≤ staged) : stageLoop capacity fuel u staged dst = (staged, dst, u) := by
  cases fuel with
  | zero => rfl
  | succ fuel => rw [stageLoop, if_neg (Nat.not_lt.mpr h)]

theorem stageLoop_spec (capacity fuel : ℕ) (t : List Char) (staged : ℕ) (dst : List UInt8)
    (hfuel : t.length < fuel) :
    Staged (utf16Units t) capacity staged dst (stageLoop capacity fuel ⟨t, none⟩ staged dst) := by
  -- each round ends the loop or consumes a character
  induction fuel generalizing t staged dst with
  | zero => omega
  | succ fuel ih =>
    by_cases hcap : capacity ≤ staged
    · rw [stageLoop_full hcap]
      exact Staged.full (u := ⟨t, none⟩) hcap
    rw [stageLoop, if_pos (by omega)]
    obtain ⟨hk, us, hlen, hunits, hbytes⟩ := takeWhile_asBytes t (capacity - staged)
    rw [← asciiPrefixLen_eq] at hk hlen hunits hbytes
    simp only [Nat.min_comm (asBytes t).length, ← take_eq_take_min]
    generalize asciiPrefixLen ((asBytes t).take (capacity - staged)) = k
      at hk hlen hunits hbytes ⊢
    subst hlen
    rw [hunits, ← hbytes]
    apply Staged.prepend us (by omega)
    split
    · exact Staged.full (u := ⟨t.drop us.length, none⟩) (by omega)
    · have hdrop : (t.drop us.length).length ≤ t.length := by simp
      generalize t.drop us.length = t' at hdrop
      cases t' with
      | nil => exact Staged.done
      | cons ch rest =>
        simp only [length_cons] at hdrop
        rcases encodeUtf16_cases ch with ⟨unit, h⟩ | ⟨hi, lo, h⟩
        · simp only [utf16Units_cons, h]
          exact Staged.prepend [unit] (by simp; omega) (by
            simpa using ih rest (staged + us.length + 1) (dst ++ unitsLe us ++ unitLe unit)
              (by omega))
        · simp only [utf16Units_cons, h]
          split
          · exact Staged.prepend [hi, lo] (by simp; omega) (by
              simpa using ih rest (staged + us.length + 2)
                (dst ++ unitsLe us ++ unitLe hi ++ unitLe lo) (by omega))
          · rw [stageLoop_full (by omega)]
            exact Staged.prepend [hi] (by simp; omega) (by
              simpa using Staged.full (u := ⟨rest, some lo⟩) (by omega))

theorem stageLe_spec (u : Utf16Units) (capacity : ℕ) :
    Staged u.units capacity 0 [] (u.stageLe capacity) := by
  obtain ⟨rest, pending⟩ := u
  cases pending with
  | none => exact stageLoop_spec _ _ _ _ _ (Nat.lt_succ_self _)
  | some low =>
    simp only [stageLe]
    split
    · exact .prepend [low] (by simp; omega) (by
        simpa using stageLoop_spec capacity _ rest 1 (unitLe low) (Nat.lt_succ_self _))
    · rw [stageLoop_full (by omega)]
      exact .full (u := ⟨rest, some low⟩) (by omega)

theorem writeLoop_spec (maxUnits fuel : ℕ) (u : Utf16Units) (out : Cursor) (written : ℕ)
    (hfuel : maxUnits - written < fuel) :
    let r := writeLoop maxUnits fuel u out written
    r.1 = written + min (maxUnits - written) u.units.length ∧
      out.Extends r.2.1 (unitsLe (u.units.take (maxUnits - written))) ∧
      r.2.2.units = u.units.drop (maxUnits - written) := by
  -- each round fills the rest of the limit, exhausts the text, or writes a whole stage
  induction fuel generalizing u out written with
  | zero => omega
  | succ fuel ih =>
    rw [writeLoop]
    split
    case isFalse h =>
      have h0 : maxUnits - written = 0 := by omega
      simpa [h0] using Cursor.Extends.refl out
    case isTrue hlt =>
      have hroom : 0 < min (maxUnits - written) stageUnits := by simp [stageUnits]; omega
      dsimp only
      generalize hr : min (maxUnits - written) stageUnits = room at hroom ⊢
      have hstage := u.stageLe_spec room
      generalize u.stageLe room = s at hstage ⊢
      obtain ⟨staged, stage, u'⟩ := s
      obtain ⟨hcount, hbytes, hunits⟩ := hstage
      simp only [Nat.sub_zero, Nat.zero_add, nil_append] at hcount hbytes hunits ⊢
      split
      case isTrue h0 =>
        have hnil : u.units = [] := eq_nil_of_length_eq_zero (by omega)
        simpa [hnil, hunits] using Cursor.Extends.refl out
      case isFalse h0 =>
        split
        case isTrue hend =>
          -- the staging buffer was not filled: the text is exhausted
          have hall : u.units.length ≤ maxUnits - written := by omega
          have htake : u.units.take room = u.units := take_of_length_le (by omega)
          have hdrop : u.units.drop room = [] := drop_of_length_le (by omega)
          refine ⟨by omega, ?_, by rw [hunits, hdrop, drop_of_length_le hall]⟩
          rw [take_of_length_le hall, ← htake, ← hbytes]
          exact Cursor.extends_write stage
        case isFalse hend =>
          obtain ⟨hc, he, hu⟩ := ih u' (out.write stage) (written + staged) (by omega)
          have hst : staged = room := by omega
          have hsplit : maxUnits - written = staged + (maxUnits - (written + staged)) := by omega
          refine ⟨?_, ?_, ?_⟩
          · rw [hc, hunits, length_drop]
            omega
          · have hsum : stage ++ unitsLe (u'.units.take (maxUnits - (written + staged))) =
                unitsLe (u.units.take (maxUnits - written)) := by
              rw [hbytes, hunits, ← unitsLe_append, ← hst, ← take_add, ← hsplit]
            exact hsum ▸ (Cursor.extends_write stage).trans he
          · rw [hu, hunits, drop_drop, ← hst, ← hsplit]

/-- `writeLe` appends the next units, as many as the limit allows. -/
theorem writeLe_spec (u : Utf16Units) (out : Cursor) (maxUnits : ℕ) :
    (u.writeLe out maxUnits).1 = min maxUnits u.units.length ∧
      out.Extends (u.writeLe out maxUnits).2.1 (unitsLe (u.units.take maxUnits)) ∧
      (u.writeLe out maxUnits).2.2.units = u.units.drop maxUnits := by
  simpa [writeLe] using writeLoop_spec maxUnits (maxUnits + 1) u out 0 (Nat.lt_succ_self _)

/-! ### Sequences of calls -/

/-- A call with its limit: in units for `writeLe`, in bytes of the buffer for `stageLe`. -/
inductive Call
  | writeLe (maxUnits : ℕ)
  | stageLe (dstLen : ℕ)
  | nextUnit

/-- The units a call may take. -/
def Call.limit : Call → ℕ
  | .writeLe maxUnits => maxUnits
  | .stageLe dstLen => dstLen / 2
  | .nextUnit => 1

/-- A call whose bytes go to a cursor. -/
def call (s : Cursor × Utf16Units) : Call → Cursor × Utf16Units
  | .writeLe maxUnits => (s.2.writeLe s.1 maxUnits).2
  | .stageLe dstLen =>
    let (_, stage, u) := s.2.stageLe (dstLen / 2)
    (s.1.write stage, u)
  | .nextUnit =>
    let (unit, u) := s.2.nextUnit
    (s.1.write (unitsLe unit.toList), u)

theorem call_spec (s : Cursor × Utf16Units) (c : Call) :
    s.1.Extends (call s c).1 (unitsLe (s.2.units.take c.limit)) ∧
      (call s c).2.units = s.2.units.drop c.limit := by
  cases c with
  | writeLe maxUnits => exact (s.2.writeLe_spec s.1 maxUnits).2
  | stageLe dstLen =>
    obtain ⟨-, hbytes, hunits⟩ := s.2.stageLe_spec (dstLen / 2)
    rw [nil_append] at hbytes
    exact ⟨hbytes ▸ Cursor.extends_write _, hunits⟩
  | nextUnit =>
    obtain ⟨hunit, hunits⟩ := s.2.nextUnit_spec
    refine ⟨?_, by rw [Call.limit, drop_one]; exact hunits⟩
    rw [Call.limit, take_one, ← hunit]
    exact Cursor.extends_write _

theorem calls_spec (calls : List Call) (s : Cursor × Utf16Units) :
    s.1.Extends (calls.foldl call s).1 (unitsLe (s.2.units.take (calls.map Call.limit).sum)) ∧
      (calls.foldl call s).2.units = s.2.units.drop (calls.map Call.limit).sum := by
  induction calls generalizing s with
  | nil => exact ⟨Cursor.Extends.refl _, rfl⟩
  | cons c calls ih =>
    obtain ⟨hbytes, hunits⟩ := call_spec s c
    obtain ⟨hmore, hrest⟩ := ih (call s c)
    rw [hunits] at hmore hrest
    rw [map_cons, sum_cons, take_add, unitsLe_append]
    exact ⟨hbytes.trans hmore, by rw [foldl_cons, hrest, drop_drop]⟩

/-- **Every limit is harmless.**  Calls exhaust the text as soon as their limits add up to its
units, and then the bytes written are its UTF-16 form. -/
theorem calls_exhaust (value : List Char) (calls : List Call) (out : Cursor) :
    let r := calls.foldl call (out, new value)
    (r.2.nextUnit.1 = none ↔ (utf16Units value).length ≤ (calls.map Call.limit).sum) ∧
      (r.2.nextUnit.1 = none → out.Extends r.1 (utf16le value)) := by
  obtain ⟨hbytes, hunits⟩ := calls_spec calls (out, new value)
  rw [units_new] at hbytes hunits
  have hexhausted : (calls.foldl call (out, new value)).2.nextUnit.1 = none ↔
      (utf16Units value).length ≤ (calls.map Call.limit).sum := by
    rw [(nextUnit_spec _).1, List.head?_eq_none_iff, hunits, drop_eq_nil_iff]
  refine ⟨hexhausted, fun h => ?_⟩
  rwa [take_of_length_le (hexhausted.mp h)] at hbytes

/-- A pair cut by a limit of one unit, with an odd and an empty buffer around it. -/
theorem calls_exhaust_pair :
    Cursor.Extends ⟨[], 0⟩
      ([Call.stageLe 3, .writeLe 1, .stageLe 0, .nextUnit].foldl call (⟨[], 0⟩, new ['A', '😀'])).1
      (utf16le ['A', '😀']) :=
  (calls_exhaust ['A', '😀'] [.stageLe 3, .writeLe 1, .stageLe 0, .nextUnit] ⟨[], 0⟩).2
    (by decide +kernel)

end Utf16Units

end MssqlTds
