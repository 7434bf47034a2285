import MssqlTds.Datatypes.ColumnValues
import MssqlTds.Lib.DecimalDigits
import MssqlTds.Lib.EState
import MssqlTds.Odbc.Text
import Mathlib.Algebra.Order.Field.Rat
import Mathlib.Algebra.Order.Field.Basic
import Mathlib.Data.Nat.Size

/-!
# Decimals as text

`formatInto` renders a decimal into a buffer of 48 bytes, digit by digit from the right.  The
magnitude is cut into limbs of nineteen digits first, so that a digit takes a 64-bit division.
`fromString` parses a text with an arbitrary-precision library, which is a parameter
(`BigDecimals`).

* `formatLoop_renders` : the loop writes the digits and the point in front of what is there.
* `decimal_text` : the buffer never overflows, the text is the canonical one, and it is read back to
  the same sign and magnitude.
-/

namespace MssqlTds

open Bytes Unicode DecimalDigits

/-! ### The buffer -/

/-- Bytes needed to render any decimal. -/
def decimalStrLen : ℕ := 48

/-- A caller's buffer, filled from its end. -/
structure DecimalBuffer where
  bytes : Vector UInt8 decimalStrLen
  pos : ℕ
  pos_le : pos ≤ decimalStrLen

namespace DecimalBuffer

def untouched (bytes : Vector UInt8 decimalStrLen) : DecimalBuffer :=
  ⟨bytes, decimalStrLen, le_refl _⟩

/-- Write a byte in front of those written. -/
def put : DecimalBuffer → UInt8 → TdsResult DecimalBuffer
  | ⟨_, 0, _⟩, _ => .error (.panic "attempt to subtract with overflow")
  | ⟨bytes, p + 1, hle⟩, b => .ok ⟨bytes.set p b hle, p, Nat.le_of_succ_le hle⟩

/-- The bytes written. -/
def text (buf : DecimalBuffer) : List UInt8 := buf.bytes.toList.drop buf.pos

end DecimalBuffer

/-! ### Rendering -/

namespace DecimalParts

/-- The largest power of ten in 64 bits. -/
def limb : ℕ := 10000000000000000000

def limbDigits : ℕ := 19

/-- The magnitude in limbs, least significant first. -/
def limbs (d : DecimalParts) : UInt64 × List UInt64 :=
  let magnitude := d.magnitude.toNat
  if magnitude ≤ 2 ^ 64 - 1 then (UInt64.ofNat magnitude, [])
  else
    let rest := magnitude / limb
    if rest ≤ 2 ^ 64 - 1 then (UInt64.ofNat (magnitude % limb), [UInt64.ofNat rest])
    else (UInt64.ofNat (magnitude % limb),
      [UInt64.ofNat (rest % limb), UInt64.ofNat (rest / limb)])

/-- The scale, cut to what the buffer has room for. -/
def clampedScale (d : DecimalParts) : ℕ := min d.scale.toNat (decimalStrLen - 3)

/-- The decimal point, once the fractional digits are written. -/
def putPoint (scale emitted : ℕ) (buf : DecimalBuffer) : TdsResult DecimalBuffer :=
  if scale > 0 ∧ emitted = scale then buf.put 0x2E else .ok buf

/-- The limb to take digits from: the next one, once this one has given all of its digits. -/
def nextLimb (current : UInt64) (taken : ℕ) : List UInt64 → UInt64 × ℕ × List UInt64
  | next :: higher =>
    if taken = limbDigits then (next, 0, higher) else (current, taken, next :: higher)
  | [] => (current, taken, [])

/-- The loop of `formatInto`, one digit at a time. -/
def formatLoop (scale : ℕ) : ℕ → DecimalBuffer → UInt64 → ℕ → ℕ → List UInt64 →
    TdsResult DecimalBuffer
  | 0, _, _, _, _, _ => .error .outOfFuel
  | fuel + 1, buf, current, taken, emitted, higher => do
    let buf ← putPoint scale emitted buf
    let buf ← buf.put (0x30 + (current % 10).toUInt8)
    let (current, taken, higher) := nextLimb (current / 10) (taken + 1) higher
    if higher = [] ∧ current = 0 ∧ emitted + 1 > scale then pure buf
    else formatLoop scale fuel buf current taken (emitted + 1) higher

/-- Render the value into the buffer. -/
def formatInto (d : DecimalParts) (bytes : Vector UInt8 decimalStrLen) : TdsResult (List Char) := do
  let (current, higher) := d.limbs
  let buf ← formatLoop d.clampedScale decimalStrLen (.untouched bytes) current 0 0 higher
  let buf ← if d.isPositive then pure buf else buf.put 0x2D
  pure ((fromUtf8 buf.text).getD [])

end DecimalParts

/-! ### The canonical text -/

/-- The text of `(-1) ^ sign * m * 10 ^ (-scale)`: exactly `scale` fractional digits behind an
integer part without superfluous zeros. -/
def decimalText (isPositive : Bool) (scale m : ℕ) : List Char :=
  (if isPositive then [] else ['-']) ++ Nat.toDigits 10 (m / 10 ^ scale) ++
    if scale = 0 then [] else '.' :: lastDigits scale m

/-! ### What the loop writes -/

namespace DecimalBuffer

variable {buf : DecimalBuffer}

/-- There is room for a byte as long as the buffer is not full. -/
theorem put_eq_ok (b : UInt8) (h : 0 < buf.pos) :
    ∃ buf', buf.put b = .ok buf' ∧ buf'.text = b :: buf.text ∧ buf'.pos + 1 = buf.pos := by
  obtain ⟨bytes, pos, hle⟩ := buf
  cases pos with
  | zero => cases h
  | succ p =>
    refine ⟨_, rfl, ?_, rfl⟩
    have hlt : p < decimalStrLen := hle
    have hlen : p < (bytes.toList.set p b).length := by simpa using hlt
    simp only [text, Vector.toList_set]
    rw [List.drop_eq_getElem_cons hlen, List.getElem_set_self, List.drop_set_of_lt p.lt_succ_self]

end DecimalBuffer

namespace DecimalParts

/-- What the loop still writes in front, with `r` left of the magnitude. -/
def rendered (scale emitted r : ℕ) : List Char :=
  if emitted ≤ scale then
    Nat.toDigits 10 (r / 10 ^ (scale - emitted)) ++
      if scale = 0 then [] else '.' :: lastDigits (scale - emitted) r
  else Nat.toDigits 10 r

/-- The point in front of a digit. -/
def pointAt (scale emitted : ℕ) : List Char := if scale > 0 ∧ emitted = scale then ['.'] else []

theorem rendered_last {scale emitted r : ℕ} (hr : r / 10 = 0) (he : scale < emitted + 1) :
    rendered scale emitted r = (r % 10).digitChar :: pointAt scale emitted := by
  have hlt : r < 10 := by omega
  have hdigit : Nat.toDigits 10 r = [(r % 10).digitChar] := by
    rw [Nat.mod_eq_of_lt hlt, Nat.toDigits_of_lt_base hlt]
  unfold rendered pointAt
  rcases Nat.lt_or_ge scale emitted with h | h
  · rw [if_neg (by omega), if_neg (by omega), hdigit]
  · obtain rfl : emitted = scale := by omega
    rw [if_pos (le_refl _), Nat.sub_self, pow_zero, Nat.div_one, hdigit]
    by_cases h0 : emitted = 0
    · rw [if_pos h0, if_neg (by omega)]
      rfl
    · rw [if_neg h0, if_pos ⟨by omega, rfl⟩]
      rfl

theorem rendered_step {scale emitted r : ℕ} (h : ¬ (r / 10 = 0 ∧ scale < emitted + 1)) :
    rendered scale emitted r =
      rendered scale (emitted + 1) (r / 10) ++ (r % 10).digitChar :: pointAt scale emitted := by
  unfold rendered pointAt
  rcases Nat.lt_or_ge emitted scale with hlt | hge
  · -- a fractional digit
    obtain ⟨k, hk⟩ : ∃ k, scale - emitted = k + 1 := ⟨scale - emitted - 1, by omega⟩
    have h0 : scale ≠ 0 := by omega
    rw [if_pos hlt.le, if_pos (show emitted + 1 ≤ scale from hlt), if_neg h0, if_neg h0,
      if_neg (show ¬ (scale > 0 ∧ emitted = scale) by omega), hk,
      show scale - (emitted + 1) = k by omega, lastDigits, pow_succ', ← Nat.div_div_eq_div_mul]
    simp
  · have hdigits : Nat.toDigits 10 r = Nat.toDigits 10 (r / 10) ++ [(r % 10).digitChar] :=
      toDigits_of_ge (by omega)
    rw [if_neg (show ¬ emitted + 1 ≤ scale by omega)]
    rcases Nat.lt_or_ge scale emitted with hgt | hle
    · rw [if_neg (by omega), if_neg (by omega), hdigits]
    · obtain rfl : emitted = scale := by omega
      rw [if_pos (le_refl _), Nat.sub_self, pow_zero, Nat.div_one, hdigits]
      by_cases h0 : emitted = 0
      · rw [if_pos h0, if_neg (by omega)]
        simp
      · rw [if_neg h0, if_pos ⟨by omega, rfl⟩]
        simp [lastDigits]

theorem rendered_ne_nil (scale emitted r : ℕ) : rendered scale emitted r ≠ [] := by
  unfold rendered
  split
  · exact List.append_ne_nil_of_left_ne_nil Nat.toDigits_ne_nil _
  · exact Nat.toDigits_ne_nil

/-! ### Limbs -/

/-- The number the limbs spell. -/
def limbsValue : List UInt64 → ℕ
  | [] => 0
  | l :: ls => l.toNat + limb * limbsValue ls

/-- Every limb but the last has at most nineteen digits, and the last is not zero. -/
def LimbsOk : List UInt64 → Prop
  | [] => True
  | [l] => 0 < l.toNat
  | l :: ls => l.toNat < limb ∧ LimbsOk ls

/-- `r` is what is left of the magnitude: the rest of the current limb, below the higher limbs. -/
def Left (current : UInt64) (taken : ℕ) (higher : List UInt64) (r : ℕ) : Prop :=
  if higher = [] then r = current.toNat
  else taken < limbDigits ∧ current.toNat < 10 ^ (limbDigits - taken) ∧
    r = current.toNat + 10 ^ (limbDigits - taken) * limbsValue higher ∧ LimbsOk higher

theorem limbsValue_pos {l : UInt64} {ls : List UInt64} (h : LimbsOk (l :: ls)) :
    0 < limbsValue (l :: ls) := by
  induction ls generalizing l with
  | nil =>
    have h : 0 < l.toNat := h
    rw [limbsValue]
    omega
  | cons l' ls ih =>
    have := ih h.2
    rw [limbsValue, limb]
    omega

/-- A whole limb is taken up. -/
theorem left_limb {l : UInt64} {ls : List UInt64} (h : LimbsOk (l :: ls)) :
    Left l 0 ls (limbsValue (l :: ls)) := by
  unfold Left
  cases ls with
  | nil => simp [limbsValue]
  | cons l' ls =>
    exact ⟨by decide, h.1, rfl, h.2⟩

theorem left_limbs (d : DecimalParts) : Left d.limbs.1 0 d.limbs.2 d.magnitude.toNat := by
  have hlt := d.magnitude.isLt
  have hofNat {n : ℕ} (h : n < 2 ^ 64) : (UInt64.ofNat n).toNat = n := by
    rw [UInt64.toNat_ofNat', Nat.mod_eq_of_lt h]
  have hmod (n : ℕ) : (UInt64.ofNat (n % limb)).toNat = n % limb :=
    hofNat (lt_trans (Nat.mod_lt n (by decide)) (by decide))
  have hdiv (n : ℕ) : n % limb + limb * (n / limb) = n := Nat.mod_add_div n limb
  unfold limbs
  dsimp only
  generalize d.magnitude.toNat = m at hlt
  split_ifs with h₁ h₂
  · rw [Left, if_pos rfl, hofNat (by omega)]
  · have hrest : (UInt64.ofNat (m / limb)).toNat = m / limb := hofNat (by omega)
    have hok : LimbsOk [UInt64.ofNat (m % limb), UInt64.ofNat (m / limb)] := by
      refine ⟨by rw [hmod]; exact Nat.mod_lt m (by decide), ?_⟩
      rw [LimbsOk, hrest]
      simp only [limb]
      omega
    have hleft := left_limb hok
    rwa [limbsValue, limbsValue, limbsValue, hmod, hrest, Nat.mul_zero, Nat.add_zero, hdiv] at hleft
  · have htop : (UInt64.ofNat (m / limb / limb)).toNat = m / limb / limb := by
      refine hofNat ?_
      simp only [limb]
      omega
    have hok : LimbsOk [UInt64.ofNat (m % limb), UInt64.ofNat (m / limb % limb),
        UInt64.ofNat (m / limb / limb)] := by
      refine ⟨by rw [hmod]; exact Nat.mod_lt m (by decide),
        by rw [hmod]; exact Nat.mod_lt _ (by decide), ?_⟩
      rw [LimbsOk, htop]
      simp only [limb] at h₂ ⊢
      omega
    have hleft := left_limb hok
    rwa [limbsValue, limbsValue, limbsValue, limbsValue, hmod, hmod, htop, Nat.mul_zero,
      Nat.add_zero, hdiv, hdiv] at hleft

/-! ### The loop -/

/-- **One digit of the current limb is one digit of what is left**, and the next limb is taken up
when this one is used up. -/
theorem Left.step {current : UInt64} {taken : ℕ} {higher : List UInt64} {r : ℕ}
    (h : Left current taken higher r) :
    current.toNat % 10 = r % 10 ∧
      ∃ current' taken' higher', nextLimb (current / 10) (taken + 1) higher =
        (current', taken', higher') ∧ Left current' taken' higher' (r / 10) ∧
          (higher' = [] ∧ current' = 0 ↔ r / 10 = 0) := by
  have hdiv : (current / 10).toNat = current.toNat / 10 := UInt64.toNat_div current 10
  cases higher with
  | nil =>
    subst h
    refine ⟨rfl, _, _, _, rfl, ?_, ?_⟩
    · rw [Left, if_pos rfl, hdiv]
    · rw [and_iff_right rfl, ← hdiv, ← UInt64.toNat_inj]
      rfl
  | cons next higher =>
    obtain ⟨htaken, hcurrent, rfl, hok⟩ := h
    obtain ⟨k, hk⟩ : ∃ k, limbDigits - taken = k + 1 := ⟨limbDigits - taken - 1, by omega⟩
    have hpos := limbsValue_pos hok
    rw [hk, pow_succ'] at hcurrent ⊢
    have hrest : (current.toNat + 10 * 10 ^ k * limbsValue (next :: higher)) / 10 =
        current.toNat / 10 + 10 ^ k * limbsValue (next :: higher) := by
      rw [Nat.mul_assoc, Nat.add_mul_div_left _ _ (by decide)]
    refine ⟨by rw [Nat.mul_assoc, Nat.add_mul_mod_self_left], ?_⟩
    rw [hrest]
    have hne : ¬ current.toNat / 10 + 10 ^ k * limbsValue (next :: higher) = 0 := by
      have := Nat.mul_pos (Nat.pow_pos (n := k) (show 0 < 10 by decide)) hpos
      omega
    by_cases hlast : taken + 1 = limbDigits
    · -- the limb is used up, and its rest is zero
      obtain rfl : k = 0 := by omega
      have hzero : current.toNat / 10 = 0 := by omega
      rw [hzero, Nat.zero_add, pow_zero, Nat.one_mul] at hne ⊢
      refine ⟨next, 0, higher, by rw [nextLimb, if_pos hlast], left_limb hok, ?_⟩
      refine iff_of_false (fun ⟨hnil, hnext⟩ => ?_) hne
      subst hnil hnext
      exact absurd (show 0 < (0 : UInt64).toNat from hok) (by decide)
    · refine ⟨_, _, _, by rw [nextLimb, if_neg hlast], ?_, iff_of_false (by simp) hne⟩
      rw [Left, if_neg (by simp), hdiv]
      refine ⟨by omega, ?_, ?_, hok⟩
      all_goals rw [show limbDigits - (taken + 1) = k by omega]
      omega

theorem utf8_digitChar {n : ℕ} (h : n < 10) :
    String.utf8EncodeChar n.digitChar = [0x30 + UInt8.ofNat n] := by
  have hall : ∀ k : Fin 10,
      String.utf8EncodeChar (Nat.digitChar k) = [0x30 + UInt8.ofNat k.val] := by decide
  exact hall ⟨n, h⟩

theorem putPoint_eq_ok {scale emitted : ℕ} {buf : DecimalBuffer}
    (hroom : (pointAt scale emitted).length ≤ buf.pos) :
    ∃ buf', putPoint scale emitted buf = .ok buf' ∧
      buf'.text = asBytes (pointAt scale emitted) ++ buf.text ∧
      buf'.pos + (pointAt scale emitted).length = buf.pos := by
  unfold putPoint pointAt at *
  by_cases h : scale > 0 ∧ emitted = scale
  · rw [if_pos h] at hroom ⊢
    rw [if_pos h]
    exact DecimalBuffer.put_eq_ok 0x2E hroom
  · rw [if_neg h, if_neg h]
    exact ⟨buf, rfl, rfl, rfl⟩

/-- **The loop writes the rest of the digits, and the point, in front of what is there**, as long as
there is room for them. -/
theorem formatLoop_renders {scale fuel : ℕ} {buf : DecimalBuffer} {current : UInt64}
    {taken emitted : ℕ} {higher : List UInt64} {r : ℕ} (hleft : Left current taken higher r)
    (hroom : (rendered scale emitted r).length ≤ buf.pos) (hfuel : buf.pos ≤ fuel) :
    ∃ buf', formatLoop scale fuel buf current taken emitted higher = .ok buf' ∧
      buf'.text = asBytes (rendered scale emitted r) ++ buf.text ∧
      buf'.pos + (rendered scale emitted r).length = buf.pos := by
  induction fuel generalizing buf current taken emitted higher r with
  | zero =>
    have := List.length_pos_iff.mpr (rendered_ne_nil scale emitted r)
    omega
  | succ fuel ih =>
    obtain ⟨hdigit, current', taken', higher', hnext, hleft', hend⟩ := hleft.step
    -- this round writes the last digit, and the point if it is due
    obtain ⟨front, hfront, hrest⟩ : ∃ front, rendered scale emitted r =
        front ++ (r % 10).digitChar :: pointAt scale emitted ∧
        ((r / 10 = 0 ∧ scale < emitted + 1) ∧ front = [] ∨
          ¬ (r / 10 = 0 ∧ scale < emitted + 1) ∧
            front = rendered scale (emitted + 1) (r / 10)) := by
      by_cases h : r / 10 = 0 ∧ scale < emitted + 1
      · exact ⟨[], rendered_last h.1 h.2, .inl ⟨h, rfl⟩⟩
      · exact ⟨_, rendered_step h, .inr ⟨h, rfl⟩⟩
    rw [hfront, List.length_append, List.length_cons] at hroom
    obtain ⟨buf₁, hpoint, htext₁, hpos₁⟩ := @putPoint_eq_ok scale emitted buf (by omega)
    obtain ⟨buf₂, hput, htext₂, hpos₂⟩ :=
      @DecimalBuffer.put_eq_ok buf₁ (0x30 + (current % 10).toUInt8) (by omega)
    have hbyte : asBytes [(r % 10).digitChar] = [0x30 + (current % 10).toUInt8] := by
      have hmod : (current % 10).toUInt8 = UInt8.ofNat (r % 10) := by
        rw [← hdigit]
        rfl
      rw [hmod, asBytes_cons, utf8_digitChar (Nat.mod_lt r (by decide))]
      rfl
    have htext : buf₂.text =
        asBytes ((r % 10).digitChar :: pointAt scale emitted) ++ buf.text := by
      have hcons : asBytes ((r % 10).digitChar :: pointAt scale emitted) =
          asBytes [(r % 10).digitChar] ++ asBytes (pointAt scale emitted) := by simp
      rw [htext₂, htext₁, hcons, hbyte]
      rfl
    have happend : asBytes (front ++ (r % 10).digitChar :: pointAt scale emitted) =
        asBytes front ++ asBytes ((r % 10).digitChar :: pointAt scale emitted) :=
      List.flatMap_append
    rw [formatLoop, hpoint, EState.result_ok_bind, hput, EState.result_ok_bind, hnext, hfront,
      happend, List.append_assoc, ← htext]
    dsimp only
    have hstop : (higher' = [] ∧ current' = 0 ∧ emitted + 1 > scale) ↔
        r / 10 = 0 ∧ scale < emitted + 1 := by
      rw [← and_assoc, hend]
    rcases hrest with ⟨hdone, rfl⟩ | ⟨hmore, rfl⟩
    · rw [if_pos (hstop.mpr hdone)]
      refine ⟨buf₂, rfl, rfl, ?_⟩
      rw [List.nil_append, List.length_cons]
      omega
    · rw [if_neg (mt hstop.mp hmore)]
      obtain ⟨buf', hrun, htext', hpos'⟩ :=
        @ih buf₂ _ _ (emitted + 1) _ _ hleft' (by omega) (by omega)
      refine ⟨buf', hrun, htext', ?_⟩
      rw [List.length_append, List.length_cons]
      omega

theorem length_rendered_le {scale m : ℕ} (hscale : scale ≤ 45) (hm : m < 2 ^ 128) :
    (rendered scale 0 m).length ≤ 47 := by
  rw [rendered, if_pos (Nat.zero_le scale), Nat.sub_zero, List.length_append]
  have hlast : (if scale = 0 then [] else '.' :: lastDigits scale m).length ≤ scale + 1 := by
    split <;> simp
  have hm39 : m < 10 ^ 39 := lt_trans hm (by decide)
  rcases Nat.lt_or_ge scale 39 with hlt | hge
  · have hint : (Nat.toDigits 10 (m / 10 ^ scale)).length ≤ 39 - scale := by
      apply Nat.toDigits_length 10 _ _ (by omega)
      rw [Nat.div_lt_iff_lt_mul (Nat.pow_pos (by decide)), ← pow_add,
        show 39 - scale + scale = 39 by omega]
      exact hm39
    omega
  · have hzero : m / 10 ^ scale = 0 :=
      Nat.div_eq_of_lt (lt_of_lt_of_le hm39 (Nat.pow_le_pow_right (by decide) hge))
    rw [hzero, Nat.toDigits_zero, List.length_singleton]
    omega

/-- Every value is rendered without an overflow of the buffer, with the clamped scale. -/
theorem formatInto_eq (d : DecimalParts) (bytes : Vector UInt8 decimalStrLen) :
    d.formatInto bytes = .ok (decimalText d.isPositive d.clampedScale d.magnitude.toNat) := by
  have hscale : d.clampedScale ≤ 45 := min_le_right _ _
  have hlength := length_rendered_le hscale d.magnitude.isLt
  have hrendered : rendered d.clampedScale 0 d.magnitude.toNat =
      Nat.toDigits 10 (d.magnitude.toNat / 10 ^ d.clampedScale) ++
        if d.clampedScale = 0 then [] else '.' :: lastDigits d.clampedScale d.magnitude.toNat := by
    rw [rendered, if_pos (Nat.zero_le _), Nat.sub_zero]
  obtain ⟨buf, hrun, htext, hpos⟩ := @formatLoop_renders d.clampedScale decimalStrLen
    (.untouched bytes) _ _ 0 _ _ (left_limbs d)
    (hlength.trans (show 47 ≤ decimalStrLen by decide)) (le_refl _)
  have hempty : (DecimalBuffer.untouched bytes).text = [] := by
    simp [DecimalBuffer.text, DecimalBuffer.untouched]
  rw [hempty, List.append_nil] at htext
  rw [formatInto]
  dsimp only
  rw [hrun, EState.result_ok_bind, decimalText, List.append_assoc, ← hrendered]
  cases d.isPositive with
  | true =>
    change Except.ok ((fromUtf8 buf.text).getD []) = _
    rw [htext, fromUtf8_asBytes]
    rfl
  | false =>
    have hroom : 0 < buf.pos := by
      rw [show (DecimalBuffer.untouched bytes).pos = 48 from rfl] at hpos
      omega
    obtain ⟨buf', hput, htext', -⟩ := DecimalBuffer.put_eq_ok 0x2D hroom
    rw [if_neg Bool.false_ne_true, hput, EState.result_ok_bind, htext', htext]
    change Except.ok ((fromUtf8 (asBytes ('-' :: _))).getD []) = _
    rw [fromUtf8_asBytes]
    rfl

end DecimalParts

/-! ### Parsing -/

/-- The arbitrary-precision decimal library. -/
structure BigDecimals where
  BigDecimal : Type
  /-- Parse a text, or say what is wrong with it. -/
  fromStr : List Char → Except String BigDecimal
  fractionalDigitCount : BigDecimal → ℤ
  isZero : BigDecimal → Bool
  /-- The sign is a minus. -/
  isMinus : BigDecimal → Bool
  abs : BigDecimal → BigDecimal
  ofU64 : UInt64 → BigDecimal
  powi : BigDecimal → ℤ → BigDecimal
  mul : BigDecimal → BigDecimal → BigDecimal
  round : BigDecimal → ℤ → BigDecimal
  intoBigintAndExponent : BigDecimal → ℤ × ℤ

/-- A decimal numeral: an optional minus, integer digits, and fractional digits behind a point. -/
def numeral (isPositive : Bool) (int frac : List Char) : List Char :=
  (if isPositive then [] else ['-']) ++ int ++ if frac = [] then [] else '.' :: frac

/-- The library computes exactly with the numbers `val` assigns to its values. -/
structure BigDecimals.Exact (lib : BigDecimals) (val : lib.BigDecimal → ℚ) : Prop where
  fromStr_numeral : ∀ isPositive int frac, int ≠ [] → (∀ c ∈ int ++ frac, c.isDigit = true) →
    ∃ d, lib.fromStr (numeral isPositive int frac) = .ok d ∧
      val d = (if isPositive then 1 else -1) *
        (Nat.ofDigitChars 10 (int ++ frac) 0 / 10 ^ frac.length) ∧
      lib.fractionalDigitCount d = frac.length
  isZero_iff : ∀ d, lib.isZero d = true ↔ val d = 0
  isMinus_iff : ∀ d, lib.isMinus d = true ↔ val d < 0
  val_abs : ∀ d, val (lib.abs d) = |val d|
  val_ten_powi : ∀ n : ℕ, val (lib.powi (lib.ofU64 10) n) = 10 ^ n
  val_mul : ∀ a b, val (lib.mul a b) = val a * val b
  /-- Rounding an integer to no digits leaves it with no exponent. -/
  round_integer : ∀ d (z : ℤ), val d = z → lib.intoBigintAndExponent (lib.round d 0) = (z, 0)

def decimalMagnitudeBytes : ℕ := 16

/-- The shortest little-endian two's complement form of an integer. -/
def toSignedBytesLe (n : ℤ) : List UInt8 :=
  let size := (if 0 ≤ n then n.toNat else (-n - 1).toNat).size / 8 + 1
  leBytes size (n % 256 ^ size).toNat

namespace DecimalParts

def invalidText (s : List Char) (e : String) : Error :=
  .typeConversionError s!"Invalid decimal string '{String.ofList s}': {e}"

def scaleExceeded (inputScale : ℤ) (scale : UInt8) : Error :=
  .typeConversionError s!"Input decimal scale {inputScale} exceeds target scale {scale}"

def precisionExceeded (digits : ℕ) (precision : UInt8) : Error :=
  .typeConversionError s!"Decimal value has {digits} digits, exceeds target precision {precision}"

def magnitudeExceeded (s : List Char) : Error :=
  .typeConversionError s!"Decimal value '{String.ofList s}' does not fit in a 128-bit magnitude"

/-- The integer of a value without fractional digits. -/
def finalBigint : ℤ × ℤ → ℤ
  | (bigint, exponent) =>
    if exponent > 0 then bigint * 10 ^ exponent.toNat
    else if exponent < 0 then bigint.tdiv (10 ^ (-exponent).toNat)
    else bigint

/-- The value of an integer that fits precision and magnitude. -/
def ofBigint (s : List Char) (isPositive : Bool) (precision scale : UInt8) (bigint : ℤ) :
    TdsResult DecimalParts :=
  if (toString bigint).length > precision.toNat then
    .error (precisionExceeded (toString bigint).length precision)
  else if (toSignedBytesLe bigint).length > decimalMagnitudeBytes then .error (magnitudeExceeded s)
  else .ok ⟨isPositive, scale, precision, BitVec.ofNat 128 (ofLe (toSignedBytesLe bigint))⟩

/-- Parse a text. -/
def fromString (lib : BigDecimals) (s : List Char) (precision scale : UInt8) :
    TdsResult DecimalParts :=
  let trimmed := Odbc.trim s
  match lib.fromStr trimmed with
  | .error e => .error (invalidText s e)
  | .ok decimal =>
    let inputScale := lib.fractionalDigitCount decimal
    if inputScale > scale.toNat then .error (scaleExceeded inputScale scale)
    -- the library knows no negative zero, the text does
    else if lib.isZero decimal then .ok ⟨trimmed.head? ≠ some '-', scale, precision, 0⟩
    else
      let scaled := lib.mul (lib.abs decimal) (lib.powi (lib.ofU64 10) scale.toNat)
      ofBigint s (!lib.isMinus decimal) precision scale
        (finalBigint (lib.intoBigintAndExponent (lib.round scaled 0)))

/-! ### Reading the text back -/

theorem not_whitespace_of_isDigit {c : Char} (h : c.isDigit = true) :
    Odbc.isWhitespace c = false := by
  have hrange : 48 ≤ c.toNat ∧ c.toNat ≤ 57 := by
    simp only [Char.isDigit, Bool.and_eq_true, decide_eq_true_eq, UInt32.le_iff_toNat_le] at h
    exact h
  simp only [Odbc.isWhitespace, List.mem_cons, List.not_mem_nil, or_false, decide_eq_false_iff_not]
  omega

theorem not_whitespace_of_mem {isPositive : Bool} {scale m : ℕ} {c : Char}
    (h : c ∈ decimalText isPositive scale m) : Odbc.isWhitespace c = false := by
  simp only [decimalText, List.mem_append] at h
  rcases h with (h | h) | h
  · split at h
    · cases h
    · rw [List.mem_singleton.mp h]
      decide
  · exact not_whitespace_of_isDigit (Nat.isDigit_of_mem_toDigits (by decide) (le_refl 10) h)
  · split at h
    · cases h
    · rcases List.mem_cons.mp h with rfl | h
      · decide
      · exact not_whitespace_of_isDigit (isDigit_of_mem_lastDigits h)

theorem trim_decimalText (isPositive : Bool) (scale m : ℕ) :
    Odbc.trim (decimalText isPositive scale m) = decimalText isPositive scale m := by
  have hstart : Odbc.trimStart (decimalText isPositive scale m) =
      decimalText isPositive scale m := by
    refine List.dropWhile_eq_self_iff.mpr fun h => ?_
    simp [not_whitespace_of_mem (List.getElem_mem h)]
  rw [Odbc.trim, hstart]
  refine List.rdropWhile_eq_self_iff.mpr fun h => ?_
  simp [not_whitespace_of_mem (List.getLast_mem h)]

theorem decimalText_eq_numeral (isPositive : Bool) (scale m : ℕ) :
    decimalText isPositive scale m =
      numeral isPositive (Nat.toDigits 10 (m / 10 ^ scale)) (lastDigits scale m) := by
  have hempty : lastDigits scale m = [] ↔ scale = 0 := by
    rw [← List.length_eq_zero_iff, length_lastDigits]
  simp only [decimalText, numeral, hempty]

/-- The canonical text denotes the value: an exact library reads it so. -/
theorem fromStr_decimalText {lib : BigDecimals} {val : lib.BigDecimal → ℚ} (hlib : lib.Exact val)
    (isPositive : Bool) (scale m : ℕ) :
    ∃ d, lib.fromStr (decimalText isPositive scale m) = .ok d ∧
      val d = (if isPositive then 1 else -1) * (m / 10 ^ scale) ∧
      lib.fractionalDigitCount d = scale := by
  have hdigits : ∀ c ∈ Nat.toDigits 10 (m / 10 ^ scale) ++ lastDigits scale m,
      c.isDigit = true := by
    intro c hc
    rcases List.mem_append.mp hc with hc | hc
    · exact Nat.isDigit_of_mem_toDigits (by decide) (le_refl 10) hc
    · exact isDigit_of_mem_lastDigits hc
  obtain ⟨d, hparse, hval, hcount⟩ :=
    hlib.fromStr_numeral isPositive _ _ Nat.toDigits_ne_nil hdigits
  rw [Nat.ofDigitChars_append, Nat.ofDigitChars_ten_toDigits, ofDigitChars_lastDigits,
    Nat.div_add_mod, length_lastDigits] at hval
  rw [length_lastDigits] at hcount
  rw [decimalText_eq_numeral]
  exact ⟨d, hparse, hval, hcount⟩

/-- The text shows its sign, also in front of a zero. -/
theorem head_decimalText (isPositive : Bool) (scale m : ℕ) :
    decide ((decimalText isPositive scale m).head? ≠ some '-') = isPositive := by
  cases isPositive with
  | false => rfl
  | true =>
    rw [decide_eq_true_eq, decimalText, if_pos rfl, List.nil_append,
      List.head?_append_of_ne_nil _ Nat.toDigits_ne_nil]
    intro h
    have hdigit := Nat.isDigit_of_mem_toDigits (by decide) (le_refl 10) (List.mem_of_mem_head? h)
    exact absurd hdigit (by decide)

theorem toSignedBytesLe_of_lt {m : ℕ} (h : m < 2 ^ 127) :
    (toSignedBytesLe m).length ≤ decimalMagnitudeBytes ∧ ofLe (toSignedBytesLe m) = m := by
  have hsize : m.size ≤ 127 := Nat.size_le.mpr h
  have hfits : m < 256 ^ (m.size / 8 + 1) := by
    have hlt : m < 2 ^ m.size := Nat.lt_size_self m
    refine lt_of_lt_of_le hlt ?_
    rw [show 256 = 2 ^ 8 by rfl, ← pow_mul]
    exact Nat.pow_le_pow_right (by decide) (by omega)
  have hbytes : toSignedBytesLe m = leBytes (m.size / 8 + 1) m := by
    simp only [toSignedBytesLe, Int.natCast_nonneg, if_true, Int.toNat_natCast]
    congr 1
    exact_mod_cast Nat.mod_eq_of_lt hfits
  rw [hbytes, length_leBytes, ofLe_leBytes, Nat.mod_eq_of_lt hfits, decimalMagnitudeBytes]
  exact ⟨by omega, rfl⟩

theorem ofBigint_eq_ok (s : List Char) (isPositive : Bool) {precision : UInt8} (scale : UInt8)
    {m : ℕ} (hprecision : (Nat.toDigits 10 m).length ≤ precision.toNat) (hm : m < 2 ^ 127) :
    ofBigint s isPositive precision scale m =
      .ok ⟨isPositive, scale, precision, BitVec.ofNat 128 m⟩ := by
  obtain ⟨hlength, hvalue⟩ := toSignedBytesLe_of_lt hm
  have hdigits : (toString (m : ℤ)).length = (Nat.toDigits 10 m).length := by
    change m.repr.length = _
    rw [← String.length_toList, Nat.toList_repr]
  rw [ofBigint, hdigits, if_neg (by omega), if_neg (by omega), hvalue]

/-- **The canonical text of a value is parsed to its sign and its magnitude.** -/
theorem fromString_decimalText {lib : BigDecimals} {val : lib.BigDecimal → ℚ} (hlib : lib.Exact val)
    (isPositive : Bool) {precision scale : UInt8} {m : ℕ}
    (hprecision : (Nat.toDigits 10 m).length ≤ precision.toNat) (hm : m < 2 ^ 127) :
    fromString lib (decimalText isPositive scale.toNat m) precision scale =
      .ok ⟨isPositive, scale, precision, BitVec.ofNat 128 m⟩ := by
  obtain ⟨decimal, hparse, hval, hcount⟩ := fromStr_decimalText hlib isPositive scale.toNat m
  have hpow : (0 : ℚ) < 10 ^ scale.toNat := by positivity
  rw [fromString, trim_decimalText, hparse]
  dsimp only
  rw [hcount, if_neg (lt_irrefl _), head_decimalText]
  by_cases hzero : m = 0
  · have hisZero : lib.isZero decimal = true := by
      rw [hlib.isZero_iff, hval, hzero]
      simp
    rw [if_pos hisZero, hzero]
    rfl
  · have hmpos : (0 : ℚ) < m := by exact_mod_cast Nat.pos_of_ne_zero hzero
    have hquot : (0 : ℚ) < m / 10 ^ scale.toNat := div_pos hmpos hpow
    have hisZero : ¬ lib.isZero decimal = true := by
      rw [hlib.isZero_iff, hval]
      cases isPositive <;> simp [hmpos.ne']
    have hisMinus : (!lib.isMinus decimal) = isPositive := by
      have hminus := hlib.isMinus_iff decimal
      cases isPositive with
      | true =>
        have hnot : ¬ val decimal < 0 := by
          rw [hval, if_pos rfl, one_mul]
          exact hquot.not_gt
        rw [← hminus, Bool.not_eq_true] at hnot
        rw [hnot]
        rfl
      | false =>
        have hneg : val decimal < 0 := by
          rw [hval, if_neg Bool.false_ne_true, neg_one_mul]
          exact neg_neg_of_pos hquot
        rw [hminus.mpr hneg]
        rfl
    have hscaled : val (lib.mul (lib.abs decimal) (lib.powi (lib.ofU64 10) scale.toNat)) =
        ((m : ℤ) : ℚ) := by
      have hsign : |(if isPositive then 1 else -1 : ℚ)| = 1 := by
        cases isPositive <;> simp
      rw [hlib.val_mul, hlib.val_abs, hlib.val_ten_powi, hval, abs_mul, hsign, one_mul,
        abs_of_pos hquot, div_mul_cancel₀ _ hpow.ne', Int.cast_natCast]
    rw [if_neg hisZero, hisMinus, hlib.round_integer _ m hscaled]
    exact ofBigint_eq_ok _ isPositive scale hprecision hm

/-- **Rendering fits the buffer and gives the canonical text, and parsing inverts it.** -/
theorem decimal_text (d : DecimalParts) (bytes : Vector UInt8 decimalStrLen) :
    (∃ text, d.formatInto bytes = .ok text) ∧
      (d.scale ≤ 45 →
        d.formatInto bytes = .ok (decimalText d.isPositive d.scale.toNat d.magnitude.toNat)) ∧
      (d.magnitude.toNat < 10 ^ 38 → d.scale ≤ 38 → ∃ text, d.formatInto bytes = .ok text ∧
        ∀ (lib : BigDecimals) (val : lib.BigDecimal → ℚ), lib.Exact val → ∀ precision : UInt8,
          (Nat.toDigits 10 d.magnitude.toNat).length ≤ precision.toNat →
            fromString lib text precision d.scale =
              .ok ⟨d.isPositive, d.scale, precision, d.magnitude⟩) := by
  have hformat := formatInto_eq d bytes
  have hcanonical : d.scale ≤ 45 →
      d.formatInto bytes = .ok (decimalText d.isPositive d.scale.toNat d.magnitude.toNat) := by
    intro hscale
    have hclamped : d.clampedScale = d.scale.toNat :=
      min_eq_left (UInt8.le_iff_toNat_le.mp hscale)
    rw [hformat, hclamped]
  refine ⟨⟨_, hformat⟩, hcanonical, fun hm hscale => ⟨_, hcanonical ?_, ?_⟩⟩
  · exact UInt8.le_trans hscale (by decide)
  · intro lib val hlib precision hprecision
    have hmagnitude : BitVec.ofNat 128 d.magnitude.toNat = d.magnitude := by simp
    rw [fromString_decimalText hlib d.isPositive hprecision (lt_trans hm (by decide)), hmagnitude]

end DecimalParts

/-! ### A library of exact decimals -/

/-- Digits and the number of them behind the point. -/
def exactDecimals : BigDecimals where
  BigDecimal := ℤ × ℕ
  fromStr s :=
    let unsigned := if s.head? = some '-' then s.tail else s
    let int := unsigned.takeWhile (· ≠ '.')
    let frac := (unsigned.dropWhile (· ≠ '.')).tail
    let digits : ℤ := Nat.ofDigitChars 10 (int ++ frac) 0
    .ok (if s.head? = some '-' then -digits else digits, frac.length)
  fractionalDigitCount d := d.2
  isZero d := d.1 = 0
  isMinus d := d.1 < 0
  abs d := (|d.1|, d.2)
  ofU64 n := (n.toNat, 0)
  powi d n := (d.1 ^ n.toNat, d.2 * n.toNat)
  mul a b := (a.1 * b.1, a.2 + b.2)
  round d _ := (d.1.tdiv (10 ^ d.2), 0)
  intoBigintAndExponent d := (d.1, d.2)

/-- The number of an exact decimal. -/
def exactVal (d : ℤ × ℕ) : ℚ := d.1 / 10 ^ d.2

/-- The point splits a numeral into its integer and its fractional digits. -/
theorem numeral_split {int : List Char} (frac : List Char) (h : ∀ c ∈ int, c.isDigit = true) :
    (int ++ if frac = [] then [] else '.' :: frac).takeWhile (· ≠ '.') = int ∧
      ((int ++ if frac = [] then [] else '.' :: frac).dropWhile (· ≠ '.')).tail = frac := by
  have hint : ∀ c ∈ int, decide (c ≠ '.') = true := by
    intro c hc
    refine decide_eq_true fun hpoint => ?_
    have hdigit := h c hc
    rw [hpoint] at hdigit
    exact absurd hdigit (by decide)
  rw [List.takeWhile_append_of_pos hint, List.dropWhile_append_of_pos hint]
  cases frac with
  | nil => simp
  | cons c frac => simp

theorem fromStr_exactDecimals (isPositive : Bool) {int : List Char} (frac : List Char)
    (hne : int ≠ []) (h : ∀ c ∈ int, c.isDigit = true) :
    exactDecimals.fromStr (numeral isPositive int frac) =
      .ok ((if isPositive then 1 else -1) * (Nat.ofDigitChars 10 (int ++ frac) 0 : ℤ),
        frac.length) := by
  obtain ⟨hint, hfrac⟩ := numeral_split frac h
  cases isPositive with
  | false =>
    simp only [exactDecimals, numeral, Bool.false_eq_true, if_false, List.cons_append,
      List.nil_append, List.head?_cons, if_true, List.tail_cons, hint, hfrac, neg_one_mul]
  | true =>
    have hhead : ¬ (numeral true int frac).head? = some '-' := by
      rw [numeral, if_pos rfl, List.nil_append, List.head?_append_of_ne_nil _ hne]
      intro hminus
      exact absurd (h _ (List.mem_of_mem_head? hminus)) (by decide)
    rw [numeral, if_pos rfl, List.nil_append] at hhead ⊢
    simp only [exactDecimals, if_neg hhead, hint, hfrac, if_true, one_mul]

theorem exactDecimals_exact : exactDecimals.Exact exactVal where
  fromStr_numeral isPositive int frac hint hdigits := by
    refine ⟨_, fromStr_exactDecimals isPositive frac hint
      fun c hc => hdigits c (List.mem_append_left _ hc), ?_, rfl⟩
    cases isPositive <;> simp [exactVal, neg_div]
  isZero_iff d := by
    simp [exactDecimals, exactVal]
  isMinus_iff d := by
    have hpow : (0 : ℚ) < 10 ^ d.2 := by positivity
    simp [exactDecimals, exactVal, div_neg_iff, hpow, hpow.not_gt]
  val_abs d := by
    simp [exactDecimals, exactVal, abs_div]
  val_ten_powi n := by
    simp [exactDecimals, exactVal]
  val_mul a b := by
    simp [exactDecimals, exactVal, pow_add, div_mul_div_comm]
  round_integer d z hval := by
    have hpow : (0 : ℚ) < 10 ^ d.2 := by positivity
    have hdigits : d.1 = z * 10 ^ d.2 := by
      have hquot : (d.1 : ℚ) / 10 ^ d.2 = z := hval
      rw [div_eq_iff hpow.ne'] at hquot
      exact_mod_cast hquot
    simp [exactDecimals, hdigits, Int.mul_tdiv_cancel]

namespace DecimalParts

/-- Digits on both sides of the point, and a negative zero, which keeps its sign. -/
theorem decimal_text_negative :
    fromString exactDecimals "-98765432109876543210.12".toList 38 2 =
        .ok ⟨false, 2, 38, 9876543210987654321012⟩ ∧
      fromString exactDecimals "-0.00".toList 38 2 = .ok ⟨false, 2, 38, 0⟩ := by
  have hread (m : BitVec 128) (hm : m.toNat < 10 ^ 38)
      (hlength : (Nat.toDigits 10 m.toNat).length ≤ 38) :
      fromString exactDecimals (decimalText false 2 m.toNat) 38 2 = .ok ⟨false, 2, 38, m⟩ := by
    obtain ⟨-, hcanonical, hparse⟩ := decimal_text ⟨false, 2, 38, m⟩ (Vector.replicate _ 0)
    obtain ⟨text, hformat, hparse⟩ := hparse hm (show (2 : UInt8) ≤ 38 by decide)
    have htext : decimalText false 2 m.toNat = text :=
      Except.ok.inj ((hcanonical (show (2 : UInt8) ≤ 45 by decide)).symm.trans hformat)
    rw [htext]
    exact hparse exactDecimals exactVal exactDecimals_exact 38 hlength
  exact ⟨hread 9876543210987654321012 (by decide) (by decide), hread 0 (by decide) (by decide)⟩

end DecimalParts

end MssqlTds
