import Mathlib.Tactic.Common
import Mathlib.Algebra.Order.Ring.Nat
import Mathlib.Tactic.Linarith
import Mathlib.Tactic.Ring

/-!
# Fixed-width integers as byte strings

`leBytes k n` are the `k` low-order bytes of `n`, least significant first, and `ofLe` reads a
byte string back as a number.  `beBytes` and `ofBe` are the big-endian pair.

* `ofLe_leBytes`: writing then reading gives the number modulo `256 ^ k`;
* `leBytes_ofLe`: reading then writing gives the byte string back.
-/

namespace Bytes

/-- The `k` low-order bytes of `n`, least significant first. -/
def leBytes : ℕ → ℕ → List UInt8
  | 0, _ => []
  | k + 1, n => UInt8.ofNat n :: leBytes k (n / 256)

/-- The number a little-endian byte string spells. -/
def ofLe : List UInt8 → ℕ
  | [] => 0
  | b :: bs => b.toNat + 256 * ofLe bs

/-- The `k` low-order bytes of `n`, most significant first. -/
def beBytes (k n : ℕ) : List UInt8 := (leBytes k n).reverse

/-- The number a big-endian byte string spells. -/
def ofBe (bs : List UInt8) : ℕ := ofLe bs.reverse

@[simp] theorem leBytes_zero (n : ℕ) : leBytes 0 n = [] := rfl

@[simp] theorem ofLe_nil : ofLe [] = 0 := rfl

@[simp] theorem ofLe_cons (b : UInt8) (bs : List UInt8) :
    ofLe (b :: bs) = b.toNat + 256 * ofLe bs := rfl

@[simp] theorem length_leBytes (k n : ℕ) : (leBytes k n).length = k := by
  induction k generalizing n with
  | zero => rfl
  | succ k ih => simp [leBytes, ih]

@[simp] theorem length_beBytes (k n : ℕ) : (beBytes k n).length = k := by
  simp [beBytes]

theorem ofLe_leBytes (k n : ℕ) : ofLe (leBytes k n) = n % 256 ^ k := by
  induction k generalizing n with
  | zero => simp [Nat.mod_one]
  | succ k ih =>
    simp only [leBytes, ofLe_cons, ih, UInt8.toNat_ofNat', Nat.reducePow]
    rw [pow_succ, mul_comm (256 ^ k) 256, Nat.mod_mul]

theorem ofLe_leBytes_of_lt {k n : ℕ} (h : n < 256 ^ k) : ofLe (leBytes k n) = n := by
  rw [ofLe_leBytes, Nat.mod_eq_of_lt h]

theorem ofLe_lt (bs : List UInt8) : ofLe bs < 256 ^ bs.length := by
  induction bs with
  | nil => simp
  | cons b bs ih =>
    have hb := b.toNat_lt
    simp only [ofLe_cons, List.length_cons, pow_succ]
    omega

theorem leBytes_ofLe (bs : List UInt8) : leBytes bs.length (ofLe bs) = bs := by
  induction bs with
  | nil => rfl
  | cons b bs ih =>
    have hb := b.toNat_lt
    have hdiv : (b.toNat + 256 * ofLe bs) / 256 = ofLe bs := by omega
    have hlow : UInt8.ofNat (b.toNat + 256 * ofLe bs) = b := by
      apply UInt8.toNat_inj.mp
      simp only [UInt8.toNat_ofNat', Nat.reducePow]
      omega
    simp [leBytes, hdiv, ih, hlow]

theorem leBytes_mod (k n : ℕ) : leBytes k (n % 256 ^ k) = leBytes k n := by
  rw [← ofLe_leBytes]
  simpa using leBytes_ofLe (leBytes k n)

theorem leBytes_add (j k n : ℕ) : leBytes (j + k) n = leBytes j n ++ leBytes k (n / 256 ^ j) := by
  induction j generalizing n with
  | zero => simp
  | succ j ih =>
    rw [Nat.succ_add]
    simp only [leBytes, ih, List.cons_append, Nat.div_div_eq_div_mul, pow_succ]
    rw [mul_comm 256 (256 ^ j)]

theorem ofBe_beBytes (k n : ℕ) : ofBe (beBytes k n) = n % 256 ^ k := by
  simp [ofBe, beBytes, ofLe_leBytes]

end Bytes
