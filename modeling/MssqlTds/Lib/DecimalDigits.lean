import Mathlib.Data.Nat.Digits.Defs

/-!
# Decimal digits of a natural number

`Nat.toDigits 10 n` is the text of a number without superfluous zeros.  `lastDigits k n` is its last
`k` digits, which may begin with zeros.  Both are built digit by digit from the right, and
`Nat.ofDigitChars` reads them back.
-/

namespace DecimalDigits

/-- The last `k` decimal digits of `n`, leading zeros included. -/
def lastDigits : ℕ → ℕ → List Char
  | 0, _ => []
  | k + 1, n => lastDigits k (n / 10) ++ [(n % 10).digitChar]

@[simp] theorem length_lastDigits (k n : ℕ) : (lastDigits k n).length = k := by
  induction k generalizing n with
  | zero => rfl
  | succ k ih => rw [lastDigits, List.length_append, ih, List.length_singleton]

/-- The last digit of a number of several digits. -/
theorem toDigits_of_ge {n : ℕ} (h : 10 ≤ n) :
    Nat.toDigits 10 n = Nat.toDigits 10 (n / 10) ++ [(n % 10).digitChar] := by
  have hmod : n % 10 < 10 := Nat.mod_lt n (by decide)
  have happend := @Nat.toDigits_append_toDigits 10 (n / 10) (n % 10) (by decide) (by omega) hmod
  rw [Nat.toDigits_of_lt_base hmod, Nat.div_add_mod] at happend
  exact happend.symm

theorem ofDigitChars_lastDigits (k n init : ℕ) :
    Nat.ofDigitChars 10 (lastDigits k n) init = 10 ^ k * init + n % 10 ^ k := by
  induction k generalizing n with
  | zero => simp [lastDigits, Nat.mod_one]
  | succ k ih =>
    have hmod : n % 10 < 10 := Nat.mod_lt n (by decide)
    rw [lastDigits, Nat.ofDigitChars_append, ih,
      Nat.ofDigitChars_cons_digitChar_of_lt_ten hmod, Nat.ofDigitChars_nil, pow_succ',
      Nat.mod_mul]
    ring

/-- Every character of the digits is one. -/
theorem isDigit_of_mem_lastDigits {k n : ℕ} {c : Char} (h : c ∈ lastDigits k n) :
    c.isDigit = true := by
  induction k generalizing n with
  | zero => cases h
  | succ k ih =>
    rcases List.mem_append.mp h with h | h
    · exact ih h
    · have hmod : n % 10 < 10 := Nat.mod_lt n (by decide)
      rw [List.mem_singleton.mp h]
      exact Nat.isDigit_of_mem_toDigits (by decide) (le_refl 10)
        (by rw [Nat.toDigits_of_lt_base hmod]; exact List.mem_singleton_self _)

end DecimalDigits
