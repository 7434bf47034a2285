import Mathlib.Tactic.Common
import Mathlib.Data.String.Basic
import Mathlib.Data.Char

/-!
# The case of ASCII letters

Two strings are compared up to the case of their ASCII letters by lowering both; a map keyed by
such names raises them.  `eqIgnoreAsciiCase_iff` : the two agree.
-/

namespace MssqlTds.Lib

/-- Equality of two strings up to the case of ASCII letters. -/
def eqIgnoreAsciiCase (s t : String) : Bool := s.toLower == t.toLower

theorem toNat_toUpper (c : Char) : c.toUpper.toNat =
    if 97 ≤ c.toNat ∧ c.toNat ≤ 122 then c.toNat - 32 else c.toNat := by
  change Char.toNat (if h : 97 ≤ c.toNat ∧ c.toNat ≤ 122 then _ else c) = _
  split_ifs with h
  · rw [← Char.toNat_val, UInt32.toNat_add, Char.toNat_val]
    simp
    omega
  · rfl

theorem toNat_toLower (c : Char) : c.toLower.toNat =
    if 65 ≤ c.toNat ∧ c.toNat ≤ 90 then c.toNat + 32 else c.toNat := by
  change Char.toNat (if h : 65 ≤ c.toNat ∧ c.toNat ≤ 90 then _ else c) = _
  split_ifs with h
  · rw [← Char.toNat_val, UInt32.toNat_add, Char.toNat_val]
    simp
    omega
  · rfl

theorem toLower_of_not_upper {c : Char} (h : ¬ (65 ≤ c.toNat ∧ c.toNat ≤ 90)) : c.toLower = c :=
  Char.toNat_inj.mp (by rw [toNat_toLower, if_neg h])

/-- Raising two characters identifies the ones that lowering them does. -/
theorem toUpper_eq_iff (c d : Char) : c.toUpper = d.toUpper ↔ c.toLower = d.toLower := by
  simp only [← Char.toNat_inj, toNat_toUpper, toNat_toLower]
  split_ifs <;> omega

theorem map_toLower_eq_iff (s t : List Char) :
    s.map Char.toLower = t.map Char.toLower ↔ s.map Char.toUpper = t.map Char.toUpper := by
  induction s generalizing t with
  | nil => cases t <;> simp
  | cons c s ih =>
    cases t with
    | nil => simp
    | cons d t => simp [ih, toUpper_eq_iff]

theorem eqIgnoreAsciiCase_iff {s t : String} :
    eqIgnoreAsciiCase s t = true ↔ s.toUpper = t.toUpper := by
  rw [eqIgnoreAsciiCase, beq_iff_eq, ← String.toList_inj, ← @String.toList_inj s.toUpper]
  delta String.toLower String.toUpper
  simp only [String.toList_map]
  exact map_toLower_eq_iff _ _

end MssqlTds.Lib
