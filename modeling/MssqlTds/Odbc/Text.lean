import Mathlib.Algebra.Group.Nat.Defs
import Mathlib.Data.List.DropRight

/-!
# Operations on text

The string functions of the standard library that the escape translator is written with, on lists
of characters.  What a character's Unicode properties are is a parameter, `CharTables`; only their
restriction to ASCII is fixed.
-/

namespace MssqlTds.Odbc

/-- The Unicode properties `Alphabetic` and `Numeric`. -/
structure CharTables where
  isAlphabetic : Char → Bool
  isNumeric : Char → Bool
  isAlphabetic_ascii : ∀ c : Char, c.toNat < 128 → isAlphabetic c = c.isAlpha
  isNumeric_ascii : ∀ c : Char, c.toNat < 128 → isNumeric c = c.isDigit

def CharTables.isAlphanumeric (u : CharTables) (c : Char) : Bool :=
  u.isAlphabetic c || u.isNumeric c

/-- Tables that know ASCII only. -/
def CharTables.ascii : CharTables where
  isAlphabetic c := c.isAlpha
  isNumeric c := c.isDigit
  isAlphabetic_ascii _ _ := rfl
  isNumeric_ascii _ _ := rfl

/-- The Unicode property `White_Space`. -/
def isWhitespace (c : Char) : Bool :=
  (0x09 ≤ c.toNat ∧ c.toNat ≤ 0x0D) ∨ (0x2000 ≤ c.toNat ∧ c.toNat ≤ 0x200A) ∨
    c.toNat ∈ [0x20, 0x85, 0xA0, 0x1680, 0x2028, 0x2029, 0x202F, 0x205F, 0x3000]

def trimStart (t : List Char) : List Char := t.dropWhile isWhitespace

def trimEnd (t : List Char) : List Char := t.rdropWhile isWhitespace

def trim (t : List Char) : List Char := trimEnd (trimStart t)

def eqIgnoreAsciiCase (s t : List Char) : Bool := s.map Char.toLower = t.map Char.toLower

/-- The text behind the character, if it comes first. -/
def stripPrefixChar (c : Char) : List Char → Option (List Char)
  | d :: t => if d = c then some t else none
  | [] => none

/-- The text in front of the character, if it comes last. -/
def stripSuffixChar (c : Char) (t : List Char) : Option (List Char) :=
  if t.getLast? = some c then some t.dropLast else none

/-- The text before and behind the first `d`. -/
def splitOnce (d : Char) (t : List Char) : Option (List Char × List Char) :=
  match t.dropWhile (· ≠ d) with
  | _ :: b => some (t.takeWhile (· ≠ d), b)
  | [] => none

/-- An unsigned number of the given width in decimal, with an optional `+`. -/
def parseUnsigned (bits : ℕ) (t : List Char) : Option ℕ :=
  let digits := (stripPrefixChar '+' t).getD t
  let value := digits.foldl (fun n c => 10 * n + (c.toNat - '0'.toNat)) 0
  if digits = [] ∨ digits.any (!·.isDigit) ∨ 2 ^ bits ≤ value then none else some value

/-- A number in decimal, padded with zeros. -/
def padded (width n : ℕ) : List Char := (toString n).toList.leftpad width '0'

/-! ### Cutting where a property stops -/

section

variable {p : Char → Bool} {w rest t : List Char}

theorem head_dropWhile {c : Char} (h : c ∈ (t.dropWhile p).head?) : p c = false := by
  have hnot := List.head?_dropWhile_not p t
  rw [Option.mem_def.mp h] at hnot
  exact hnot

theorem takeWhile_append_stop (hall : ∀ c ∈ w, p c = true)
    (hstop : ∀ c ∈ rest.head?, p c = false) :
    (w ++ rest).takeWhile p = w ∧ (w ++ rest).dropWhile p = rest := by
  rw [List.takeWhile_append_of_pos hall, List.dropWhile_append_of_pos hall]
  cases rest with
  | nil => simp
  | cons d rest => simp [hstop d rfl]

end

/-! ### What is trimmed off -/

theorem trimStart_append (a : List Char) :
    ∃ w, a = w ++ trimStart a ∧ ∀ c ∈ w, isWhitespace c = true :=
  ⟨a.takeWhile isWhitespace, (List.takeWhile_append_dropWhile).symm,
    fun _ h => List.mem_takeWhile_imp h⟩

theorem trimEnd_append (a : List Char) :
    ∃ w, a = trimEnd a ++ w ∧ ∀ c ∈ w, isWhitespace c = true :=
  ⟨a.rtakeWhile isWhitespace, (List.rdropWhile_append_rtakeWhile ..).symm,
    fun _ h => List.mem_rtakeWhile_imp h⟩

/-- `decide` on the list, not on every character there is. -/
theorem forall_mem_of_all {p : Char → Prop} [DecidablePred p] {l : List Char}
    (h : (l.all fun c => p c) = true) : ∀ c ∈ l, p c := by simpa using h

theorem mem_trim {c : Char} {a : List Char} (h : c ∈ a) : isWhitespace c = true ∨ c ∈ trim a := by
  obtain ⟨w, ha, hw⟩ := trimStart_append a
  obtain ⟨w', htrim, hw'⟩ := trimEnd_append (trimStart a)
  rw [ha, htrim, List.mem_append, List.mem_append] at h
  rcases h with h | h | h
  · exact .inl (hw c h)
  · exact .inr h
  · exact .inl (hw' c h)

end MssqlTds.Odbc
