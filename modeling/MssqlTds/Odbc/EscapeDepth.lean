import MssqlTds.Odbc.EscapeParts

/-!
# How deep the translation of escapes nests

The braces of a statement are counted along one scan of it, and then every escape is translated by
a call that scans its body, or what is left of it behind `call`, from scratch.  The scans agree
(`findEscape_scan`, `classify_scan`): an escape starts and ends at braces that are code, and the
scanner cannot look back across a brace.  So every call sees a level less, and a statement that
passes `validate_nesting` is translated with 65 calls on the stack (`escape_recursion_bounded`).
-/

namespace MssqlTds.Odbc

open CodeScan

/-! ### Levels of braces -/

/-- The levels of braces that are code. -/
def nesting (sql : List Char) : ℕ := deepest (scan sql) 0

section

variable {sts l₁ l₂ : List Step} {d e : ℕ}

theorem le_deepest : d ≤ deepest sts d := by
  induction sts generalizing d with
  | nil => exact Nat.le_refl d
  | cons step sts ih =>
    rw [deepest]
    split_ifs
    · exact Nat.le_of_succ_le ih
    · exact Nat.le_max_left ..
    · exact ih

theorem deepest_mono (h : d ≤ e) : deepest sts d ≤ deepest sts e := by
  induction sts generalizing d e with
  | nil => exact h
  | cons step sts ih =>
    rw [deepest, deepest]
    split_ifs
    · exact ih (Nat.succ_le_succ h)
    · exact max_le_max h (ih (Nat.sub_le_sub_right h 1))
    · exact ih h

/-- Steps in front of others only raise the level those start at. -/
theorem exists_deepest_append : ∃ e, deepest (l₁ ++ l₂) d = max (deepest l₁ d) (deepest l₂ e) := by
  induction l₁ generalizing d with
  | nil => exact ⟨d, (max_eq_right le_deepest).symm⟩
  | cons step l₁ ih =>
    rw [List.cons_append, deepest, deepest]
    split_ifs
    · exact ih
    · obtain ⟨e, he⟩ := @ih (d - 1)
      exact ⟨e, by rw [he, max_assoc]⟩
    · exact ih

theorem deepest_left_le : deepest l₁ d ≤ deepest (l₁ ++ l₂) d := by
  obtain ⟨e, he⟩ := @exists_deepest_append l₁ l₂ d
  exact he ▸ Nat.le_max_left ..

theorem deepest_right_le : deepest l₂ 0 ≤ deepest (l₁ ++ l₂) d := by
  obtain ⟨e, he⟩ := @exists_deepest_append l₁ l₂ d
  exact (deepest_mono (Nat.zero_le e)).trans (he ▸ Nat.le_max_right ..)

theorem deepest_le_of_nestingDepth (h : nestingDepth sts d ≠ none) (hd : d ≤ maxEscapeDepth) :
    deepest sts d ≤ maxEscapeDepth := by
  induction sts generalizing d with
  | nil => exact hd
  | cons step sts ih =>
    rw [nestingDepth] at h
    rw [deepest]
    split_ifs at h ⊢ with hopen hdepth
    · exact absurd rfl h
    · exact ih h (Nat.le_of_not_gt hdepth)
    · exact Nat.max_le.mpr ⟨hd, ih h ((Nat.sub_le d 1).trans hd)⟩
    · exact ih h hd

end

theorem nesting_le_of_validateNesting {sql : List Char} (h : validateNesting sql = .ok ()) :
    nesting sql ≤ maxEscapeDepth := by
  refine deepest_le_of_nestingDepth (fun hnone => ?_) (Nat.zero_le _)
  rw [validateNesting, if_pos hnone] at h
  cases h

/-! ### The parts of an escape -/

/-- **The body of an escape is a level less deep than its text.** -/
theorem nesting_of_findEscape {sql before body after : List Char}
    (h : findEscape sql = some (before, body, after)) :
    nesting body < nesting sql ∧ nesting after ≤ nesting sql := by
  obtain ⟨-, -, -, hscan, hlevel⟩ := findEscape_scan h
  rw [nesting, nesting, nesting, hscan]
  constructor
  · calc deepest (scan body) 0
        < deepest (scan body) (0 + 1) := by rw [hlevel (0 + 1)]; exact Nat.lt_succ_self _
      _ ≤ deepest (codeStep '\x7b' :: (scan body ++ codeStep '\x7d' :: scan after)) 0 :=
        deepest_left_le
      _ ≤ _ := deepest_right_le
  · calc deepest (scan after) 0
        ≤ deepest ((scan before ++ codeStep '\x7b' :: (scan body ++ [codeStep '\x7d'])) ++
            scan after) 0 := deepest_right_le
      _ = _ := by simp

variable {body remainder : List Char}

/-- What is left of an escape behind its tag is scanned as it is in the body. -/
theorem classify_scan {kind : EscapeKind}
    (h : classify body = .ok (kind, remainder)) :
    ∃ w, body = w ++ remainder ∧ scan body = w.map codeStep ++ scan remainder := by
  obtain ⟨w, rfl, hw, -⟩ := classify_prefix h
  exact ⟨w, rfl, (@scan_inert_append remainder w hw).1⟩

theorem nesting_remainder_le {kind : EscapeKind}
    (h : classify body = .ok (kind, remainder)) : nesting remainder ≤ nesting body := by
  obtain ⟨w, -, hscan⟩ := classify_scan h
  rw [nesting, nesting, hscan]
  exact deepest_right_le

/-! ### The calls on the stack -/

/-- The translation with room for `frames` calls below this one; a call without room gives
`overflow`. -/
def translateFrames (u : CharTables) (outputs : List Bool)
    (overflow : EscapeResult (Translated × ℕ)) :
    ℕ → ℕ → Bool → List Char → TranslateLoop → EscapeResult (Translated × ℕ)
  | 0, _, _, _, _ => .error (.fault .outOfFuel)
  | fuel + 1, frames, insideCall, sql, l =>
    translateRound u outputs
      (fun insideCall sql marker =>
        match frames with
        | 0 => overflow
        | frames + 1 =>
          translateFrames u outputs overflow fuel frames insideCall sql ⟨[], none, 0, true, marker⟩)
      (translateFrames u outputs overflow fuel frames insideCall) insideCall sql l

/-- A text is translated with as many calls below the first as it has levels of braces.  The loop is
bounded by the length of the text; more fuel makes no difference. -/
theorem translateFrames_eq {u : CharTables} {outputs : List Bool}
    (overflow : EscapeResult (Translated × ℕ)) {fuel fuel' frames : ℕ} {insideCall : Bool}
    {sql : List Char} (hframes : nesting sql ≤ frames) (h : sql.length < fuel)
    (h' : sql.length < fuel') (l : TranslateLoop) :
    translateFrames u outputs overflow fuel frames insideCall sql l =
      translateInner u outputs fuel' insideCall sql l := by
  induction fuel generalizing fuel' frames insideCall sql l with
  | zero => omega
  | succ fuel ih =>
    obtain ⟨fuel', rfl⟩ := Nat.exists_eq_succ_of_ne_zero (show fuel' ≠ 0 by omega)
    rw [translateFrames, translateInner, translateRound, translateRound]
    cases hfind : findEscape sql with
    | none => rfl
    | some found =>
      obtain ⟨before, body, after⟩ := found
      obtain ⟨hbody, hafter⟩ := length_lt_of_findEscape hfind
      obtain ⟨hnested, hlevel⟩ := nesting_of_findEscape hfind
      -- the escape has a level of its own, so there is room for a call on its body
      obtain ⟨frames, rfl⟩ := Nat.exists_eq_succ_of_ne_zero (show frames ≠ 0 by omega)
      dsimp only
      cases hclassify : classify body with
      | error e => rfl
      | ok found =>
        obtain ⟨kind, remainder⟩ := found
        have hremainder := length_remainder_le hclassify
        have hless := nesting_remainder_le hclassify
        have ihBody (insideCall : Bool) (l : TranslateLoop) :=
          @ih fuel' frames insideCall body (by omega) (by omega) (by omega) l
        have ihRemainder (insideCall : Bool) (l : TranslateLoop) :=
          @ih fuel' frames insideCall remainder (by omega) (by omega) (by omega) l
        have ihAfter (l : TranslateLoop) :=
          @ih fuel' (frames + 1) insideCall after (by omega) (by omega) (by omega) l
        cases kind <;> simp only [translateEscape, bind, Except.bind, ihBody, ihRemainder, ihAfter]

/-- More fuel makes no difference to the translation. -/
theorem translateInner_fuel {u : CharTables} {outputs : List Bool} {fuel fuel' : ℕ}
    {insideCall : Bool} {sql : List Char} (h : sql.length < fuel) (h' : sql.length < fuel')
    (l : TranslateLoop) :
    translateInner u outputs fuel insideCall sql l =
      translateInner u outputs fuel' insideCall sql l :=
  (translateFrames_eq (.error (.fault .outOfFuel)) le_rfl h h l).symm.trans
    (translateFrames_eq _ le_rfl h h' l)

/-- **The translation of a statement that passes `validate_nesting` never has more than 65 calls on
the stack**: with room for 64 below the first it gives what it gives without a limit, whatever a
call without room would give.  Every scan of a part agrees with the scan of the text around it, and
every call is on a text with at least a level less. -/
theorem escape_recursion_bounded (u : CharTables) (sql : List Char)
    (h : validateNesting sql = .ok ()) :
    (∀ outputs insideCall marker overflow fuel, sql.length < fuel →
      translateFrames u outputs overflow fuel maxEscapeDepth insideCall sql
          ⟨[], none, 0, true, marker⟩ =
        translateEscapesInner u sql insideCall outputs marker) ∧
    ∀ text before body after, findEscape text = some (before, body, after) →
      text = before ++ '\x7b' :: (body ++ '\x7d' :: after) ∧
      scan text = scan before ++ codeStep '\x7b' :: (scan body ++ codeStep '\x7d' :: scan after) ∧
      nesting body < nesting text ∧
      ∀ kind remainder, classify body = .ok (kind, remainder) →
        (∃ w, body = w ++ remainder ∧ scan body = w.map codeStep ++ scan remainder) ∧
        nesting remainder < nesting text := by
  constructor
  · intro outputs insideCall marker overflow fuel hfuel
    exact translateFrames_eq overflow (nesting_le_of_validateNesting h) hfuel (Nat.lt_succ_self _) _
  · intro text before body after hfind
    obtain ⟨htext, -, -, hscan, -⟩ := findEscape_scan hfind
    have hbody := (nesting_of_findEscape hfind).1
    refine ⟨htext, hscan, hbody, fun kind remainder hclassify => ⟨classify_scan hclassify, ?_⟩⟩
    exact (nesting_remainder_le hclassify).trans_lt hbody

/-- A date inside a call: two of the 64 levels are used, the quoted brace is none. -/
theorem escape_recursion_bounded_call :
    validateNesting "\x7bcall p(\x7bd '2020-01-01'\x7d, '\x7b')\x7d".toList = .ok () ∧
    translateFrames .ascii [] (.error (.fault .outOfFuel)) 40 maxEscapeDepth false
        "\x7bcall p(\x7bd '2020-01-01'\x7d, '\x7b')\x7d".toList ⟨[], none, 0, true, 0⟩ =
      translateEscapesInner .ascii "\x7bcall p(\x7bd '2020-01-01'\x7d, '\x7b')\x7d".toList false
        [] 0 :=
  have h : validateNesting "\x7bcall p(\x7bd '2020-01-01'\x7d, '\x7b')\x7d".toList = .ok () := by
    decide +kernel
  ⟨h, (escape_recursion_bounded .ascii _ h).1 [] false 0 _ 40 (by decide)⟩

end MssqlTds.Odbc
