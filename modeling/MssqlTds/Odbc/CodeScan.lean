import Mathlib.Tactic.Common

/-!
# The lexer of SQL text

`CodeScan` walks SQL text and tells which characters are code, that is, outside string literals,
quoted and bracketed identifiers and comments.  A step takes one character or two.  Two quirks are
deliberate: block comments do not nest, and the `--` of `--(*` and of `*)--` stays code.  For the
second one the lexer looks behind at the first characters of its last two steps.

* `steps` : all steps of a text; `steps_eq` unfolds one.
* `Scans` : some steps with the scanners before and behind them, so that steps compose.
-/

namespace MssqlTds.Odbc

open List

/-- What surrounds the next character. -/
inductive CodeScan.State where
  | normal
  | singleQuote
  | doubleQuote
  | bracket
  | lineComment
  | blockComment
  deriving DecidableEq, Repr

/-- A scanner in front of the text `rest`. -/
structure CodeScan where
  rest : List Char
  state : CodeScan.State
  /-- The first character of the last step. -/
  prev1 : Option Char
  /-- The first character of the step before it. -/
  prev2 : Option Char

/-- One step: the characters it consumed, the first of them, and whether that was code. -/
structure Step where
  text : List Char
  ch : Char
  code : Bool
  deriving DecidableEq, Repr

def Step.isMarker (step : Step) : Bool := step.code && step.ch = '?'

namespace CodeScan

def new (src : List Char) : CodeScan := ⟨src, .normal, none, none⟩

/-- The character that closes a quoted region. -/
def State.closer : State → Char
  | singleQuote => '\''
  | doubleQuote => '"'
  | _ => ']'

/-- Whether the `--` in front of the scanner is code, as part of `--(*` or of `*)--`. -/
def canonicalExtension (s : CodeScan) (behind : List Char) : Bool :=
  behind.take 2 = ['(', '*'] ∨ (s.prev2 = some '*' ∧ s.prev1 = some ')')

/-- The state behind a step that starts with `c`, and whether it takes the next character too. -/
def react (s : CodeScan) (c : Char) (rest : List Char) : State × Bool :=
  match s.state with
  | .normal =>
    if c = '\'' then (.singleQuote, false)
    else if c = '"' then (.doubleQuote, false)
    else if c = '[' then (.bracket, false)
    else if c = '-' ∧ rest.head? = some '-' then
      if s.canonicalExtension rest.tail then (.normal, false) else (.lineComment, true)
    else if c = '/' ∧ rest.head? = some '*' then (.blockComment, true)
    else (.normal, false)
  | .lineComment => if c = '\n' ∨ c = '\r' then (.normal, false) else (.lineComment, false)
  | .blockComment =>
    if c = '*' ∧ rest.head? = some '/' then (.normal, true) else (.blockComment, false)
  | quoted =>
    if c = quoted.closer then
      -- a doubled delimiter is an escaped one, not the end
      if rest.head? = some quoted.closer then (quoted, true) else (.normal, false)
    else (quoted, false)

/-- Consume one lexical step. -/
def nextStep (s : CodeScan) : Option (Step × CodeScan) :=
  match s.rest with
  | [] => none
  | c :: rest =>
    let (state, double) := s.react c rest
    let extra := if double then 1 else 0
    some (⟨c :: rest.take extra, c, s.state = .normal⟩,
      ⟨rest.drop extra, state, some c, s.prev1⟩)

/-- The steps of at most `fuel` calls. -/
def stepsWithin : ℕ → CodeScan → List Step
  | 0, _ => []
  | fuel + 1, s =>
    match s.nextStep with
    | none => []
    | some (step, s) => step :: stepsWithin fuel s

/-- All steps of the text in front of the scanner; each consumes a character. -/
def steps (s : CodeScan) : List Step := stepsWithin s.rest.length s

/-- The steps of a text. -/
def scan (sql : List Char) : List Step := (new sql).steps

/-! ### Steps compose -/

variable {s s' s'' : CodeScan} {step : Step}

theorem nextStep_length (h : s.nextStep = some (step, s')) : s'.rest.length < s.rest.length := by
  unfold nextStep at h
  split at h
  · cases h
  · next c rest heq =>
    cases h
    rw [heq, length_cons, length_drop]
    omega

theorem stepsWithin_eq {fuel : ℕ} (hfuel : s.rest.length ≤ fuel) :
    stepsWithin fuel s = s.steps := by
  induction fuel using Nat.strongRecOn generalizing s with
  | ind fuel ih =>
    rw [steps]
    cases hnext : s.nextStep with
    | none =>
      cases fuel <;> cases hlen : s.rest.length <;> simp [stepsWithin, hnext]
    | some next =>
      obtain ⟨step, s'⟩ := next
      have hlt := nextStep_length hnext
      obtain ⟨fuel, rfl⟩ := Nat.exists_eq_succ_of_ne_zero (show fuel ≠ 0 by omega)
      obtain ⟨n, hn⟩ := Nat.exists_eq_succ_of_ne_zero (show s.rest.length ≠ 0 by omega)
      rw [hn, stepsWithin, stepsWithin, hnext]
      simp only
      rw [ih fuel (Nat.lt_succ_self _) (by omega), ih n (by omega) (by omega)]

theorem steps_of_none (h : s.nextStep = none) : s.steps = [] := by
  rw [← stepsWithin_eq (Nat.le_succ _), stepsWithin, h]

theorem steps_of_some (h : s.nextStep = some (step, s')) : s.steps = step :: s'.steps := by
  rw [← stepsWithin_eq (Nat.le_succ _), stepsWithin, h]
  simp only
  rw [stepsWithin_eq (Nat.le_of_lt (nextStep_length h))]

theorem steps_of_rest_nil (h : s.rest = []) : s.steps = [] :=
  steps_of_none (by rw [nextStep, h])

/-- The scanner takes the given steps to get from `s` to `s'`. -/
inductive Scans : CodeScan → List Step → CodeScan → Prop
  | refl (s : CodeScan) : Scans s [] s
  | cons {s s' s'' : CodeScan} {step : Step} {sts : List Step} (head : s.nextStep = some (step, s'))
      (tail : Scans s' sts s'') : Scans s (step :: sts) s''

variable {sts sts' : List Step}

theorem Scans.trans (h : Scans s sts s') (h' : Scans s' sts' s'') :
    Scans s (sts ++ sts') s'' := by
  induction h with
  | refl => exact h'
  | cons head _ ih => exact .cons head (ih h')

theorem Scans.steps_eq (h : Scans s sts s') : s.steps = sts ++ s'.steps := by
  induction h with
  | refl => rfl
  | cons head _ ih => rw [steps_of_some head, ih, cons_append]

/-- The characters that some steps consumed. -/
def textOf (sts : List Step) : List Char := sts.flatMap Step.text

@[simp] theorem textOf_nil : textOf [] = [] := rfl

@[simp] theorem textOf_cons (step : Step) (sts : List Step) :
    textOf (step :: sts) = step.text ++ textOf sts := rfl

@[simp] theorem textOf_append (sts sts' : List Step) :
    textOf (sts ++ sts') = textOf sts ++ textOf sts' := by simp [textOf]

theorem text_of_nextStep (h : s.nextStep = some (step, s')) : step.text ++ s'.rest = s.rest := by
  unfold nextStep at h
  split at h
  · cases h
  · next c rest heq =>
    cases h
    rw [heq, cons_append, take_append_drop]

theorem Scans.textOf_append_rest (h : Scans s sts s') : textOf sts ++ s'.rest = s.rest := by
  induction h with
  | refl => rfl
  | cons head _ ih => rw [textOf_cons, append_assoc, ih, text_of_nextStep head]

/-- A scanner comes to the end of its text. -/
theorem scans_steps (s : CodeScan) : ∃ s', Scans s s.steps s' ∧ s'.rest = [] := by
  induction hn : s.rest.length using Nat.strongRecOn generalizing s with
  | ind n ih =>
    cases hnext : s.nextStep with
    | none =>
      rw [steps_of_none hnext]
      refine ⟨s, .refl s, ?_⟩
      unfold nextStep at hnext
      split at hnext
      · assumption
      · cases hnext
    | some next =>
      obtain ⟨step, s₁⟩ := next
      obtain ⟨s', hscans, hrest⟩ := ih _ (hn ▸ nextStep_length hnext) s₁ rfl
      rw [steps_of_some hnext]
      exact ⟨s', .cons hnext hscans, hrest⟩

theorem textOf_steps (s : CodeScan) : textOf s.steps = s.rest := by
  obtain ⟨s', hscans, hrest⟩ := scans_steps s
  rw [← hscans.textOf_append_rest, hrest, append_nil]

theorem ch_mem_text (h : step ∈ s.steps) : step.ch ∈ step.text := by
  obtain ⟨s', hscans, -⟩ := scans_steps s
  generalize s.steps = sts at h hscans
  induction hscans with
  | refl => exact absurd h not_mem_nil
  | cons head _ ih =>
    rcases mem_cons.mp h with rfl | h
    · unfold nextStep at head
      split at head
      · cases head
      · cases head
        exact mem_cons_self
    · exact ih h

/-! ### Characters that stand for themselves -/

/-- A character that is a step of its own and leaves the state alone. -/
def Plain (state : State) (c : Char) : Prop :=
  match state with
  | .normal => c ∉ ['\'', '"', '[', '-', '/']
  | .lineComment => c ≠ '\n' ∧ c ≠ '\r'
  | .blockComment => c ≠ '*'
  | quoted => c ≠ quoted.closer

theorem react_plain {c : Char} (h : Plain s.state c) (rest : List Char) :
    s.react c rest = (s.state, false) := by
  unfold Plain at h
  unfold react
  cases hstate : s.state <;> simp_all

/-- The step of a character that is not followed into. -/
theorem nextStep_single {c : Char} {rest : List Char} {state : State} (hrest : s.rest = c :: rest)
    (hreact : s.react c rest = (state, false)) :
    s.nextStep = some (⟨[c], c, s.state = .normal⟩, ⟨rest, state, some c, s.prev1⟩) := by
  simp [nextStep, hrest, hreact]

/-- The step of two characters. -/
theorem nextStep_double {c d : Char} {rest : List Char} {state : State}
    (hrest : s.rest = c :: d :: rest) (hreact : s.react c (d :: rest) = (state, true)) :
    s.nextStep = some (⟨[c, d], c, s.state = .normal⟩, ⟨rest, state, some c, s.prev1⟩) := by
  simp [nextStep, hrest, hreact]

theorem react_nil (s : CodeScan) (c : Char) : (s.react c []).2 = false := by
  unfold react
  cases s.state <;> simp only [List.head?_nil, reduceCtorEq, and_false, if_false] <;> split_ifs <;>
    rfl

/-- What a step can be: one character, or two. -/
theorem nextStep_cases (h : s.nextStep = some (step, s')) :
    (∃ c r state, s.rest = c :: r ∧ s.react c r = (state, false) ∧
      step = ⟨[c], c, s.state = .normal⟩ ∧ s' = ⟨r, state, some c, s.prev1⟩) ∨
    ∃ c d r state, s.rest = c :: d :: r ∧ s.react c (d :: r) = (state, true) ∧
      step = ⟨[c, d], c, s.state = .normal⟩ ∧ s' = ⟨r, state, some c, s.prev1⟩ := by
  cases hrest : s.rest with
  | nil => simp [nextStep, hrest] at h
  | cons c r =>
    obtain ⟨state, double, hreact⟩ : ∃ state double, s.react c r = (state, double) := ⟨_, _, rfl⟩
    cases double with
    | false =>
      rw [nextStep_single hrest hreact] at h
      cases h
      exact .inl ⟨c, r, state, rfl, hreact, rfl, rfl⟩
    | true =>
      cases r with
      | nil =>
        have := react_nil s c
        rw [hreact] at this
        cases this
      | cons d r =>
        rw [nextStep_double hrest hreact] at h
        cases h
        exact .inr ⟨c, d, r, state, rfl, hreact, rfl, rfl⟩

/-- What a step says of the scanner in front of it. -/
theorem nextStep_spec (h : s.nextStep = some (step, s')) :
    ∃ r, s.rest = step.ch :: r ∧ step.code = decide (s.state = .normal) ∧
      s'.state = (s.react step.ch r).1 := by
  rcases nextStep_cases h with ⟨c, r, state, hr, hreact, rfl, rfl⟩ |
    ⟨c, d, r, state, hr, hreact, rfl, rfl⟩
  · exact ⟨r, hr, rfl, by rw [hreact]⟩
  · exact ⟨d :: r, hr, rfl, by rw [hreact]⟩

/-- Plain characters outside of code are passed over. -/
theorem scans_plain {a b : List Char} (hrest : s.rest = a ++ b) (ha : ∀ c ∈ a, Plain s.state c)
    (hcode : s.state ≠ .normal) :
    ∃ sts s', Scans s sts s' ∧ s'.rest = b ∧ s'.state = s.state ∧ textOf sts = a ∧
      ∀ step ∈ sts, step.code = false := by
  induction a generalizing s with
  | nil => exact ⟨[], s, .refl s, hrest, rfl, rfl, fun _ h => absurd h not_mem_nil⟩
  | cons c a ih =>
    have hstep := nextStep_single hrest (react_plain (ha c mem_cons_self) _)
    obtain ⟨sts, s', hscans, hrest', hstate, htext, hall⟩ :=
      @ih ⟨a ++ b, s.state, some c, s.prev1⟩ rfl
        (fun d hd => ha d (mem_cons_of_mem c hd)) hcode
    refine ⟨_, s', .cons hstep hscans, hrest', hstate, ?_, ?_⟩
    · rw [textOf_cons, htext]
      rfl
    · intro step hmem
      rcases mem_cons.mp hmem with rfl | hmem
      · simp [hcode]
      · exact hall step hmem

end CodeScan

end MssqlTds.Odbc
