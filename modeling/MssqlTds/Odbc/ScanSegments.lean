import MssqlTds.Odbc.Escape

/-!
# Segments of SQL text

A text that the scanner leaves in its normal state is `Closed`.  Closed texts can be cut out and put
together: with a separator between them, the steps of the whole are those of the parts
(`scan_append_sep`), because no step looks past a separator and the scanner looks behind at most two
steps.

Cutting whitespace off the end of a text is different: it keeps the markers
(`executableMarkerCount_trim`), but the line break that ends a comment is whitespace too, and
without it the text may not be closed any more.
-/

namespace MssqlTds.Odbc

open CodeScan List

/-! ### What the scanner looks behind at -/

/-- Two scanners that remember the same of their last two steps, as far as it matters. -/
structure SameLook (s t : CodeScan) : Prop where
  star : s.prev1 = some '*' ↔ t.prev1 = some '*'
  paren : (s.prev2 = some '*' ∧ s.prev1 = some ')') ↔ (t.prev2 = some '*' ∧ t.prev1 = some ')')

/-- A scanner that remembers nothing that matters. -/
structure Neutral (s : CodeScan) : Prop where
  star : s.prev1 ≠ some '*'
  paren : s.prev1 ≠ some ')'

section

variable {s t s' : CodeScan} {step : Step} {sts : List Step} {c : Char} {a b : List Char}

theorem Neutral.sameLook (hs : Neutral s) (ht : Neutral t) : SameLook s t :=
  ⟨by simp [hs.star, ht.star], by simp [hs.paren, ht.paren]⟩

theorem neutral_new (sql : List Char) : Neutral (CodeScan.new sql) := ⟨by simp [new], by simp [new]⟩

theorem neutral_of_prev1 (h : s.prev1 = some c) (hstar : c ≠ '*') (hparen : c ≠ ')') :
    Neutral s := ⟨by simp [h, hstar], by simp [h, hparen]⟩

theorem react_congr (hstate : s.state = t.state) (hlook : SameLook s t) (c : Char)
    (rest : List Char) : s.react c rest = t.react c rest := by
  have hext (behind : List Char) : s.canonicalExtension behind = t.canonicalExtension behind := by
    simp only [canonicalExtension, hlook.paren]
  unfold react
  rw [hstate]
  simp only [hext]

/-- The steps of a text depend on what is behind it through the look only. -/
theorem CodeScan.Scans.congr (h : Scans s sts s') (hrest : s.rest = t.rest)
    (hstate : s.state = t.state) (hlook : SameLook s t) :
    ∃ t', Scans t sts t' ∧ s'.rest = t'.rest ∧ s'.state = t'.state ∧ SameLook s' t' := by
  induction h generalizing t with
  | refl => exact ⟨t, .refl t, hrest, hstate, hlook⟩
  | @cons s s₁ s' step sts head _ ih =>
    cases hr : s.rest with
    | nil => simp [nextStep, hr] at head
    | cons c r =>
      have ht : t.rest = c :: r := hrest ▸ hr
      have hhead := head
      simp only [nextStep, hr, Option.some.injEq, Prod.mk.injEq] at hhead
      obtain ⟨rfl, rfl⟩ := hhead
      obtain ⟨t', hscans, h⟩ := @ih ⟨_, _, some c, t.prev1⟩ rfl rfl
        ⟨Iff.rfl, and_congr_left fun _ => hlook.star⟩
      refine ⟨t', .cons ?_ hscans, h⟩
      simp only [nextStep, ht, ← hstate, ← react_congr hstate hlook]

theorem steps_congr (hrest : s.rest = t.rest) (hstate : s.state = t.state)
    (hlook : SameLook s t) : s.steps = t.steps := by
  obtain ⟨s', hscans, hnil⟩ := scans_steps s
  obtain ⟨t', hscans', hrest', -⟩ := hscans.congr hrest hstate hlook
  have hnil' : t'.rest = [] := hrest' ▸ hnil
  rw [hscans'.steps_eq, steps_of_rest_nil hnil', append_nil]

theorem CodeScan.Scans.unique {s'' : CodeScan} (h : Scans s sts s') (h' : Scans s sts s'') :
    s' = s'' := by
  induction h with
  | refl =>
    cases h'
    rfl
  | cons head _ ih =>
    cases h' with
    | cons head' tail' =>
      rw [head] at head'
      cases head'
      exact ih tail'

/-! ### Changing the text behind a segment -/

/-- Text that no step in front of it looks into: `(` is looked at only behind `--`. -/
structure SafeBehind (sts : List Step) (rest : List Char) : Prop where
  head : ∀ c ∈ rest.head?, c ∉ ['-', '*', '/', '\'', '"', ']']
  paren : rest.head? = some '(' → ∀ step ∈ sts, step.code = true → step.ch ≠ '-'

theorem SafeBehind.tail (h : SafeBehind (step :: sts) a) : SafeBehind sts a :=
  ⟨h.head, fun hparen st hst => h.paren hparen st (mem_cons_of_mem step hst)⟩

theorem safeBehind_nil : SafeBehind sts [] := ⟨by simp, by simp⟩

theorem safeBehind_cons (h : c ∉ ['-', '*', '/', '\'', '"', ']', '(']) :
    SafeBehind sts (c :: a) := by
  simp only [mem_cons, not_or, not_mem_nil, not_false_eq_true, and_true] at h
  refine ⟨?_, ?_⟩
  · simp [h]
  · intro hparen
    simp [h] at hparen

variable {p x y : List Char}

theorem head?_append_swap {d : Char}
    (hx : x.head? ≠ some d) (hy : y.head? ≠ some d) :
    (p ++ x).head? = some d ↔ (p ++ y).head? = some d := by
  cases p with
  | nil => simp [hx, hy]
  | cons c p => simp

/-- A step reacts to the same text in front of it, whatever comes behind that. -/
theorem react_swap (hx : SafeBehind [⟨[], c, s.state = .normal⟩] x)
    (hy : SafeBehind [⟨[], c, s.state = .normal⟩] y) :
    s.react c (p ++ x) = s.react c (p ++ y) := by
  have hhead (d : Char) (hd : d ∈ ['-', '*', '/', '\'', '"', ']']) :
      (p ++ x).head? = some d ↔ (p ++ y).head? = some d := by
    refine head?_append_swap ?_ ?_
    · exact fun h => hx.head d h hd
    · exact fun h => hy.head d h hd
  have hclose (state : State) : (p ++ x).head? = some state.closer ↔
      (p ++ y).head? = some state.closer := by
    cases state <;> exact hhead _ (by decide)
  unfold react
  cases hstate : s.state with
  | normal =>
    simp only [hhead '-' (by decide), hhead '*' (by decide)]
    by_cases hdash : c = '-' ∧ (p ++ y).head? = some '-'
    · -- only here more than one character is looked at
      obtain ⟨rfl, hdash⟩ := hdash
      have hlook : s.canonicalExtension (p ++ x).tail = s.canonicalExtension (p ++ y).tail := by
        have hpx : x.head? ≠ some '(' :=
          fun h => hx.paren h _ mem_cons_self (by simp [hstate]) rfl
        have hpy : y.head? ≠ some '(' :=
          fun h => hy.paren h _ mem_cons_self (by simp [hstate]) rfl
        have htake : (p ++ x).tail.take 2 = ['(', '*'] ↔ (p ++ y).tail.take 2 = ['(', '*'] := by
          cases p with
          | nil => exact (hy.head '-' hdash (by simp)).elim
          | cons d p =>
            simp only [cons_append, tail_cons]
            cases p with
            | nil => cases x <;> cases y <;> simp_all
            | cons e p =>
              simp only [cons_append, take_succ_cons, List.cons.injEq]
              refine and_congr_right fun _ => ?_
              have := @head?_append_swap p x y '*' (fun h => hx.head _ h (by simp))
                (fun h => hy.head _ h (by simp))
              cases hpx' : p ++ x <;> cases hpy' : p ++ y <;> simp_all
        simp only [canonicalExtension, htake]
      simp only [hlook]
    · simp only [hdash, if_false]
  | lineComment => rfl
  | blockComment => simp only [hhead '/' (by decide)]
  | _ => simp only [hclose]

theorem SafeBehind.one (h : SafeBehind (step :: sts) a) : SafeBehind [step] a :=
  ⟨h.head, fun hparen st hst =>
    h.paren hparen st (mem_singleton.mp hst ▸ mem_cons_self)⟩

/-- A step does not depend on the text behind it that it does not look into. -/
theorem nextStep_swap (h : s.nextStep = some (step, s'))
    (hrest : s'.rest = p ++ x) (hx : SafeBehind [step] x) (hy : SafeBehind [step] y) :
    nextStep { s with rest := step.text ++ (p ++ y) } =
      some (step, { s' with rest := p ++ y }) := by
  have hone (c : Char) (hch : step.ch = c) (hcode : step.code = decide (s.state = .normal))
      (z : List Char) (hz : SafeBehind [step] z) : SafeBehind [⟨[], c, s.state = .normal⟩] z := by
    refine ⟨hz.head, ?_⟩
    intro hparen st hst hnormal
    rw [mem_singleton.mp hst] at hnormal ⊢
    exact hch ▸ hz.paren hparen step mem_cons_self (hcode ▸ hnormal)
  rcases nextStep_cases h with ⟨c, r, state, hr, hreact, rfl, rfl⟩ |
    ⟨c, d, r, state, hr, hreact, rfl, rfl⟩
  · change r = p ++ x at hrest
    rw [hrest] at hreact
    exact nextStep_single rfl
      ((react_swap (hone c rfl rfl y hy) (hone c rfl rfl x hx)).trans hreact)
  · change r = p ++ x at hrest
    rw [hrest, ← cons_append] at hreact
    exact nextStep_double rfl
      ((react_swap (p := d :: p) (hone c rfl rfl y hy) (hone c rfl rfl x hx)).trans hreact)

/-- The steps in front of a text do not depend on it. -/
theorem CodeScan.Scans.swap (h : Scans s sts s') {x y : List Char} (hrest : s'.rest = x)
    (hx : SafeBehind sts x) (hy : SafeBehind sts y) :
    Scans { s with rest := textOf sts ++ y } sts { s' with rest := y } := by
  induction h with
  | refl => exact .refl _
  | @cons s s₁ s' step sts head tail ih =>
    have hbehind := tail.textOf_append_rest
    rw [hrest] at hbehind
    have hstep := nextStep_swap head hbehind.symm hx.one hy.one
    rw [← append_assoc] at hstep
    exact .cons hstep (ih hrest hx.tail hy.tail)

variable {l₁ l₂ : List Step}

theorem CodeScan.Scans.split (h : Scans s (l₁ ++ l₂) s') :
    ∃ m, Scans s l₁ m ∧ Scans m l₂ s' := by
  induction l₁ generalizing s with
  | nil => exact ⟨s, .refl s, h⟩
  | cons step l₁ ih =>
    cases h with
    | cons head tail =>
      obtain ⟨m, h₁, h₂⟩ := ih tail
      exact ⟨m, .cons head h₁, h₂⟩

/-! ### Closed texts -/

/-- The scanner gets to the end of its text in the normal state. -/
def EndsNormal (s : CodeScan) : Prop :=
  ∃ s', Scans s s.steps s' ∧ s'.rest = [] ∧ s'.state = .normal

/-- A text that leaves the scanner in its normal state. -/
def Closed (a : List Char) : Prop := EndsNormal (CodeScan.new a)

theorem EndsNormal.of_scans (h : Scans s sts s') : EndsNormal s ↔ EndsNormal s' := by
  constructor
  · rintro ⟨e, hscans, hrest, hstate⟩
    rw [h.steps_eq] at hscans
    obtain ⟨m, h₁, h₂⟩ := hscans.split
    obtain rfl := h₁.unique h
    exact ⟨e, h₂, hrest, hstate⟩
  · rintro ⟨e, hscans, hrest, hstate⟩
    refine ⟨e, ?_, hrest, hstate⟩
    rw [h.steps_eq]
    exact h.trans hscans

theorem EndsNormal.congr (hrest : s.rest = t.rest) (hstate : s.state = t.state)
    (hlook : SameLook s t) : EndsNormal s ↔ EndsNormal t := by
  have hone {s t : CodeScan} (hrest : s.rest = t.rest) (hstate : s.state = t.state)
      (hlook : SameLook s t) : EndsNormal s → EndsNormal t := by
    rintro ⟨e, hscans, hnil, hnormal⟩
    obtain ⟨e', hscans', hrest', hstate', -⟩ := hscans.congr hrest hstate hlook
    exact ⟨e', steps_congr hrest hstate hlook ▸ hscans', hrest' ▸ hnil, hstate' ▸ hnormal⟩
  exact ⟨hone hrest hstate hlook,
    hone hrest.symm hstate.symm ⟨hlook.star.symm, hlook.paren.symm⟩⟩

def codeStep (c : Char) : Step := ⟨[c], c, true⟩

theorem closed_nil : Closed [] := ⟨_, .refl _, rfl, rfl⟩

/-- A plain character of code is a step of its own. -/
theorem nextStep_code (hrest : s.rest = c :: a) (hstate : s.state = .normal)
    (hc : Plain .normal c) :
    s.nextStep = some (codeStep c, ⟨a, .normal, some c, s.prev1⟩) := by
  rw [nextStep_single hrest (by rw [react_plain (by rwa [hstate])]), hstate]
  simp [codeStep]

/-- A character that is a step of code of its own and that nobody looks behind at. -/
structure Inert (c : Char) : Prop where
  plain : Plain .normal c
  star : c ≠ '*'
  paren : c ≠ ')'

/-- A character of its own that nobody looks ahead at either. -/
structure Separator (c : Char) : Prop extends Inert c where
  safe : c ∉ ['-', '*', '/', '\'', '"', ']', '(']

theorem separator_of_mem (h : c ∈ [' ', ',', '\x7b', '\x7d', ';', '.']) : Separator c := by
  simp only [mem_cons, not_mem_nil, or_false] at h
  rcases h with rfl | rfl | rfl | rfl | rfl | rfl <;>
    exact ⟨⟨by simp [Plain], by decide, by decide⟩, by decide⟩

theorem inert_scan (hc : Inert c) (hrest : s.rest = c :: a) (hstate : s.state = .normal) :
    s.steps = codeStep c :: scan a ∧ (EndsNormal s ↔ Closed a) := by
  have hstep := nextStep_code hrest hstate hc.plain
  have hlook : SameLook ⟨a, .normal, some c, s.prev1⟩ (CodeScan.new a) :=
    (neutral_of_prev1 rfl hc.star hc.paren).sameLook (neutral_new a)
  refine ⟨?_, ?_⟩
  · rw [steps_of_some hstep]
    exact congrArg (List.cons _) (steps_congr rfl rfl hlook)
  · rw [EndsNormal.of_scans (.cons hstep (.refl _))]
    exact EndsNormal.congr rfl rfl hlook

/-- An inert character in front of a text. -/
theorem scan_cons (hc : Inert c) : scan (c :: a) = codeStep c :: scan a :=
  (inert_scan hc rfl rfl).1

theorem closed_cons (hc : Inert c) : Closed (c :: a) ↔ Closed a := (inert_scan hc rfl rfl).2

/-- The state behind the next `n` steps. -/
def stateBehind : ℕ → CodeScan → State
  | 0, s => s.state
  | n + 1, s =>
    match s.nextStep with
    | none => s.state
    | some (_, s') => stateBehind n s'

theorem CodeScan.Scans.stateBehind_eq (h : Scans s sts s') :
    stateBehind sts.length s = s'.state := by
  induction h with
  | refl => rfl
  | cons head _ ih =>
    rw [length_cons, stateBehind, head]
    exact ih

theorem closed_iff : Closed a ↔ stateBehind (scan a).length (CodeScan.new a) = .normal := by
  constructor
  · rintro ⟨s', hscans, -, hstate⟩
    exact hscans.stateBehind_eq.trans hstate
  · intro hstate
    obtain ⟨s', hscans, hrest⟩ := scans_steps (CodeScan.new a)
    exact ⟨s', hscans, hrest, hscans.stateBehind_eq.symm.trans hstate⟩

instance : DecidablePred Closed := fun _ => decidable_of_iff _ closed_iff.symm

/-- The scanner behind a closed text, in front of another one. -/
theorem Closed.scans_append (ha : Closed a) (hb : SafeBehind (scan a) b) :
    ∃ s', Scans (CodeScan.new (a ++ b)) (scan a) s' ∧ s'.rest = b ∧ s'.state = .normal := by
  obtain ⟨s', hscans, hrest, hstate⟩ := ha
  have hswap := hscans.swap hrest safeBehind_nil hb
  rw [textOf_steps (CodeScan.new a)] at hswap
  exact ⟨_, hswap, rfl, hstate⟩

/-- Two texts with a separator between them. -/
theorem Closed.append_sep (ha : Closed a) (hc : Separator c) :
    scan (a ++ c :: b) = scan a ++ codeStep c :: scan b ∧
      (Closed (a ++ c :: b) ↔ Closed b) := by
  obtain ⟨s', hscans, hrest, hstate⟩ := ha.scans_append (safeBehind_cons (a := b) hc.safe)
  obtain ⟨hsteps, hends⟩ := inert_scan hc.toInert hrest hstate
  exact ⟨by rw [scan, hscans.steps_eq, hsteps], (EndsNormal.of_scans hscans).trans hends⟩

/-- The text in front of a step of code that nobody looks at is closed. -/
theorem scan_cut {sql : List Char} (h : scan sql = l₁ ++ step :: l₂)
    (hcode : step.code = true) (hplain : Plain .normal step.ch)
    (hsafe : step.ch ∉ ['-', '*', '/', '\'', '"', ']', '(']) :
    sql = textOf l₁ ++ step.ch :: textOf l₂ ∧ step = codeStep step.ch ∧
      Closed (textOf l₁) ∧ scan (textOf l₁) = l₁ ∧
      ∃ m, Scans (CodeScan.new sql) l₁ m ∧ m.state = .normal ∧
        m.rest = step.ch :: textOf l₂ := by
  obtain ⟨e, hscans, hnil⟩ := scans_steps (CodeScan.new sql)
  rw [← scan, h] at hscans
  obtain ⟨m, h₁, h₂⟩ := hscans.split
  cases h₂ with
  | @cons _ m' _ _ _ head tail =>
    obtain ⟨r, hr, hnormal, -⟩ := nextStep_spec head
    have hstate : m.state = .normal := by simpa [hcode] using hnormal
    have hstep := nextStep_code hr hstate hplain
    rw [head] at hstep
    obtain ⟨hcodeStep, rfl⟩ := Prod.mk.inj (Option.some.inj hstep)
    have htail := tail.textOf_append_rest
    rw [hnil, append_nil] at htail
    change textOf l₂ = r at htail
    have hsql := h₁.textOf_append_rest
    rw [hr, ← htail] at hsql
    have hbefore := h₁.swap hr (safeBehind_cons hsafe) safeBehind_nil
    rw [append_nil] at hbefore
    have hscan : scan (textOf l₁) = l₁ := by
      exact hbefore.steps_eq.trans (by rw [steps_of_rest_nil rfl, append_nil])
    have hclosed : Closed (textOf l₁) := by
      refine ⟨{ m with rest := [] }, ?_, rfl, hstate⟩
      rw [← scan, hscan]
      exact hbefore
    exact ⟨hsql.symm, hcodeStep, hclosed, hscan, m, h₁, hstate, htail ▸ hr⟩

theorem scan_cut_sep {sql : List Char} (h : scan sql = l₁ ++ step :: l₂)
    (hcode : step.code = true) (hsep : Separator step.ch) :
    sql = textOf l₁ ++ step.ch :: textOf l₂ ∧ step = codeStep step.ch ∧
      Closed (textOf l₁) ∧ scan (textOf l₁) = l₁ ∧ scan (textOf l₂) = l₂ := by
  obtain ⟨hsql, hstep, hclosed, hscan, -⟩ := scan_cut h hcode hsep.plain hsep.safe
  refine ⟨hsql, hstep, hclosed, hscan, ?_⟩
  have hsteps := (hclosed.append_sep (b := textOf l₂) hsep).1
  rw [← hsql, h, hscan] at hsteps
  exact (List.cons.inj (append_cancel_left hsteps)).2.symm

/-! ### Whitespace -/

theorem not_isWhitespace_of_mem
    (h : c ∈ ['\'', '"', '[', ']', '-', '/', '*', ')', '(', '?', '.', '\x7b']) :
    isWhitespace c = false := forall_mem_of_all (p := (isWhitespace · = false)) (by decide) c h

theorem separator_of_whitespace (h : isWhitespace c = true) : Separator c := by
  have hne {l : List Char}
      (hl : l ⊆ ['\'', '"', '[', ']', '-', '/', '*', ')', '(', '?', '.', '\x7b']) : c ∉ l := by
    intro hc
    rw [not_isWhitespace_of_mem (hl hc)] at h
    cases h
  have hone {d : Char} (hc : c ∉ [d]) : c ≠ d := fun heq => hc (mem_singleton.mpr heq)
  exact ⟨⟨hne (by decide), hone (hne (by decide)), hone (hne (by decide))⟩, hne (by decide)⟩

theorem executableMarkerCount_append_sep (ha : Closed a) (hc : Separator c) (hmarker : c ≠ '?') :
    executableMarkerCount (a ++ c :: b) = executableMarkerCount a + executableMarkerCount b := by
  rw [executableMarkerCount, (ha.append_sep hc).1, countP_append, countP_cons_of_neg]
  · rfl
  · simp [codeStep, Step.isMarker, hmarker]

theorem executableMarkerCount_cons (hc : Inert c) (hmarker : c ≠ '?') :
    executableMarkerCount (c :: a) = executableMarkerCount a := by
  rw [executableMarkerCount, scan_cons hc, countP_cons_of_neg]
  · rfl
  · simp [codeStep, Step.isMarker, hmarker]

theorem ne_marker_of_whitespace (h : isWhitespace c = true) : c ≠ '?' := by
  rintro rfl
  cases h

/-- A character of code that has no influence on its surroundings and is no marker. -/
def Quiet (c : Char) : Prop := Inert c ∧ c ≠ '?'

theorem quiet_of_whitespace (h : isWhitespace c = true) : Quiet c :=
  ⟨(separator_of_whitespace h).toInert, ne_marker_of_whitespace h⟩

variable {w : List Char}

/-- Code without influence on its surroundings adds its markers, and nothing else changes. -/
theorem scan_inert_append (hw : ∀ c ∈ w, Inert c) :
    scan (w ++ a) = w.map codeStep ++ scan a ∧ (Closed (w ++ a) ↔ Closed a) ∧
      executableMarkerCount (w ++ a) = w.count '?' + executableMarkerCount a := by
  induction w with
  | nil => simp
  | cons c w ih =>
    have hinert := hw c mem_cons_self
    obtain ⟨hscan, hclosed, hcount⟩ := ih fun d hd => hw d (mem_cons_of_mem c hd)
    rw [cons_append, scan_cons hinert, closed_cons hinert, hscan]
    refine ⟨rfl, hclosed, ?_⟩
    by_cases hmarker : c = '?'
    · rw [executableMarkerCount, scan_cons hinert, hmarker, countP_cons_of_pos rfl,
        ← executableMarkerCount, hcount, count_cons_self, Nat.add_right_comm]
    · rw [executableMarkerCount_cons hinert hmarker, hcount, count_cons_of_ne hmarker]

/-- Quiet characters in front of a text do not matter. -/
theorem scan_quiet_append (hw : ∀ c ∈ w, Quiet c) :
    scan (w ++ a) = w.map codeStep ++ scan a ∧ (Closed (w ++ a) ↔ Closed a) ∧
      executableMarkerCount (w ++ a) = executableMarkerCount a := by
  have hzero : w.count '?' = 0 := count_eq_zero.mpr fun hc => (hw '?' hc).2 rfl
  have happend := @scan_inert_append a w fun c hc => (hw c hc).1
  rwa [hzero, Nat.zero_add] at happend

theorem quiet_text (hw : ∀ c ∈ w, Quiet c) : Closed w ∧ executableMarkerCount w = 0 := by
  obtain ⟨-, hclosed, hcount⟩ := @scan_quiet_append [] w hw
  rw [append_nil] at hclosed hcount
  exact ⟨hclosed.mpr closed_nil, hcount⟩

/-! ### Characters behind a text -/

/-- A character at the end of a text is a step of its own, unless a step in front of it looks at
it. -/
theorem scan_concat (hc : c ∉ ['-', '*', '/', '\'', '"', ']', '(']) :
    ∃ code, scan (a ++ [c]) = scan a ++ [⟨[c], c, code⟩] := by
  obtain ⟨m, hscans, hrest⟩ := scans_steps (CodeScan.new a)
  have hswap := hscans.swap hrest safeBehind_nil (safeBehind_cons (a := []) hc)
  rw [textOf_steps (CodeScan.new a)] at hswap
  change Scans (CodeScan.new (a ++ [c])) (scan a) { m with rest := [c] } at hswap
  have hstep := @nextStep_single { m with rest := [c] } c [] _ rfl (Prod.ext rfl (react_nil _ c))
  exact ⟨_, by rw [scan, hswap.steps_eq, steps_of_some hstep, steps_of_rest_nil rfl]⟩

theorem executableMarkerCount_concat (hc : c ∉ ['-', '*', '/', '\'', '"', ']', '('])
    (hmarker : c ≠ '?') : executableMarkerCount (a ++ [c]) = executableMarkerCount a := by
  obtain ⟨code, hscan⟩ := @scan_concat c a hc
  rw [executableMarkerCount, hscan, countP_append, executableMarkerCount]
  simp [Step.isMarker, hmarker]

theorem executableMarkerCount_trimEnd (a : List Char) :
    executableMarkerCount (trimEnd a) = executableMarkerCount a := by
  induction a using List.reverseRecOn with
  | nil => rfl
  | append_singleton a c ih =>
    by_cases hc : isWhitespace c = true
    · rw [trimEnd, rdropWhile_concat_pos _ _ _ hc, ← trimEnd, ih,
        executableMarkerCount_concat (separator_of_whitespace hc).safe (ne_marker_of_whitespace hc)]
    · rw [trimEnd, rdropWhile_concat_neg _ _ _ hc]

/-- Trimming keeps the markers. -/
theorem executableMarkerCount_trim (a : List Char) :
    executableMarkerCount (trim a) = executableMarkerCount a := by
  obtain ⟨w, ha, hw⟩ := trimStart_append a
  rw [trim, executableMarkerCount_trimEnd,
    ← (scan_quiet_append fun c hc => quiet_of_whitespace (hw c hc)).2.2, ← ha]

end

end MssqlTds.Odbc
