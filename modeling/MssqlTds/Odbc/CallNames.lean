import MssqlTds.Odbc.MarkerInsertion

/-!
# Procedure names and the scanner

The parser of procedure names reads identifiers as the scanner does: a name has no marker in it, and
the scanner is in its normal state behind it (`Passes`).  So a clause inserted
behind a marker never changes a name (`takeProcName_insertOutputs`).
-/

namespace MssqlTds.Odbc

open CodeScan List Option

/-! ### Passing over a part -/

/-- The scanner passes over a part without markers, and starts afresh behind it. -/
structure Passes (part rest : List Char) : Prop where
  scan : ∃ sts, scan (part ++ rest) = sts ++ scan rest ∧ textOf sts = part ∧
    sts.countP Step.isMarker = 0
  closed : Closed (part ++ rest) ↔ Closed rest

section

variable {a b part rest : List Char} {bs : List Bool}

theorem passes_nil : Passes [] rest := ⟨⟨[], rfl, rfl, rfl⟩, Iff.rfl⟩

theorem Passes.append (h : Passes a (b ++ rest)) (h' : Passes b rest) :
    Passes (a ++ b) rest := by
  obtain ⟨sts, hscan, ha, hcount⟩ := h.scan
  obtain ⟨sts', hscan', hb, hcount'⟩ := h'.scan
  refine ⟨⟨sts ++ sts', ?_, ?_, ?_⟩, ?_⟩
  · rw [append_assoc, hscan, hscan', append_assoc]
  · rw [textOf_append, ha, hb]
  · rw [countP_append, hcount, hcount']
  · rw [append_assoc, h.closed, h'.closed]

theorem Passes.count (h : Passes part rest) :
    executableMarkerCount (part ++ rest) = executableMarkerCount rest := by
  obtain ⟨sts, hscan, -, hcount⟩ := h.scan
  rw [executableMarkerCount, hscan, countP_append, hcount, Nat.zero_add]
  rfl

theorem Passes.insertOutputs (h : Passes part rest) :
    insertOutputs bs (part ++ rest) = part ++ Odbc.insertOutputs bs rest := by
  obtain ⟨sts, hscan, hpart, hcount⟩ := h.scan
  rw [Odbc.insertOutputs, hscan, withOutputs_append, withOutputs_of_none hcount, hcount,
    textOf_append, hpart]
  rfl

theorem passes_quiet {w : List Char} (hw : ∀ c ∈ w, Quiet c) : Passes w rest := by
  induction w with
  | nil => exact passes_nil
  | cons c w ih =>
    obtain ⟨hinert, hmarker⟩ := hw c mem_cons_self
    refine .append (a := [c]) ⟨⟨[codeStep c], scan_cons hinert, rfl, ?_⟩, closed_cons hinert⟩
      (ih fun d hd => hw d (mem_cons_of_mem c hd))
    simp [codeStep, Step.isMarker, hmarker]

theorem passes_of_scans {sts : List Step} {s' : CodeScan}
    (h : Scans (new (part ++ rest)) sts s') (hrest : s'.rest = rest)
    (hstate : s'.state = .normal) (hneutral : Neutral s')
    (hcount : sts.countP Step.isMarker = 0) : Passes part rest := by
  have hlook : SameLook s' (new rest) := hneutral.sameLook (neutral_new rest)
  have hscan : scan (part ++ rest) = sts ++ scan rest := by
    rw [scan, h.steps_eq, steps_congr hrest hstate hlook]
    rfl
  refine ⟨⟨sts, hscan, ?_, hcount⟩, ?_⟩
  · have htext := h.textOf_append_rest
    rw [hrest] at htext
    exact append_cancel_right htext
  · exact (EndsNormal.of_scans h).trans (EndsNormal.congr hrest hstate hlook)

end

/-! ### Delimited identifiers -/

/-- The state inside of the delimited identifiers. -/
structure Delimits (state : State) (closer : Char) : Prop where
  closer : state.closer = closer
  quoted : state ∈ [.doubleQuote, .bracket]

/-- The two kinds of delimited identifiers, by the character that opens them. -/
inductive Opens : State → Char → Char → Prop
  | bracket : Opens .bracket '[' ']'
  | doubleQuote : Opens .doubleQuote '"' '"'

/-- The text between two delimiters, with the closing one doubled. -/
def doubled (closer : Char) (body : List Char) : List Char :=
  body.flatMap fun c => if c = closer then [closer, closer] else [c]

section

variable {state : State} {opener closer c : Char} {t body part rest r : List Char} {s : CodeScan}

theorem Opens.delimits (h : Opens state opener closer) : Delimits state closer := by
  cases h
  · exact ⟨rfl, by simp⟩
  · exact ⟨rfl, by simp⟩

theorem Opens.react (h : Opens state opener closer) :
    (new (opener :: r)).react opener r = (state, false) := by
  cases h <;> simp [react, new]

theorem Delimits.state_ne {other : State} (h : Delimits state closer)
    (hother : other ∉ [.doubleQuote, .bracket]) : state ≠ other :=
  fun heq => hother (heq ▸ h.quoted)

theorem Delimits.closer_ne (h : Delimits state closer) (hc : c ∉ ['"', ']']) : closer ≠ c := by
  obtain ⟨rfl, hquoted⟩ := h
  simp only [mem_cons, not_mem_nil, or_false, not_or] at hquoted hc
  rcases hquoted with rfl | rfl
  · exact .symm hc.1
  · exact .symm hc.2

theorem Delimits.react (h : Delimits state closer) (hstate : s.state = state) :
    s.react c r = if c = closer then
      if r.head? = some closer then (state, true) else (.normal, false) else (state, false) := by
  obtain ⟨rfl, hquoted⟩ := h
  simp only [mem_cons, not_mem_nil, or_false] at hquoted
  unfold CodeScan.react
  rcases hquoted with rfl | rfl <;> rw [hstate]

/-- **A delimited identifier** is a text with the closer doubled, and a closer that is not. -/
theorem takeDelimited_eq_some : takeDelimited closer t = some (part, rest) ↔
    t = part ++ rest ∧ rest.head? ≠ some closer ∧
      ∃ body, part = doubled closer body ++ [closer] := by
  constructor
  · intro h
    fun_induction takeDelimited closer t generalizing part with
    | case1 => cases h
    | case2 =>
      cases h
      exact ⟨rfl, by simp, [], rfl⟩
    | case3 => cases h
    | case4 t ih =>
      obtain ⟨⟨part', rest'⟩, hrec, heq⟩ := map_eq_some_iff.mp h
      cases heq
      obtain ⟨rfl, hhead, body, rfl⟩ := ih hrec
      exact ⟨rfl, hhead, closer :: body, by simp [doubled]⟩
    | case5 d t hne =>
      cases h
      exact ⟨rfl, by simpa using hne, [], rfl⟩
    | case6 c d t hne ih =>
      obtain ⟨⟨part', rest'⟩, hrec, heq⟩ := map_eq_some_iff.mp h
      cases heq
      obtain ⟨htext, hhead, body, rfl⟩ := ih hrec
      exact ⟨by rw [htext, cons_append], hhead, c :: body, by simp [doubled, hne]⟩
  · rintro ⟨rfl, hhead, body, rfl⟩
    induction body with
    | nil =>
      cases rest with
      | nil => simp [doubled, takeDelimited]
      | cons d rest =>
        have hne : d ≠ closer := by simpa using hhead
        simp [doubled, takeDelimited, hne]
    | cons c body ih =>
      rw [doubled, flatMap_cons, ← doubled]
      by_cases hc : c = closer
      · simp only [if_pos hc, cons_append, nil_append]
        rw [takeDelimited, if_pos rfl, if_pos rfl, ih]
        rfl
      · simp only [if_neg hc, cons_append, nil_append]
        obtain ⟨d, r, hr⟩ := exists_cons_of_ne_nil
          (show doubled closer body ++ [closer] ++ rest ≠ [] by simp)
        rw [hr] at ih ⊢
        rw [takeDelimited, if_neg hc, ih]
        rfl

/-- The scanner is out of a delimited identifier where it ends, and nothing in it is code. -/
theorem scans_delimited (hdelimits : Delimits state closer) (hhead : rest.head? ≠ some closer)
    (hrest : s.rest = doubled closer body ++ closer :: rest) (hstate : s.state = state) :
    ∃ sts s', Scans s sts s' ∧ s'.rest = rest ∧ s'.state = .normal ∧ s'.prev1 = some closer ∧
      (∀ step ∈ sts, step.code = false) := by
  have hquoted {step : Step} (hstep : step.code = decide (s.state = .normal)) {sts : List Step}
      (hsts : ∀ st ∈ sts, st.code = false) : ∀ st ∈ step :: sts, st.code = false := by
    intro st hst
    rcases mem_cons.mp hst with rfl | hst
    · rw [hstep, hstate, decide_eq_false (hdelimits.state_ne (by decide))]
    · exact hsts st hst
  induction body generalizing s with
  | nil =>
    have hstep := nextStep_single hrest
      (show s.react closer rest = (.normal, false) by simp [hdelimits.react hstate, hhead])
    exact ⟨_, _, .cons hstep (.refl _), rfl, rfl, rfl,
      hquoted rfl fun _ h => absurd h not_mem_nil⟩
  | cons c body ih =>
    rw [doubled, flatMap_cons, ← doubled, append_assoc] at hrest
    by_cases hc : c = closer
    · rw [if_pos hc] at hrest
      have hstep := nextStep_double hrest
        (show s.react closer (closer :: _) = (state, true) by simp [hdelimits.react hstate])
      obtain ⟨sts, s', hscans, hend⟩ := ih (s := ⟨_, state, some closer, s.prev1⟩) rfl rfl
        (hstate ▸ hquoted)
      exact ⟨_, s', .cons hstep hscans, hend.1, hend.2.1, hend.2.2.1, hquoted rfl hend.2.2.2⟩
    · rw [if_neg hc] at hrest
      have hstep := nextStep_single hrest
        (show s.react c _ = (state, false) by simp [hdelimits.react hstate, hc])
      obtain ⟨sts, s', hscans, hend⟩ := ih (s := ⟨_, state, some c, s.prev1⟩) rfl rfl
        (hstate ▸ hquoted)
      exact ⟨_, s', .cons hstep hscans, hend.1, hend.2.1, hend.2.2.1, hquoted rfl hend.2.2.2⟩

/-- A delimited identifier in a closed text is complete. -/
theorem takeDelimited_ne_none (hdelimits : Delimits state closer) (hends : EndsNormal s)
    (hrest : s.rest = t) (hstate : s.state = state) : takeDelimited closer t ≠ none := by
  have hnil {s : CodeScan} (hrest : s.rest = []) (hstate : s.state = state) : ¬ EndsNormal s := by
    rintro ⟨s', hscans, -, hnormal⟩
    rw [steps_of_rest_nil hrest] at hscans
    cases hscans
    exact hdelimits.state_ne (by decide) (hstate.symm.trans hnormal)
  fun_induction takeDelimited closer t generalizing s with
  | case1 => exact absurd hends (hnil hrest hstate)
  | case2 => simp
  | case3 c hne =>
    have hstep := nextStep_single hrest
      (show s.react c [] = (state, false) by simp [hdelimits.react hstate, hne])
    exact absurd ((EndsNormal.of_scans (.cons hstep (.refl _))).mp hends) (hnil rfl rfl)
  | case4 t ih =>
    have hstep := nextStep_double hrest
      (show s.react closer (closer :: t) = (state, true) by simp [hdelimits.react hstate])
    have hrec := ih ((EndsNormal.of_scans (.cons hstep (.refl _))).mp hends) rfl rfl
    simpa using hrec
  | case5 d t hne => simp
  | case6 c d t hne ih =>
    have hstep := nextStep_single hrest
      (show s.react c (d :: t) = (state, false) by simp [hdelimits.react hstate, hne])
    have hrec := ih ((EndsNormal.of_scans (.cons hstep (.refl _))).mp hends) rfl rfl
    simpa using hrec

/-- Only the opening character of a delimited identifier is code. -/
theorem Opens.scans (body : List Char) (h : Opens state opener closer)
    (hhead : rest.head? ≠ some closer) :
    ∃ sts s', Scans (CodeScan.new (opener :: (doubled closer body ++ [closer]) ++ rest))
        (codeStep opener :: sts) s' ∧
      s'.rest = rest ∧ s'.state = .normal ∧ Neutral s' ∧ ∀ step ∈ sts, step.code = false := by
  rw [cons_append, append_assoc]
  have hstep := @nextStep_single (CodeScan.new (opener :: (doubled closer body ++ closer :: rest)))
    opener (doubled closer body ++ closer :: rest) state rfl h.react
  obtain ⟨sts, s', hscans, hrest, hstate, hprev, hcode⟩ := @scans_delimited state closer body rest
    ⟨doubled closer body ++ closer :: rest, state, some opener, none⟩ h.delimits hhead rfl rfl
  exact ⟨sts, s', .cons hstep hscans, hrest, hstate, neutral_of_prev1 hprev
    (h.delimits.closer_ne (by decide)) (h.delimits.closer_ne (by decide)), hcode⟩

theorem passes_delimited (h : Opens state opener closer) (hhead : rest.head? ≠ some closer) :
    Passes (opener :: (doubled closer body ++ [closer])) rest := by
  obtain ⟨sts, s', hscans, hrest, hstate, hneutral, hcode⟩ := h.scans body hhead
  refine passes_of_scans hscans hrest hstate hneutral ?_
  rw [countP_cons_of_neg (by cases h <;> simp [codeStep, Step.isMarker]), countP_eq_zero]
  intro step hmem
  simp [Step.isMarker, hcode step hmem]

end

/-! ### Identifiers -/

section

variable {u : CharTables} {t part rest : List Char} {bs : List Bool} {c : Char}

theorem quiet_of_isIdentifierPart (h : isIdentifierPart u c = true) : Quiet c := by
  refine quiet_of_not_mem fun hmem => ?_
  have hloud := forall_mem_of_all (l := loudChars)
    (p := fun d => d.toNat < 128 ∧ ¬ isIdentifierPart .ascii d = true) (by decide) c hmem
  rw [isIdentifierPart, CharTables.isAlphanumeric, u.isAlphabetic_ascii c hloud.1,
    u.isNumeric_ascii c hloud.1] at h
  exact hloud.2 h

theorem isIdentifierPart_of_start (h : isIdentifierStart u c = true) :
    isIdentifierPart u c = true := by
  simp only [isIdentifierStart, isIdentifierPart, CharTables.isAlphanumeric, Bool.or_eq_true,
    decide_eq_true_eq, mem_cons, not_mem_nil, or_false] at h ⊢
  tauto

/-- Text that may stand behind a part in place of `rest`. -/
def Follows (rest rest' : List Char) : Prop :=
  rest'.head? = some ' ' ∨ rest'.head? = rest.head?

theorem Follows.head_ne {rest' : List Char} (h : Follows rest rest')
    (hspace : c ≠ ' ') (hc : rest.head? ≠ some c) : rest'.head? ≠ some c := by
  rcases h with h | h
  · rw [h]
    simpa using hspace.symm
  · rwa [h]

/-- The cases of an identifier: delimited, regular, or empty in front of a dot. -/
theorem takeIdentifier_cases (h : takeIdentifier u t = some (part, rest)) :
    (∃ state opener closer body, Opens state opener closer ∧ t = part ++ rest ∧
      rest.head? ≠ some closer ∧ part = opener :: (doubled closer body ++ [closer])) ∨
    (∃ c t', t = c :: t' ∧ isIdentifierStart u c = true ∧ c ≠ '[' ∧ c ≠ '"' ∧
      part = t.takeWhile (isIdentifierPart u) ∧ rest = t.dropWhile (isIdentifierPart u)) ∨
    part = [] ∧ rest = t ∧ t.head? = some '.' := by
  cases t with
  | nil => cases h
  | cons c t =>
    have hdelimited {state : State} {closer : Char} (hopens : Opens state c closer)
        (h : ((takeDelimited closer t).map fun p => (c :: p.1, p.2)) = some (part, rest)) :
        ∃ state opener closer body, Opens state opener closer ∧ c :: t = part ++ rest ∧
          rest.head? ≠ some closer ∧ part = opener :: (doubled closer body ++ [closer]) := by
      obtain ⟨⟨part', rest'⟩, hrec, heq⟩ := map_eq_some_iff.mp h
      cases heq
      obtain ⟨rfl, hhead, body, rfl⟩ := takeDelimited_eq_some.mp hrec
      exact ⟨_, c, closer, body, hopens, rfl, hhead, rfl⟩
    rw [takeIdentifier] at h
    split at h
    · next hc =>
      subst hc
      exact .inl (hdelimited .bracket h)
    split at h
    · next hc =>
      subst hc
      exact .inl (hdelimited .doubleQuote h)
    split at h
    · next hbracket hquote hstart =>
      cases h
      exact .inr (.inl ⟨c, t, rfl, hstart, hbracket, hquote, rfl, rfl⟩)
    split at h
    · next hdot =>
      cases h
      exact .inr (.inr ⟨rfl, rfl, by rw [hdot]; rfl⟩)
    · cases h

/-- The scanner passes over an identifier, whatever stands behind it. -/
theorem takeIdentifier_passes (h : takeIdentifier u t = some (part, rest)) :
    t = part ++ rest ∧ ∀ rest', Follows rest rest' → Passes part rest' := by
  rcases takeIdentifier_cases h with ⟨state, opener, closer, body, hopens, rfl, hhead, rfl⟩ |
    ⟨c, t', rfl, -, -, -, rfl, rfl⟩ | ⟨rfl, rfl, -⟩
  · refine ⟨rfl, fun rest' hfollows => passes_delimited hopens ?_⟩
    exact hfollows.head_ne (hopens.delimits.closer_ne (by decide)) hhead
  · refine ⟨takeWhile_append_dropWhile.symm, ?_⟩
    intro rest' _
    exact passes_quiet fun d hd => quiet_of_isIdentifierPart (mem_takeWhile_imp hd)
  · exact ⟨rfl, fun _ _ => passes_nil⟩

theorem takeIdentifier_local {rest' : List Char} (h : takeIdentifier u t = some (part, rest))
    (hhead : rest'.head? = rest.head?) :
    takeIdentifier u (part ++ rest') = some (part, rest') := by
  rcases takeIdentifier_cases h with ⟨state, opener, closer, body, hopens, -, hne, rfl⟩ |
    ⟨c, t', rfl, hstart, hbracket, hquote, rfl, rfl⟩ | ⟨rfl, rfl, hdot⟩
  · have htake := takeDelimited_eq_some.mpr ⟨rfl, hhead ▸ hne, body, rfl⟩
    cases hopens
    · rw [cons_append, takeIdentifier, if_pos rfl, htake]
      rfl
    · rw [cons_append, takeIdentifier, if_neg (by decide), if_pos rfl, htake]
      rfl
  · -- the word ends where it ended before
    obtain ⟨htake, hdrop⟩ := @takeWhile_append_stop (isIdentifierPart u)
      ((c :: t').takeWhile (isIdentifierPart u)) rest' (fun d hd => mem_takeWhile_imp hd)
      fun d hd => head_dropWhile (hhead ▸ hd)
    rw [takeWhile_cons_of_pos (isIdentifierPart_of_start hstart)] at htake hdrop ⊢
    rw [cons_append] at htake hdrop ⊢
    rw [takeIdentifier, if_neg hbracket, if_neg hquote, if_pos hstart, htake, hdrop]
  · rw [hdot] at hhead
    obtain ⟨r, rfl⟩ := List.head?_eq_some_iff.mp hhead
    have hstart : isIdentifierStart u '.' = false := by
      simp [isIdentifierStart, u.isAlphabetic_ascii '.' (by decide)]
    simp [takeIdentifier, hstart]

/-- Inserted clauses do not change the identifier in front of a text. -/
theorem takeIdentifier_insertOutputs (hclosed : Closed t) :
    takeIdentifier u (insertOutputs bs t) =
      (takeIdentifier u t).map fun p => (p.1, insertOutputs bs p.2) := by
  cases h : takeIdentifier u t with
  | some p =>
    obtain ⟨part, rest⟩ := p
    obtain ⟨rfl, hpasses⟩ := takeIdentifier_passes h
    rw [(hpasses rest (.inr rfl)).insertOutputs]
    exact takeIdentifier_local h (sameShape_insertOutputs bs rest).head
  | none =>
    cases t with
    | nil => rfl
    | cons c t =>
      obtain ⟨r, hr⟩ : ∃ r, insertOutputs bs (c :: t) = c :: r :=
        List.head?_eq_some_iff.mp (sameShape_insertOutputs bs (c :: t)).head
      have hdelimited {state : State} {closer : Char} (hopens : Opens state c closer) :
          takeDelimited closer t ≠ none :=
        takeDelimited_ne_none hopens.delimits ((EndsNormal.of_scans
          (.cons (@nextStep_single (new (c :: t)) c t state rfl hopens.react)
            (.refl _))).mp hclosed) rfl rfl
      rw [hr]
      rw [takeIdentifier] at h ⊢
      split at h
      · next hc =>
        subst hc
        exact absurd (map_eq_none_iff.mp h) (hdelimited .bracket)
      split at h
      · next hc =>
        subst hc
        exact absurd (map_eq_none_iff.mp h) (hdelimited .doubleQuote)
      split at h
      · cases h
      split at h
      · cases h
      next hbracket hquote hstart hdot =>
        rw [if_neg hbracket, if_neg hquote, if_neg hstart, if_neg hdot]
        rfl

/-! ### Qualified names -/

theorem passes_char (h : Quiet c) : Passes [c] rest :=
  passes_quiet fun _ hd => mem_singleton.mp hd ▸ h

theorem quiet_dot : Quiet '.' := quiet_of_not_mem (by decide)

theorem stripPrefixChar_eq_none : stripPrefixChar c t = none ↔ t.head? ≠ some c := by
  cases t with
  | nil => simp [stripPrefixChar]
  | cons d t =>
    rw [stripPrefixChar]
    split
    · next h => simp [h]
    · next h => simp [h]

theorem stripPrefixChar_insertOutputs (hc : Quiet c) :
    stripPrefixChar c (insertOutputs bs t) = (stripPrefixChar c t).map (insertOutputs bs) := by
  cases h : stripPrefixChar c t with
  | some r =>
    rw [stripPrefixChar_eq_some.mp h, insertOutputs_cons hc.1 hc.2]
    exact stripPrefixChar_eq_some.mpr rfl
  | none =>
    rw [stripPrefixChar_eq_none] at h
    rw [map_none, stripPrefixChar_eq_none, (sameShape_insertOutputs bs t).head]
    exact h

/-- The two ways in which an identifier is part of a qualified name: the last, or in front of a
dot. -/
theorem takeQualified_cases {fuel : ℕ} {name : List Char}
    (h : takeQualified u (fuel + 1) t = some (name, rest)) :
    ∃ part rest', takeIdentifier u t = some (part, rest') ∧
      ((name = part ∧ rest = rest' ∧ rest'.head? ≠ some '.') ∨
        ∃ t' parts, rest' = '.' :: t' ∧ takeQualified u fuel t' = some (parts, rest) ∧
          name = part ++ '.' :: parts) := by
  obtain ⟨⟨part, rest'⟩, hpart, h⟩ := bind_eq_some_iff.mp h
  refine ⟨part, rest', hpart, ?_⟩
  dsimp only at h
  split at h
  · next hdot =>
    cases h
    exact .inl ⟨rfl, rfl, stripPrefixChar_eq_none.mp hdot⟩
  · next t' hdot =>
    obtain ⟨⟨parts, rest''⟩, hrec, h⟩ := bind_eq_some_iff.mp h
    cases h
    exact .inr ⟨t', parts, stripPrefixChar_eq_some.mp hdot, hrec, rfl⟩

theorem takeQualified_passes {fuel : ℕ} {name : List Char}
    (h : takeQualified u fuel t = some (name, rest)) :
    t = name ++ rest ∧ ∀ rest', Follows rest rest' → Passes name rest' := by
  induction fuel generalizing t name with
  | zero => cases h
  | succ fuel ih =>
    obtain ⟨part, rest₁, hpart, ⟨rfl, rfl, -⟩ | ⟨t', parts, rfl, hrec, rfl⟩⟩ :=
      takeQualified_cases h
    · exact takeIdentifier_passes hpart
    · obtain ⟨rfl, hpasses⟩ := takeIdentifier_passes hpart
      obtain ⟨rfl, hpasses'⟩ := ih hrec
      refine ⟨by simp, ?_⟩
      intro rest' hfollows
      have hdot : Passes ('.' :: parts) rest' :=
        Passes.append (a := ['.']) (passes_char quiet_dot) (hpasses' rest' hfollows)
      exact (hpasses ('.' :: parts ++ rest') (.inr rfl)).append hdot

theorem takeQualified_insertOutputs {fuel fuel' : ℕ} (hclosed : Closed t)
    (hfuel : t.length < fuel) (hfuel' : (insertOutputs bs t).length < fuel') :
    takeQualified u fuel' (insertOutputs bs t) =
      (takeQualified u fuel t).map fun p => (p.1, insertOutputs bs p.2) := by
  induction fuel generalizing t fuel' with
  | zero => omega
  | succ fuel ih =>
    obtain ⟨fuel', rfl⟩ := Nat.exists_eq_succ_of_ne_zero (show fuel' ≠ 0 by omega)
    rw [takeQualified, takeQualified, takeIdentifier_insertOutputs hclosed]
    cases hpart : takeIdentifier u t with
    | none => rfl
    | some p =>
      obtain ⟨part, rest⟩ := p
      obtain ⟨rfl, hpasses⟩ := takeIdentifier_passes hpart
      have hpasses := hpasses rest (.inr rfl)
      simp only [map_some, bind_eq_bind, bind_some]
      rw [stripPrefixChar_insertOutputs quiet_dot]
      cases hdot : stripPrefixChar '.' rest with
      | none => rfl
      | some t' =>
        rw [stripPrefixChar_eq_some] at hdot
        subst hdot
        have hclosed' : Closed t' :=
          (closed_cons quiet_dot.1).mp (hpasses.closed.mp hclosed)
        rw [hpasses.insertOutputs, insertOutputs_cons quiet_dot.1 quiet_dot.2,
          length_append, length_cons] at hfuel'
        rw [length_append, length_cons] at hfuel
        change (takeQualified u fuel' (insertOutputs bs t')).bind _ =
          Option.map _ ((takeQualified u fuel t').bind _)
        rw [ih hclosed' (by omega) (by omega)]
        cases takeQualified u fuel t' with
        | none => rfl
        | some q => rfl

/-! ### Procedure names -/

theorem quiet_semicolon : Quiet ';' := quiet_of_not_mem (by decide)

theorem quiet_of_isDigit (h : c.isDigit = true) : Quiet c :=
  quiet_of_forall (p := (·.isDigit = true)) (by decide) h

/-- A procedure name is a qualified name, with a group number behind it or not. -/
theorem takeProcName_cases {raw : List Char} (h : takeProcName u t = some (raw, rest)) :
    ∃ name rest', takeQualified u (t.length + 1) t = some (name, rest') ∧ name ≠ [] ∧
      ((raw = name ∧ rest = rest') ∨
        ∃ digits, rest' = ';' :: (digits ++ rest) ∧ raw = name ++ ';' :: digits ∧
          ∀ c ∈ digits, c.isDigit = true) := by
  obtain ⟨⟨name, rest'⟩, hname, h⟩ := bind_eq_some_iff.mp h
  dsimp only at h
  split at h
  · cases h
  next hne =>
  refine ⟨name, rest', hname, hne, ?_⟩
  split at h
  · cases h
    exact .inl ⟨rfl, rfl⟩
  · next after hgroup =>
    split at h
    · cases h
      refine .inr ⟨_, ?_, rfl, fun c hc => mem_takeWhile_imp hc⟩
      rw [takeWhile_append_dropWhile]
      exact stripPrefixChar_eq_some.mp hgroup
    · cases h
      exact .inl ⟨rfl, rfl⟩

theorem takeProcName_passes {raw : List Char} (h : takeProcName u t = some (raw, rest)) :
    t = raw ++ rest ∧ ∀ rest', Follows rest rest' → Passes raw rest' := by
  obtain ⟨name, rest₁, hname, -, ⟨rfl, rfl⟩ | ⟨digits, rfl, rfl, hdigits⟩⟩ := takeProcName_cases h
  · exact takeQualified_passes hname
  · obtain ⟨rfl, hpasses⟩ := takeQualified_passes hname
    refine ⟨by simp, ?_⟩
    intro rest' _
    refine (hpasses (';' :: digits ++ rest') (.inr rfl)).append (passes_quiet ?_)
    intro c hc
    rcases mem_cons.mp hc with rfl | hc
    · exact quiet_semicolon
    · exact quiet_of_isDigit (hdigits c hc)

/-- Inserted clauses do not change the procedure name in front of a text. -/
theorem takeProcName_insertOutputs (hclosed : Closed t) :
    takeProcName u (insertOutputs bs t) =
      (takeProcName u t).map fun p => (p.1, insertOutputs bs p.2) := by
  rw [takeProcName, takeProcName,
    takeQualified_insertOutputs hclosed (Nat.lt_succ_self _) (Nat.lt_succ_self _)]
  cases hname : takeQualified u (t.length + 1) t with
  | none => rfl
  | some p =>
    obtain ⟨name, rest⟩ := p
    simp only [map_some, bind_eq_bind, bind_some]
    split
    · rfl
    rw [stripPrefixChar_insertOutputs quiet_semicolon]
    cases hgroup : stripPrefixChar ';' rest with
    | none => rfl
    | some after =>
      simp only [map_some]
      -- the digits are quiet, and what stops them stays
      have hall : ∀ c ∈ after.takeWhile (·.isDigit), c.isDigit = true :=
        fun c hc => mem_takeWhile_imp (p := Char.isDigit) hc
      have hquiet : ∀ c ∈ after.takeWhile (·.isDigit), Quiet c :=
        fun c hc => quiet_of_isDigit (hall c hc)
      have hafter : insertOutputs bs after =
          after.takeWhile (·.isDigit) ++ insertOutputs bs (after.dropWhile (·.isDigit)) := by
        rw [← insertOutputs_quiet_append hquiet, takeWhile_append_dropWhile]
      obtain ⟨htake, hdrop⟩ := @takeWhile_append_stop (·.isDigit) (after.takeWhile (·.isDigit))
        (insertOutputs bs (after.dropWhile (·.isDigit))) hall fun d hd =>
          head_dropWhile ((sameShape_insertOutputs bs (after.dropWhile (·.isDigit))).head ▸ hd)
      rw [hafter, htake, hdrop]
      split
      · rfl
      · rfl

theorem splitGroup_spec {sts : List Step}
    (h : ∀ step ∈ sts, step.code = true → step.ch = ';' → step.text = [';']) :
    (splitGroup sts).1 ++ (splitGroup sts).2.elim [] (List.cons ';') = textOf sts := by
  induction sts with
  | nil => rfl
  | cons step sts ih =>
    rw [splitGroup]
    split
    · next hsplit =>
      rw [textOf_cons, h step mem_cons_self hsplit.1 hsplit.2]
      rfl
    · rw [textOf_cons, ← ih fun st hst => h st (mem_cons_of_mem step hst),
        ← append_assoc]

/-- The name and the group number are all there is. -/
theorem splitGroup_scan (raw : List Char) :
    (splitGroup (scan raw)).1 ++ (splitGroup (scan raw)).2.elim [] (List.cons ';') = raw := by
  have htext : ∀ step ∈ scan raw, step.code = true → step.ch = ';' → step.text = [';'] := by
    intro step hmem hcode hch
    obtain ⟨l₁, l₂, hscan⟩ := append_of_mem hmem
    obtain ⟨-, hstep, -⟩ := scan_cut_sep hscan hcode (hch ▸ separator_of_mem (by simp))
    rw [hstep, hch]
    rfl
  rw [splitGroup_spec htext]
  exact textOf_steps (new raw)

/-- A valid procedure name is kept as it is. -/
theorem validateProcedureName_eq_ok {raw name : List Char}
    (h : validateProcedureName u raw = .ok name) : name = raw := by
  have hraw := splitGroup_scan raw
  simp only [validateProcedureName] at h
  split at h
  · cases h
  split at h
  · cases h
  split at h
  · cases h
  split at h
  · cases h
  rw [← hraw, ← Except.ok.inj h]
  split
  · next hgroup => rw [hgroup]; rfl
  · next hgroup => rw [hgroup]; simp

end

end MssqlTds.Odbc
