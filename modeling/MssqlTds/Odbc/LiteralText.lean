import MssqlTds.Odbc.EscapeParts

/-!
# The literals of a translation

`{encrypt …}` and `{interval …}` have no executable marker in their bodies if they are accepted, and
neither have the literals that replace them, which are closed texts.
-/

namespace MssqlTds.Odbc

open CodeScan List

/-! ### Texts without markers -/

theorem executableMarkerCount_eq_zero {t : List Char} (h : '?' ∉ t) :
    executableMarkerCount t = 0 := by
  rw [executableMarkerCount, countP_eq_zero]
  intro step hstep hmarker
  simp only [Step.isMarker, Bool.and_eq_true, decide_eq_true_eq] at hmarker
  refine h ?_
  rw [← hmarker.2, show t = (CodeScan.new t).rest from rfl, ← textOf_steps (CodeScan.new t)]
  exact mem_flatMap.mpr ⟨step, hstep, ch_mem_text hstep⟩

theorem Skips.countP {s s' : CodeScan} {region : List Char} (h : Skips s region s') :
    s.steps.countP Step.isMarker = s'.steps.countP Step.isMarker := by
  obtain ⟨sts, hscans, -, hall⟩ := h.scans
  rw [hscans.steps_eq, countP_append, countP_eq_zero.mpr, Nat.zero_add]
  intro step hstep
  simp [hall step hstep]

/-! ### Encrypt -/

variable {s : CodeScan}

/-- The scanner reads the literal as the parser does. -/
theorem takeLiteral_skips {t literal rest : List Char} (h : takeLiteral t = some (literal, rest))
    (hrest : s.rest = t) (hstate : s.state = .singleQuote) :
    ∃ region s', Skips s region s' ∧ s'.rest = rest ∧ s'.state = .normal ∧
      s'.prev1 = some '\'' := by
  fun_induction takeLiteral t generalizing s literal with
  | case1 => cases h
  | case2 t ih =>
    obtain ⟨⟨literal', rest'⟩, hrec, heq⟩ := Option.map_eq_some_iff.mp h
    cases heq
    have hstep := nextStep_double hrest
      (show s.react '\'' ('\'' :: t) = (.singleQuote, true) by
        simp [react, hstate, State.closer])
    have hskip := Skips.of_nextStep hstep (by simp [Step.isMarker, hstate])
    obtain ⟨region, s', hskips, h⟩ :=
      ih hrec (s := ⟨t, .singleQuote, some '\'', s.prev1⟩) rfl rfl
    exact ⟨_, s', hskip.trans hskips, h⟩
  | case3 t hnot =>
    cases h
    have hhead : rest.head? ≠ some '\'' := by
      intro hhead
      obtain ⟨t', rfl⟩ := List.head?_eq_some_iff.mp hhead
      exact hnot t' rfl
    have hstep := nextStep_single hrest
      (show s.react '\'' rest = (.normal, false) by simp [react, hstate, State.closer, hhead])
    exact ⟨_, _, Skips.of_nextStep hstep (by simp [Step.isMarker, hstate]), rfl, rfl, rfl⟩
  | case4 c t hnot hnot' ih =>
    obtain ⟨⟨literal', rest'⟩, hrec, heq⟩ := Option.map_eq_some_iff.mp h
    cases heq
    have hc : c ≠ '\'' := by
      rintro rfl
      exact hnot' rfl
    have hstep := nextStep_single hrest
      (show s.react c t = (.singleQuote, false) by simp [react, hstate, State.closer, hc])
    have hskip := Skips.of_nextStep hstep (by simp [Step.isMarker, hstate])
    obtain ⟨region, s', hskips, h⟩ := ih hrec (s := ⟨t, .singleQuote, some c, s.prev1⟩) rfl rfl
    exact ⟨_, s', hskip.trans hskips, h⟩

theorem quiet_hexDigit (n : ℕ) : Quiet (hexDigit n) := by
  have hmem : hexDigit n ∈ "0123456789ABCDEF".toList := by
    unfold hexDigit
    rw [getD_eq_getElem?_getD]
    cases h : ("0123456789ABCDEF".toList)[n]? with
    | none => decide
    | some c => exact mem_of_getElem? h
  exact quiet_of_forall (p := (· ∈ "0123456789ABCDEF".toList)) (by decide) hmem

theorem translateEncrypt_spec {remainder text : List Char}
    (h : translateEncrypt remainder = .ok text) :
    executableMarkerCount remainder = 0 ∧ ∀ c ∈ text, Quiet c := by
  obtain ⟨rest, hn, h⟩ := orFail_bind h
  obtain ⟨rest', hquote, h⟩ := orFail_bind h
  rw [stripPrefixChar_eq_some] at hquote
  obtain ⟨⟨literal, behind⟩, hliteral, h⟩ := orFail_bind h
  dsimp only at h
  split at h
  · cases h
  · next hblank =>
    cases h
    refine ⟨?_, ?_⟩
    · obtain ⟨n, hnq, hn'⟩ : ∃ n, Quiet n ∧ trimStart remainder = n :: rest := by
        cases hupper : stripPrefixChar 'N' (trimStart remainder) with
        | some r =>
          rw [hupper] at hn
          cases hn
          exact ⟨'N', quiet_of_not_mem (by decide), stripPrefixChar_eq_some.mp hupper⟩
        | none =>
          rw [hupper] at hn
          exact ⟨'n', quiet_of_not_mem (by decide), stripPrefixChar_eq_some.mp hn⟩
      obtain ⟨w, hremainder, hw⟩ := trimStart_append remainder
      have hcount := (@scan_quiet_append (trimStart remainder) w
        fun c hc => quiet_of_whitespace (hw c hc)).2.2
      rw [← hremainder, hn', executableMarkerCount_cons hnq.1 hnq.2, hquote] at hcount
      rw [hcount, executableMarkerCount, scan]
      -- the literal, and whitespace behind it
      have hstep := @nextStep_single (CodeScan.new ('\'' :: rest')) '\'' rest' .singleQuote rfl
        (by simp [react, CodeScan.new])
      have hopen := Skips.of_nextStep hstep (by simp [Step.isMarker])
      obtain ⟨region, s', hskips, hrest, hstate, hprev⟩ := takeLiteral_skips hliteral
        (s := ⟨rest', .singleQuote, some '\'', none⟩) rfl rfl
      rw [(hopen.trans hskips).countP]
      have hscan : s'.steps = scan behind := steps_congr hrest hstate
        ((neutral_of_prev1 hprev (by decide) (by decide)).sameLook (neutral_new behind))
      rw [hscan]
      refine (@quiet_text behind fun c hc => ?_).2
      simp only [any_eq_true, Bool.not_eq_true', not_exists, not_and,
        Bool.not_eq_false] at hblank
      exact quiet_of_whitespace (hblank c hc)
    · intro c hc
      rcases mem_cons.mp hc with rfl | hc
      · exact quiet_of_not_mem (by decide)
      rcases mem_cons.mp hc with rfl | hc
      · exact quiet_of_not_mem (by decide)
      obtain ⟨b, -, hb⟩ := mem_flatMap.mp hc
      simp only [hexByte, mem_cons, not_mem_nil, or_false] at hb
      rcases hb with rfl | rfl <;> exact quiet_hexDigit _

/-! ### Interval: no marker is accepted -/

section

variable {u : CharTables} {t : List Char}

theorem not_mem_of_trimStart (h : '?' ∉ trimStart t) : '?' ∉ t := by
  obtain ⟨w, ht, hw⟩ := trimStart_append t
  rw [ht, mem_append, not_or]
  exact ⟨fun hmem => ne_marker_of_whitespace (hw _ hmem) rfl, h⟩

theorem not_mem_of_trim (h : '?' ∉ trim t) : '?' ∉ t := by
  intro hmem
  rcases mem_trim hmem with hspace | hmem
  · exact ne_marker_of_whitespace hspace rfl
  · exact h hmem

theorem splitOnce_eq_some {d : Char} {a b : List Char} (h : splitOnce d t = some (a, b)) :
    t = a ++ d :: b ∧ d ∉ a := by
  unfold splitOnce at h
  split at h
  · next c rest hdrop =>
    cases h
    have hc : c = d := by
      have := List.head?_dropWhile_not (fun x => decide (x ≠ d)) t
      rw [hdrop] at this
      simpa using this
    have happend := @takeWhile_append_dropWhile _ (fun x => decide (x ≠ d)) t
    rw [hdrop, hc] at happend
    refine ⟨happend.symm, ?_⟩
    intro hmem
    simpa using mem_takeWhile_imp hmem
  · cases h

theorem alphanumeric_ne_marker {c : Char} (h : u.isAlphanumeric c = true) : c ≠ '?' := by
  rintro rfl
  rw [CharTables.isAlphanumeric, u.isAlphabetic_ascii _ (by decide),
    u.isNumeric_ascii _ (by decide)] at h
  revert h
  decide

theorem takeWord_noMarker {word rest : List Char} (h : takeWord u t = some (word, rest))
    (hrest : '?' ∉ rest) : '?' ∉ t := by
  simp only [takeWord] at h
  split at h
  · cases h
  · cases h
    refine not_mem_of_trimStart ?_
    rw [← @takeWhile_append_dropWhile _ u.isAlphanumeric (trimStart t), mem_append,
      not_or]
    exact ⟨fun hmem => alphanumeric_ne_marker (mem_takeWhile_imp hmem) rfl, hrest⟩

theorem not_mem_of_isDigit (h : ∀ c ∈ t, c.isDigit = true) : '?' ∉ t :=
  fun hmem => absurd (h _ hmem) (by decide)

theorem not_mem_of_stripPrefixChar {c : Char} (hc : c ≠ '?')
    (h : '?' ∉ (stripPrefixChar c t).getD t) : '?' ∉ t := by
  cases hstrip : stripPrefixChar c t with
  | none => rwa [hstrip] at h
  | some r =>
    rw [hstrip] at h
    rw [stripPrefixChar_eq_some.mp hstrip, mem_cons, not_or]
    exact ⟨hc.symm, h⟩

theorem parseUnsigned_noMarker {bits n : ℕ} (h : parseUnsigned bits t = some n) : '?' ∉ t := by
  simp only [parseUnsigned] at h
  split at h
  · cases h
  · next hok =>
    simp only [not_or, any_eq_true, Bool.not_eq_true', not_exists, not_and,
      Bool.not_eq_false] at hok
    exact not_mem_of_stripPrefixChar (by decide) (not_mem_of_isDigit hok.2.1)

theorem not_mem_of_splitOn {d : Char} (hd : d ≠ '?') (h : ∀ f ∈ t.splitOn d, '?' ∉ f) :
    '?' ∉ t := by
  intro hmem
  rw [← @intercalate_splitOn _ t _ _ d] at hmem
  generalize t.splitOn d = fields at h hmem
  induction fields with
  | nil => simp at hmem
  | cons f fields ih =>
    cases fields with
    | nil => exact h f mem_cons_self (by simpa using hmem)
    | cons g fields =>
      rw [intercalate_cons_cons, mem_append, mem_append, mem_singleton] at hmem
      rcases hmem with (hmem | hmem) | hmem
      · exact h f mem_cons_self hmem
      · exact hd hmem.symm
      · exact ih (fun f' hf => h f' (mem_cons_of_mem f hf)) hmem

theorem parsePrecision_noMarker {precision scale : ℕ} {rest : List Char}
    (h : parsePrecision t = some (precision, scale, rest)) (hrest : '?' ∉ rest) : '?' ∉ t := by
  unfold parsePrecision at h
  split at h
  · cases h
    exact hrest
  · next inner hinner =>
    rw [stripPrefixChar_eq_some.mp hinner]
    obtain ⟨⟨spec, remainder⟩, hsplit, hspecs⟩ := Option.bind_eq_some_iff.mp h
    clear h
    obtain ⟨rfl, -⟩ := splitOnce_eq_some hsplit
    have hparts (hspec : '?' ∉ spec) (hremainder : '?' ∉ remainder) :
        '?' ∉ '(' :: (spec ++ ')' :: remainder) := by simp [hspec, hremainder]
    dsimp only at hspecs
    split at hspecs
    · next precision' hspec =>
      obtain ⟨n, hn, heq⟩ := Option.bind_eq_some_iff.mp hspecs
      cases heq
      refine hparts (not_mem_of_splitOn (d := ',') (by decide) ?_) (not_mem_of_trimStart hrest)
      rw [hspec]
      simpa using not_mem_of_trim (parseUnsigned_noMarker hn)
    · next precision' scale' hspec =>
      obtain ⟨n, hn, hscale⟩ := Option.bind_eq_some_iff.mp hspecs
      obtain ⟨m, hm, heq⟩ := Option.bind_eq_some_iff.mp hscale
      cases heq
      refine hparts (not_mem_of_splitOn (d := ',') (by decide) ?_) (not_mem_of_trimStart hrest)
      rw [hspec]
      simpa using ⟨not_mem_of_trim (parseUnsigned_noMarker hn),
        not_mem_of_trim (parseUnsigned_noMarker hm)⟩
    · cases hspecs

theorem parseScale_noMarker {scale scale' : ℕ} {trailing : IntervalField} {rest : List Char}
    (h : parseScale scale trailing t = some (scale', rest)) (hrest : '?' ∉ rest) : '?' ∉ t := by
  unfold parseScale at h
  split at h
  · next inner hinner =>
    rw [stripPrefixChar_eq_some.mp hinner]
    obtain ⟨⟨spec, remainder⟩, hsplit, hspecs⟩ := Option.bind_eq_some_iff.mp h
    clear h
    obtain ⟨rfl, -⟩ := splitOnce_eq_some hsplit
    obtain ⟨n, hn, heq⟩ := Option.bind_eq_some_iff.mp hspecs
    cases heq
    have hspec := not_mem_of_trim (parseUnsigned_noMarker hn)
    simp [hspec, not_mem_of_trimStart hrest]
  · cases h
    exact hrest

theorem parseIntervalQualifier_noMarker {q : IntervalQualifier}
    (h : parseIntervalQualifier u t = some q) : '?' ∉ t := by
  obtain ⟨⟨word, rest⟩, hword, h⟩ := Option.bind_eq_some_iff.mp h
  obtain ⟨leading, -, h⟩ := Option.bind_eq_some_iff.mp h
  obtain ⟨⟨precision, scale, rest₁⟩, hprecision, h⟩ := Option.bind_eq_some_iff.mp h
  refine not_mem_of_trim (takeWord_noMarker hword (not_mem_of_trimStart
    (parsePrecision_noMarker hprecision ?_)))
  dsimp only at h
  split at h
  · next hnil => simp [hnil]
  · obtain ⟨⟨toWord, rest₂⟩, hto, h⟩ := Option.bind_eq_some_iff.mp h
    refine takeWord_noMarker hto ?_
    split at h
    · cases h
    · obtain ⟨⟨trailingWord, rest₃⟩, htrailing, h⟩ := Option.bind_eq_some_iff.mp h
      obtain ⟨trailing, -, h⟩ := Option.bind_eq_some_iff.mp h
      obtain ⟨⟨scale', rest₄⟩, hscale, h⟩ := Option.bind_eq_some_iff.mp h
      refine not_mem_of_trimStart (takeWord_noMarker htrailing (not_mem_of_trimStart
        (parseScale_noMarker hscale ?_)))
      dsimp only at h
      split at h
      · cases h
      · next hnil => simp [not_not.mp hnil]

variable {trailing : Option IntervalField} {leading : IntervalField}

theorem intervalFields_noMarker
    {fields : List (List Char)} (h : intervalFields leading trailing t = some fields)
    (hfields : ∀ f ∈ fields, '?' ∉ f) : '?' ∉ t := by
  have hone {d : Char} (hd : d ≠ '?') (h : some (t.splitOn d) = some fields) : '?' ∉ t := by
    cases h
    exact not_mem_of_splitOn hd hfields
  have hday (h : (splitOnce ' ' t >>= fun p => pure (p.1 :: p.2.splitOn ':')) = some fields) :
      '?' ∉ t := by
    obtain ⟨⟨day, time⟩, hsplit, heq⟩ := Option.bind_eq_some_iff.mp h
    cases heq
    rw [(splitOnce_eq_some hsplit).1, mem_append, mem_cons, not_or, not_or]
    exact ⟨hfields day mem_cons_self, by decide,
      not_mem_of_splitOn (by decide) fun f hf => hfields f (mem_cons_of_mem day hf)⟩
  unfold intervalFields at h
  split at h
  · cases h
    exact hfields t mem_cons_self
  · exact hone (by decide) h
  · exact hone (by decide) h
  · exact hday h
  · exact hday h
  · exact hone (by decide) h
  · exact hone (by decide) h
  · exact hone (by decide) h
  · cases h

theorem parseFraction_noMarker
    {f : List Char} {n : ℕ} (h : parseFraction leading trailing (some f) = some n) : '?' ∉ f := by
  simp only [parseFraction] at h
  split at h
  · cases h
  · obtain ⟨digits, hdigits, -⟩ := Option.map_eq_some_iff.mp h
    exact parseUnsigned_noMarker hdigits

theorem parseIntervalValue_noMarker
    {parts : IntervalParts} (h : parseIntervalValue t leading trailing = some parts) :
    '?' ∉ t := by
  -- the fields are numbers, and so is the fraction
  have hwhole {value : List Char} {fraction : ℕ}
      (h : (intervalFields leading trailing value >>= fun fields =>
        if fields.length ≠ expectedFields leading trailing ∨ fields.any (!isNumber ·) then none
        else fields.mapM (parseUnsigned 64) >>= fun nums =>
          intervalParts leading trailing fraction nums) = some parts) : '?' ∉ value := by
    obtain ⟨fields, hfields, hparts⟩ := Option.bind_eq_some_iff.mp h
    refine intervalFields_noMarker hfields fun f hf => ?_
    split at hparts
    · cases hparts
    · next hok =>
      simp only [not_or, any_eq_true, Bool.not_eq_true', not_exists, not_and,
        Bool.not_eq_false, isNumber, Bool.and_eq_true, all_eq_true] at hok
      exact not_mem_of_isDigit (hok.2 f hf).2
  unfold parseIntervalValue at h
  cases hpoint : splitOnce '.' t with
  | none =>
    rw [hpoint] at h
    obtain ⟨fraction, -, hrest⟩ := Option.bind_eq_some_iff.mp h
    exact hwhole hrest
  | some split =>
    obtain ⟨value, f⟩ := split
    rw [hpoint] at h
    obtain ⟨fraction, hfraction, hrest⟩ := Option.bind_eq_some_iff.mp h
    rw [(splitOnce_eq_some hpoint).1, mem_append, mem_cons, not_or, not_or]
    exact ⟨hwhole hrest, by decide, parseFraction_noMarker hfraction⟩

/-! ### Interval: the literal -/

/-- Text that neither ends a literal nor is a marker. -/
def Inside (t : List Char) : Prop := ∀ c ∈ t, c ≠ '\'' ∧ c ≠ '?'

@[simp] theorem inside_nil : Inside [] := by simp [Inside]

@[simp] theorem inside_append {a b : List Char} : Inside (a ++ b) ↔ Inside a ∧ Inside b :=
  forall_mem_append

@[simp] theorem inside_cons {c : Char} {a : List Char} :
    Inside (c :: a) ↔ (c ≠ '\'' ∧ c ≠ '?') ∧ Inside a := forall_mem_cons

@[simp] theorem inside_toDigits (n : ℕ) : Inside (Nat.toDigits 10 n) := by
  intro c hc
  have hdigit : c.isDigit = true := Nat.isDigit_of_mem_toDigits (by decide) (by decide) hc
  constructor <;> rintro rfl <;> revert hdigit <;> decide

@[simp] theorem inside_padded (width n : ℕ) : Inside (padded width n) := by
  rw [padded, List.leftpad, inside_append]
  refine ⟨fun c hc => ?_, by simp⟩
  rw [eq_of_mem_replicate hc]
  decide

@[simp] theorem inside_name (f : IntervalField) : Inside f.name := by
  intro c hc
  constructor <;> rintro rfl <;> revert hc <;> cases f <;> decide

theorem inside_intervalValueText {q : IntervalQualifier} {parts : IntervalParts}
    {fraction text : List Char} (hfraction : Inside fraction)
    (h : intervalValueText q parts fraction = some text) : Inside text := by
  unfold intervalValueText at h
  split at h <;> cases h <;> simp [hfraction]

theorem inside_intervalQualifierText (q : IntervalQualifier) :
    Inside (intervalQualifierText q) := by
  unfold intervalQualifierText
  split <;> simp

/-- A piece of a literal in front of a doubled quote. -/
theorem scans_piece {a rest : List Char} (ha : Inside a)
    (hrest : s.rest = a ++ '\'' :: '\'' :: rest) (hstate : s.state = .singleQuote) :
    ∃ sts s', Scans s sts s' ∧ s'.rest = rest ∧ s'.state = .singleQuote := by
  obtain ⟨sts, s₁, hscans, hrest₁, hstate₁, -⟩ := scans_plain hrest
    (fun c hc => by rw [hstate]; exact (ha c hc).1) (by simp [hstate])
  rw [hstate] at hstate₁
  have hstep := nextStep_double hrest₁
    (show s₁.react '\'' ('\'' :: rest) = (.singleQuote, true) by
      simp [react, hstate₁, State.closer])
  exact ⟨_, _, hscans.trans (.cons hstep (.refl _)), rfl, rfl⟩

/-- The last piece of a literal. -/
theorem endsNormal_piece {a : List Char} (ha : Inside a)
    (hrest : s.rest = a ++ ['\'']) (hstate : s.state = .singleQuote) : EndsNormal s := by
  obtain ⟨sts, s₁, hscans, hrest₁, hstate₁, -⟩ := scans_plain hrest
    (fun c hc => by rw [hstate]; exact (ha c hc).1) (by simp [hstate])
  rw [hstate] at hstate₁
  have hstep := nextStep_single hrest₁
    (show s₁.react '\'' [] = (.normal, false) by simp [react, hstate₁, State.closer])
  rw [EndsNormal.of_scans (hscans.trans (.cons hstep (.refl _)))]
  exact ⟨_, by rw [steps_of_rest_nil rfl]; exact .refl _, rfl, rfl⟩

/-- The literal of an interval, which has two doubled quotes in it. -/
theorem intervalLiteral_spec {sign : Char} {text qualifier : List Char}
    (hsign : sign ≠ '\'' ∧ sign ≠ '?') (htext : Inside text) (hqualifier : Inside qualifier) :
    Closed ("'INTERVAL ".toList ++ sign :: "''".toList ++ text ++ "'' ".toList ++ qualifier ++
      "'".toList) ∧
    executableMarkerCount ("'INTERVAL ".toList ++ sign :: "''".toList ++ text ++ "'' ".toList ++
      qualifier ++ "'".toList) = 0 := by
  refine ⟨?_, executableMarkerCount_eq_zero ?_⟩
  · let tail := text ++ '\'' :: '\'' :: (' ' :: qualifier ++ ['\''])
    have hopen := @nextStep_single (CodeScan.new ('\'' :: ("INTERVAL ".toList ++ [sign] ++
      '\'' :: '\'' :: tail))) '\'' _ .singleQuote rfl (by simp [react, CodeScan.new])
    have hfirst : Inside ("INTERVAL ".toList ++ [sign]) := by simp [hsign]
    obtain ⟨sts, s₁, hscans, hrest, hstate⟩ := @scans_piece ⟨"INTERVAL ".toList ++ [sign] ++
      '\'' :: '\'' :: tail, .singleQuote, some '\'', none⟩ _ tail hfirst rfl rfl
    obtain ⟨sts', s₂, hscans', hrest', hstate'⟩ := scans_piece htext hrest hstate
    have hends := endsNormal_piece (inside_cons.mpr ⟨by decide, hqualifier⟩) hrest' hstate'
    have hclosed := (EndsNormal.of_scans (.cons hopen (hscans.trans hscans'))).mpr hends
    simpa [Closed, tail] using hclosed
  · have htext' : '?' ∉ text := fun h => (htext _ h).2 rfl
    have hqualifier' : '?' ∉ qualifier := fun h => (hqualifier _ h).2 rfl
    simp [htext', hqualifier', Ne.symm hsign.2]

theorem translateInterval_spec {body text : List Char} (h : translateInterval u body = .ok text) :
    executableMarkerCount body = 0 ∧ Closed text ∧ executableMarkerCount text = 0 := by
  obtain ⟨rest, hword, h₁⟩ := orFail_bind h
  obtain ⟨quoted, hquote, h₂⟩ := orFail_bind h₁
  rw [stripPrefixChar_eq_some] at hquote
  obtain ⟨⟨value, behind⟩, hvalue, h₃⟩ := orFail_bind h₂
  obtain ⟨q, hqualifier, h₄⟩ := orFail_bind h₃
  clear h h₁ h₂ h₃
  split at h₄
  · cases h₄
  obtain ⟨parts, hparts, h₅⟩ := orFail_bind h₄
  clear h₄
  split at h₅
  · cases h₅
  split at h₅
  · cases h₅
  split at h₅
  · cases h₅
  split at h₅
  · cases h₅
  obtain ⟨valueText, htext, h₆⟩ := orFail_bind h₅
  cases h₆
  clear h₅
  refine ⟨executableMarkerCount_eq_zero ?_, ?_⟩
  · -- from the back: qualifier, value, quote, sign, keyword
    have hquoted : '?' ∉ quoted := by
      rw [(splitOnce_eq_some hvalue).1, mem_append, mem_cons, not_or, not_or]
      exact ⟨not_mem_of_trim (parseIntervalValue_noMarker hparts), by decide,
        parseIntervalQualifier_noMarker hqualifier⟩
    have hunsigned {r : List Char} (h : trimStart r = '\'' :: quoted) : '?' ∉ r := by
      refine not_mem_of_trimStart ?_
      rw [h, mem_cons, not_or]
      exact ⟨by decide, hquoted⟩
    have hrest : '?' ∉ rest := by
      refine not_mem_of_trimStart ?_
      split at hquote
      · next r hminus =>
        rw [stripPrefixChar_eq_some.mp hminus, mem_cons, not_or]
        exact ⟨by decide, hunsigned hquote⟩
      · exact not_mem_of_stripPrefixChar (by decide) (hunsigned hquote)
    split at hword
    · next hinterval =>
      cases hword
      refine not_mem_of_trimStart ?_
      rw [← take_append_drop 8 (trimStart body), mem_append, not_or]
      exact ⟨fun hmem => (quiet_of_keyword hinterval (by decide) _ hmem).2 rfl, hrest⟩
    · cases hword
  · refine intervalLiteral_spec ?_ (inside_intervalValueText ?_ htext)
      (inside_intervalQualifierText q)
    · split <;> simp
    · split
      · exact inside_nil
      · intro c hc
        exact inside_cons.mpr ⟨by decide, inside_padded 9 parts.fraction⟩ c (mem_of_mem_take hc)

end

end MssqlTds.Odbc
