import MssqlTds.Odbc.ScanSegments

/-!
# The parts of an escape

What the scanner makes of the pieces that the translation cuts a statement into: the text before
and behind an escape, its body, the remainder behind the tag, and the literals that replace
`{encrypt …}` and `{interval …}`.
-/

namespace MssqlTds.Odbc

open CodeScan List

variable {sts : List Step} {sql acc before body after tag remainder : List Char} {kind : EscapeKind}

/-! ### Escapes -/

/-- The deepest level of braces along some steps. -/
def deepest : List Step → ℕ → ℕ
  | [], depth => depth
  | step :: sts, depth =>
    if step.code ∧ step.ch = '\x7b' then deepest sts (depth + 1)
    else if step.code ∧ step.ch = '\x7d' then max depth (deepest sts (depth - 1))
    else deepest sts depth

/-- The body of an escape ends at the brace that closes it, and its levels count from there. -/
theorem closeEscape_spec {depth : ℕ} (h : closeEscape sts depth acc = some (body, after)) :
    ∃ l₁ step l₂, sts = l₁ ++ step :: l₂ ∧ step.code = true ∧ step.ch = '\x7d' ∧
      body = acc ++ textOf l₁ ∧ after = textOf l₂ ∧
      ∀ k, deepest l₁ (depth + k) = deepest l₁ depth + k := by
  induction sts generalizing depth acc with
  | nil => cases h
  | cons step sts ih =>
    rw [closeEscape] at h
    split at h
    · next hopen =>
      obtain ⟨l₁, st, l₂, rfl, hcode, hch, hbody, hafter, hdeep⟩ := ih h
      refine ⟨step :: l₁, st, l₂, rfl, hcode, hch, by simp [hbody], hafter, fun k => ?_⟩
      rw [deepest, deepest, if_pos hopen, if_pos hopen, ← hdeep, Nat.add_right_comm]
    · next hopen =>
      split at h
      · next hclose =>
        split at h
        · cases h
          exact ⟨[], step, sts, rfl, hclose.1, hclose.2, by simp, rfl, fun _ => rfl⟩
        · next hdepth =>
          obtain ⟨l₁, st, l₂, rfl, hcode, hch, hbody, hafter, hdeep⟩ := ih h
          refine ⟨step :: l₁, st, l₂, rfl, hcode, hch, by simp [hbody], hafter, fun k => ?_⟩
          have hshift : depth + k - 1 = depth - 1 + k := by omega
          rw [deepest, deepest, if_neg hopen, if_neg hopen, if_pos hclose, if_pos hclose, hshift,
            hdeep]
          omega
      · next hclose =>
        obtain ⟨l₁, st, l₂, rfl, hcode, hch, hbody, hafter, hdeep⟩ := ih h
        refine ⟨step :: l₁, st, l₂, rfl, hcode, hch, by simp [hbody], hafter, fun k => ?_⟩
        rw [deepest, deepest, if_neg hopen, if_neg hopen, if_neg hclose, if_neg hclose, hdeep]

theorem openEscape_spec (h : openEscape sts acc = some (before, body, after)) :
    ∃ l₁ step l₂, sts = l₁ ++ step :: l₂ ∧ step.code = true ∧ step.ch = '\x7b' ∧
      before = acc ++ textOf l₁ ∧ closeEscape l₂ 0 [] = some (body, after) := by
  induction sts generalizing acc with
  | nil => cases h
  | cons step sts ih =>
    rw [openEscape] at h
    split at h
    · next hopen =>
      obtain ⟨⟨body', after'⟩, hclose, heq⟩ := Option.map_eq_some_iff.mp h
      cases heq
      exact ⟨[], step, sts, rfl, hopen.1, hopen.2, by simp, hclose⟩
    · obtain ⟨l₁, st, l₂, rfl, hcode, hch, hbefore, hclose⟩ := ih h
      exact ⟨step :: l₁, st, l₂, rfl, hcode, hch, by simp [hbefore], hclose⟩

/-- An escape splits a text into closed parts, which are scanned as they are in the text. -/
theorem findEscape_scan (h : findEscape sql = some (before, body, after)) :
    sql = before ++ '\x7b' :: (body ++ '\x7d' :: after) ∧ Closed before ∧ Closed body ∧
      scan sql = scan before ++ codeStep '\x7b' :: (scan body ++ codeStep '\x7d' :: scan after) ∧
      ∀ k, deepest (scan body) k = deepest (scan body) 0 + k := by
  obtain ⟨l₁, open', l₂, hscan, hcode, hch, rfl, hclose⟩ := openEscape_spec h
  have hsep : Separator open'.ch := hch ▸ separator_of_mem (by simp)
  obtain ⟨hsql, hopen, hbefore, hscan₁, hrest⟩ := scan_cut_sep hscan hcode hsep
  obtain ⟨l₃, close, l₄, rfl, hcode', hch', rfl, rfl, hdeep⟩ := closeEscape_spec hclose
  have hsep' : Separator close.ch := hch' ▸ separator_of_mem (by simp)
  obtain ⟨hrestText, hclose', hbody, hscan₃, hscan₄⟩ := scan_cut_sep hrest hcode' hsep'
  rw [hch'] at hrestText hclose'
  rw [hch, hrestText] at hsql
  rw [hch] at hopen
  refine ⟨hsql, hbefore, hbody, ?_, ?_⟩
  · rw [nil_append, nil_append, hscan₁, hscan₃, hscan₄, hscan, ← hopen, ← hclose']
  · rw [nil_append, hscan₃]
    simpa using hdeep

theorem findEscape_spec (h : findEscape sql = some (before, body, after)) :
    sql = before ++ '\x7b' :: (body ++ '\x7d' :: after) ∧ Closed before ∧ Closed body :=
  ⟨(findEscape_scan h).1, (findEscape_scan h).2.1, (findEscape_scan h).2.2.1⟩

theorem length_lt_of_findEscape (h : findEscape sql = some (before, body, after)) :
    body.length < sql.length ∧ after.length < sql.length := by
  rw [(findEscape_spec h).1]
  simp only [length_append, length_cons]
  omega

/-! ### Tags -/

/-- The characters that may change how the text behind them is scanned. -/
def loudChars : List Char := ['\'', '"', '[', '-', '/', '*', ')', '?']

theorem quiet_of_not_mem {c : Char} (h : c ∉ loudChars) : Quiet c := by
  simp only [loudChars, mem_cons, not_mem_nil, or_false, not_or] at h
  obtain ⟨h₁, h₂, h₃, h₄, h₅, h₆, h₇, h₈⟩ := h
  exact ⟨⟨by simp [Plain, h₁, h₂, h₃, h₄, h₅], h₆, h₇⟩, h₈⟩

theorem quiet_of_forall {p : Char → Prop} [DecidablePred p]
    (hloud : (loudChars.all fun d => ¬ p d) = true) {c : Char} (h : p c) : Quiet c :=
  quiet_of_not_mem fun hmem => forall_mem_of_all hloud c hmem h

/-- A word that is a keyword up to case has letters only. -/
theorem quiet_of_keyword {word : List Char} (h : eqIgnoreAsciiCase tag word = true)
    (hword : (loudChars.all fun d => d ∉ word.map Char.toLower) = true) : ∀ c ∈ tag, Quiet c := by
  intro c hc
  refine quiet_of_not_mem fun hmem => forall_mem_of_all hword c hmem ?_
  have hlower : c.toLower = c :=
    forall_mem_of_all (p := fun d => d.toLower = d) (by decide) c hmem
  rw [← of_decide_eq_true h]
  exact mem_map.mpr ⟨c, hc, hlower⟩

theorem splitTag_spec (h : splitTag body = some (tag, remainder)) :
    ∃ w, body = w ++ (tag ++ remainder) ∧ ∀ c ∈ w, isWhitespace c = true := by
  obtain ⟨w, hbody, hw⟩ := trimStart_append body
  simp only [splitTag] at h
  split at h
  · cases h
  · cases h
    exact ⟨w, by rw [takeWhile_append_dropWhile]; exact hbody, hw⟩

/-- The body of an escape scans as the remainder behind its tag, which may have a marker in front
of it. -/
structure Tagged (body remainder : List Char) (markers : ℕ) : Prop where
  closed : Closed body ↔ Closed remainder
  count : executableMarkerCount body = markers + executableMarkerCount remainder

theorem quiet_of_tagKind (h : tagKind tag = some kind) :
    ∀ c ∈ tag, Quiet c := by
  unfold tagKind at h
  split_ifs at h with hdate hfn hjoin hcall hguid hescape hencrypt hinterval
  · exact hdate.elim (quiet_of_keyword · (by decide)) (quiet_of_keyword · (by decide))
  · exact quiet_of_keyword hfn (by decide)
  · exact hjoin.elim (quiet_of_keyword · (by decide)) (quiet_of_keyword · (by decide))
  · exact quiet_of_keyword hcall (by decide)
  · exact quiet_of_keyword hguid (by decide)
  · exact quiet_of_keyword hescape (by decide)
  · exact quiet_of_keyword hencrypt (by decide)
  · exact quiet_of_keyword hinterval (by decide)

theorem stripPrefixChar_eq_some {c : Char} {t r : List Char} :
    stripPrefixChar c t = some r ↔ t = c :: r := by
  cases t with
  | nil => simp [stripPrefixChar]
  | cons d t =>
    rw [stripPrefixChar]
    split
    · next h => simp [h]
    · next h => simp [h]

theorem orFail_bind {α β : Type} {e : EscapeFailure} {o : Option α} {f : α → EscapeResult β} {b : β}
    (h : (orFail (.error e) o >>= f) = .ok b) : ∃ a, o = some a ∧ f a = .ok b := by
  cases o with
  | none => cases h
  | some a => exact ⟨a, rfl, h⟩

theorem inert_marker : Inert '?' := ⟨by simp [Plain], by decide, by decide⟩

/-- A marker in front of a text. -/
theorem marker_cons {t : List Char} :
    (Closed ('?' :: t) ↔ Closed t) ∧
      executableMarkerCount ('?' :: t) = 1 + executableMarkerCount t :=
  (@scan_inert_append t ['?'] (by simp [inert_marker])).2

/-- The two forms of an escape: a marker for the return status in front of the tag, or none. -/
theorem classify_cases (h : classify body = .ok (kind, remainder)) :
    (kind = .call true ∧ ∃ rest rest' tag, trimStart body = '?' :: rest ∧
      trimStart rest = '=' :: rest' ∧ splitTag (trimStart rest') = some (tag, remainder) ∧
      eqIgnoreAsciiCase tag "call".toList = true) ∨
    (kind ≠ .call true ∧
      ∃ tag, splitTag body = some (tag, remainder) ∧ tagKind tag = some kind) := by
  unfold classify at h
  split at h
  · next rest hmark =>
    rw [stripPrefixChar_eq_some] at hmark
    obtain ⟨rest', hequals, h₁⟩ := orFail_bind h
    rw [stripPrefixChar_eq_some] at hequals
    obtain ⟨⟨tag, remainder'⟩, htag, h₂⟩ := orFail_bind h₁
    dsimp only at h₂
    split at h₂
    · cases h₂
    · next hcall =>
      cases h₂
      exact .inl ⟨rfl, rest, rest', tag, hmark, hequals, htag, by simpa using hcall⟩
  · obtain ⟨⟨tag, remainder'⟩, htag, h₁⟩ := orFail_bind h
    obtain ⟨kind', hkind, h₂⟩ := orFail_bind h₁
    cases h₂
    refine .inr ⟨?_, tag, htag, hkind⟩
    rintro rfl
    unfold tagKind at hkind
    split_ifs at hkind <;> simp at hkind

/-- In front of the remainder there is only what does not change how it is scanned. -/
theorem classify_prefix (h : classify body = .ok (kind, remainder)) :
    ∃ w, body = w ++ remainder ∧ (∀ c ∈ w, Inert c) ∧
      w.count '?' = if kind = .call true then 1 else 0 := by
  have hquiet {w : List Char} (hw : ∀ c ∈ w, Quiet c) :
      (∀ c ∈ w, Inert c) ∧ w.count '?' = 0 :=
    ⟨fun c hc => (hw c hc).1, count_eq_zero.mpr fun hc => (hw '?' hc).2 rfl⟩
  have hword {t tag : List Char} (h : splitTag t = some (tag, remainder))
      (htag : ∀ c ∈ tag, Quiet c) : ∃ w, t = w ++ remainder ∧ ∀ c ∈ w, Quiet c := by
    obtain ⟨w, rfl, hw⟩ := splitTag_spec h
    refine ⟨w ++ tag, (append_assoc ..).symm, fun c hc => ?_⟩
    rcases mem_append.mp hc with hc | hc
    · exact quiet_of_whitespace (hw c hc)
    · exact htag c hc
  rcases classify_cases h with ⟨rfl, rest, rest', tag, hmark, hequals, hsplit, hcall⟩ |
    ⟨hkind, tag, hsplit, hkeyword⟩
  · obtain ⟨w, hbody, hw⟩ := trimStart_append body
    obtain ⟨w₁, hrest, hw₁⟩ := trimStart_append rest
    obtain ⟨w₂, hrest', hw₂⟩ := trimStart_append rest'
    obtain ⟨w₃, htag, hw₃⟩ := hword hsplit (quiet_of_keyword hcall (by decide))
    obtain ⟨hinert, hzero⟩ := hquiet fun c hc => quiet_of_whitespace (hw c hc)
    obtain ⟨hinert', hzero'⟩ : (∀ c ∈ w₁ ++ '=' :: (w₂ ++ w₃), Inert c) ∧
        (w₁ ++ '=' :: (w₂ ++ w₃)).count '?' = 0 := by
      refine hquiet fun c hc => ?_
      simp only [mem_append, mem_cons] at hc
      rcases hc with hc | rfl | hc | hc
      · exact quiet_of_whitespace (hw₁ c hc)
      · exact quiet_of_not_mem (by decide)
      · exact quiet_of_whitespace (hw₂ c hc)
      · exact hw₃ c hc
    refine ⟨w ++ '?' :: (w₁ ++ '=' :: (w₂ ++ w₃)), ?_, ?_, ?_⟩
    · rw [hbody, hmark, hrest, hequals, hrest', htag]
      simp
    · intro c hc
      rcases mem_append.mp hc with hc | hc
      · exact hinert c hc
      · exact (mem_cons.mp hc).elim (fun heq => heq ▸ inert_marker) (hinert' c)
    · rw [count_append, count_cons_self, hzero, hzero', if_pos rfl]
  · rw [if_neg hkind]
    obtain ⟨w, rfl, hw⟩ := hword hsplit (quiet_of_tagKind hkeyword)
    exact ⟨w, rfl, hquiet hw⟩

theorem length_remainder_le (h : classify body = .ok (kind, remainder)) :
    remainder.length ≤ body.length := by
  obtain ⟨w, rfl, -⟩ := classify_prefix h
  rw [length_append]
  exact Nat.le_add_left _ _

theorem classify_spec (h : classify body = .ok (kind, remainder)) :
    Tagged body remainder (if kind = .call true then 1 else 0) := by
  obtain ⟨w, rfl, hw, hcount⟩ := classify_prefix h
  obtain ⟨-, hclosed, hmarkers⟩ := @scan_inert_append remainder w hw
  exact ⟨hclosed, hcount ▸ hmarkers⟩

end MssqlTds.Odbc
