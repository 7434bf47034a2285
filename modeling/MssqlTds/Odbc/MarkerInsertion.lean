import MssqlTds.Odbc.EscapeParts

/-!
# Inserting text behind markers

`insertOutputs` puts the `OUTPUT` clause behind some of the markers of a text.  A marker is a
separator, so a text falls apart at its markers (`marker_induction`), and the insertion changes
neither the steps in between nor the ends of the text.
-/

namespace MssqlTds.Odbc

open CodeScan List

/-- What follows an output argument. -/
def outputClause : List Char := " OUTPUT".toList

theorem outputClause_eq : outputClause = " OUTPUT".toList := by
  delta outputClause
  rfl

/-- Steps with the clause behind the markers for which it is requested. -/
def withOutputs : List Bool → List Step → List Step
  | _, [] => []
  | bs, step :: sts =>
    if step.isMarker then
      step :: ((if bs.headD false then outputClause.map codeStep else []) ++
        withOutputs bs.tail sts)
    else step :: withOutputs bs sts

/-- A text with the clause behind the markers for which it is requested. -/
def insertOutputs (bs : List Bool) (t : List Char) : List Char := textOf (withOutputs bs (scan t))

section

variable {a b t : List Char} {bs bs' : List Bool} {l l' : List Step} {c : Char}

/-! ### Markers as separators -/

theorem separator_marker : Separator '?' := ⟨inert_marker, by decide⟩

/-- A text has no marker, or falls apart at its first one. -/
theorem marker_induction {P : List Char → Prop} (none : ∀ t, executableMarkerCount t = 0 → P t)
    (marker : ∀ a b, Closed a → executableMarkerCount a = 0 → P b → P (a ++ '?' :: b))
    (t : List Char) : P t := by
  induction hlen : t.length using Nat.strongRecOn generalizing t with
  | ind n ih =>
    cases hfind : (scan t).find? Step.isMarker with
    | none =>
      refine none t (countP_eq_zero.mpr ?_)
      exact fun step hstep => by simpa using List.find?_eq_none.mp hfind step hstep
    | some step =>
      obtain ⟨hmarker, l₁, l₂, hscan, hfirst⟩ := List.find?_eq_some_iff_append.mp hfind
      simp only [Step.isMarker, Bool.and_eq_true, decide_eq_true_eq] at hmarker
      obtain ⟨hcode, hch⟩ := hmarker
      obtain ⟨ht, -, hclosed, hl₁, -⟩ := scan_cut_sep hscan hcode (hch ▸ separator_marker)
      rw [hch] at ht
      rw [ht]
      refine marker _ _ hclosed ?_ (ih _ ?_ _ rfl)
      · rw [executableMarkerCount, hl₁, countP_eq_zero]
        exact fun st hst => by simpa using hfirst st hst
      · rw [← hlen, ht, length_append, length_cons]
        omega

/-! ### Steps -/

theorem withOutputs_cons_marker {step : Step} (h : step.isMarker = true) :
    withOutputs bs (step :: l) = step ::
      ((if bs.headD false then outputClause.map codeStep else []) ++ withOutputs bs.tail l) := by
  rw [withOutputs, if_pos h]

theorem withOutputs_cons {step : Step} (h : ¬ step.isMarker = true) :
    withOutputs bs (step :: l) = step :: withOutputs bs l := by
  rw [withOutputs, if_neg h]

theorem withOutputs_append (bs : List Bool) (l l' : List Step) :
    withOutputs bs (l ++ l') =
      withOutputs bs l ++ withOutputs (bs.drop (l.countP Step.isMarker)) l' := by
  induction l generalizing bs with
  | nil => rfl
  | cons step l ih =>
    rw [cons_append, withOutputs, withOutputs]
    split
    · next hmarker =>
      rw [ih, countP_cons_of_pos hmarker, ← drop_one, drop_drop, cons_append,
        append_assoc, Nat.add_comm 1]
    · next hmarker => rw [ih, countP_cons_of_neg hmarker, cons_append]

theorem withOutputs_of_none (h : l.countP Step.isMarker = 0) : withOutputs bs l = l := by
  induction l with
  | nil => rfl
  | cons step l ih =>
    have hstep : ¬ step.isMarker = true := countP_eq_zero.mp h step mem_cons_self
    rw [countP_cons_of_neg hstep] at h
    rw [withOutputs, if_neg hstep, ih h]

/-- Only the requests for the markers at hand matter. -/
theorem withOutputs_take (h : bs.length = l.countP Step.isMarker) :
    withOutputs (bs ++ bs') l = withOutputs bs l := by
  induction l generalizing bs with
  | nil => rfl
  | cons step l ih =>
    rw [withOutputs, withOutputs]
    split
    · next hmarker =>
      rw [countP_cons_of_pos hmarker] at h
      obtain ⟨b, bs, rfl⟩ := exists_cons_of_length_eq_add_one h
      rw [cons_append, tail_cons, tail_cons, ih (Nat.succ.inj h), headD_cons,
        headD_cons]
    · next hmarker =>
      rw [countP_cons_of_neg hmarker] at h
      rw [ih h]

theorem withOutputs_replicate (n : ℕ) (l : List Step) :
    withOutputs (List.replicate n false) l = l := by
  induction l generalizing n with
  | nil => rfl
  | cons step l ih =>
    rw [withOutputs]
    split
    · cases n with
      | zero => exact congrArg (List.cons step) (ih 0)
      | succ n => exact congrArg (List.cons step) (ih n)
    · rw [ih]

/-! ### Texts -/

@[simp] theorem insertOutputs_nil (bs : List Bool) : insertOutputs bs [] = [] := rfl

theorem insertOutputs_of_none (h : executableMarkerCount t = 0) : insertOutputs bs t = t := by
  rw [insertOutputs, withOutputs_of_none h]
  exact textOf_steps (CodeScan.new t)

theorem insertOutputs_take (h : bs.length = executableMarkerCount t) :
    insertOutputs (bs ++ bs') t = insertOutputs bs t := by
  rw [insertOutputs, withOutputs_take h, insertOutputs]

theorem insertOutputs_replicate (n : ℕ) (t : List Char) :
    insertOutputs (List.replicate n false) t = t := by
  rw [insertOutputs, withOutputs_replicate]
  exact textOf_steps (CodeScan.new t)

theorem insertOutputs_append_sep (ha : Closed a) (hc : Separator c) (hmarker : c ≠ '?') :
    insertOutputs bs (a ++ c :: b) =
      insertOutputs bs a ++ c :: insertOutputs (bs.drop (executableMarkerCount a)) b := by
  rw [insertOutputs, (ha.append_sep hc).1, withOutputs_append, withOutputs,
    if_neg (by simp [codeStep, Step.isMarker, hmarker]), textOf_append, textOf_cons]
  rfl

theorem insertOutputs_cons (hc : Inert c) (hmarker : c ≠ '?') :
    insertOutputs bs (c :: a) = c :: insertOutputs bs a := by
  rw [insertOutputs, scan_cons hc, withOutputs,
    if_neg (by simp [codeStep, Step.isMarker, hmarker]), textOf_cons]
  rfl

theorem insertOutputs_quiet_append {w : List Char} (hw : ∀ c ∈ w, Quiet c) :
    insertOutputs bs (w ++ a) = w ++ insertOutputs bs a := by
  induction w with
  | nil => rfl
  | cons c w ih =>
    obtain ⟨hinert, hmarker⟩ := hw c mem_cons_self
    rw [cons_append, insertOutputs_cons hinert hmarker,
      ih fun d hd => hw d (mem_cons_of_mem c hd), cons_append]

theorem textOf_map_codeStep (w : List Char) : textOf (w.map codeStep) = w := by
  induction w with
  | nil => rfl
  | cons c w ih => simpa [codeStep] using ih

/-- The first marker of a text. -/
theorem insertOutputs_marker (ha : Closed a) (hcount : executableMarkerCount a = 0) :
    insertOutputs bs (a ++ '?' :: b) =
      a ++ '?' :: ((if bs.headD false then outputClause else []) ++ insertOutputs bs.tail b) := by
  rw [insertOutputs, (ha.append_sep separator_marker).1, withOutputs_append,
    withOutputs_of_none hcount, show (scan a).countP Step.isMarker = 0 from hcount, drop_zero,
    withOutputs, if_pos (show (codeStep '?').isMarker = true from rfl), textOf_append, textOf_cons,
    textOf_append,
    show textOf (scan a) = a from textOf_steps (CodeScan.new a)]
  split
  · rw [textOf_map_codeStep]
    rfl
  · rfl

theorem quiet_outputClause : ∀ c ∈ outputClause, Quiet c :=
  fun _ => quiet_of_forall (p := (· ∈ outputClause)) (by decide)

theorem quiet_requested (b : Bool) : ∀ c ∈ (if b then outputClause else []), Quiet c := by
  split
  · exact quiet_outputClause
  · exact fun c hc => absurd hc not_mem_nil

/-- The scanner finds the clauses as code and everything else as before. -/
theorem scan_insertOutputs (bs : List Bool) (t : List Char) :
    scan (insertOutputs bs t) = withOutputs bs (scan t) := by
  induction t using marker_induction generalizing bs with
  | none t hcount => rw [insertOutputs_of_none hcount, withOutputs_of_none hcount]
  | marker a b ha hcount ih =>
    have hclause := quiet_requested (bs.headD false)
    rw [insertOutputs_marker ha hcount, (ha.append_sep separator_marker).1,
      (ha.append_sep separator_marker).1, (scan_quiet_append hclause).1, ih,
      withOutputs_append, withOutputs_of_none hcount,
      show (scan a).countP Step.isMarker = 0 from hcount, drop_zero, withOutputs,
      if_pos (show (codeStep '?').isMarker = true from rfl)]
    split
    · rfl
    · rfl

/-- What the insertion leaves alone. -/
structure SameShape (t t' : List Char) : Prop where
  closed : Closed t' ↔ Closed t
  count : executableMarkerCount t' = executableMarkerCount t
  head : t'.head? = t.head?
  last : t'.getLast? = t.getLast? ∨ t'.getLast? = some 'T'

theorem sameShape_insertOutputs (bs : List Bool) (t : List Char) :
    SameShape t (insertOutputs bs t) := by
  induction t using marker_induction generalizing bs with
  | none t hcount =>
    rw [insertOutputs_of_none hcount]
    exact ⟨Iff.rfl, rfl, rfl, .inl rfl⟩
  | marker a b ha hcount ih =>
    rw [insertOutputs_marker ha hcount]
    have ih := ih bs.tail
    have hclause := quiet_requested (bs.headD false)
    refine ⟨?_, ?_, ?_, ?_⟩
    · rw [(ha.append_sep separator_marker).2, (ha.append_sep separator_marker).2,
        (scan_quiet_append hclause).2.1, ih.closed]
    · have hmark (x : List Char) : executableMarkerCount (a ++ '?' :: x) =
          executableMarkerCount a + (executableMarkerCount x + 1) := by
        rw [executableMarkerCount, (ha.append_sep separator_marker).1, countP_append,
          countP_cons_of_pos rfl]
        rfl
      rw [hmark, hmark, (scan_quiet_append hclause).2.2, ih.count]
    · cases a <;> rfl
    · rw [List.getLast?_append, List.getLast?_append, List.getLast?_cons, List.getLast?_cons,
        List.getLast?_append]
      rcases ih.last with hlast | hlast
      · rw [hlast]
        cases hb : b.getLast? with
        | some d => simp
        | none =>
          split
          · exact .inr rfl
          · simp
      · simp [hlast]

/-! ### Whitespace -/

theorem trimStart_of_head (h : ∀ c ∈ t.head?, isWhitespace c = false) : trimStart t = t := by
  cases t with
  | nil => rfl
  | cons c t => rw [trimStart, dropWhile_cons_of_neg (by simp [h c rfl])]

theorem head?_trimStart (t : List Char) : ∀ c ∈ (trimStart t).head?, isWhitespace c = false := by
  intro c hc
  have hhead := List.head?_dropWhile_not isWhitespace t
  rw [show t.dropWhile isWhitespace = trimStart t from rfl, Option.mem_def.mp hc] at hhead
  exact hhead

theorem trimStart_insertOutputs (bs : List Bool) (t : List Char) :
    trimStart (insertOutputs bs t) = insertOutputs bs (trimStart t) := by
  obtain ⟨w, ht, hw⟩ := trimStart_append t
  have hsplit : insertOutputs bs t = w ++ insertOutputs bs (trimStart t) := by
    rw [← insertOutputs_quiet_append fun c hc => quiet_of_whitespace (hw c hc), ← ht]
  rw [hsplit, trimStart, dropWhile_append_of_pos hw]
  refine trimStart_of_head ?_
  rw [(sameShape_insertOutputs bs (trimStart t)).head]
  exact head?_trimStart t

theorem insertOutputs_concat (hc : c ∉ ['-', '*', '/', '\'', '"', ']', '(']) (hmarker : c ≠ '?') :
    insertOutputs bs (a ++ [c]) = insertOutputs bs a ++ [c] := by
  obtain ⟨code, hscan⟩ := @scan_concat c a hc
  rw [insertOutputs, hscan, withOutputs_append,
    withOutputs_cons (by simp [Step.isMarker, hmarker]), textOf_append, insertOutputs]
  rfl

theorem trimEnd_insertOutputs (bs : List Bool) (t : List Char) :
    trimEnd (insertOutputs bs t) = insertOutputs bs (trimEnd t) := by
  induction t using List.reverseRecOn with
  | nil => rfl
  | append_singleton a c ih =>
    by_cases hc : isWhitespace c = true
    · rw [insertOutputs_concat (separator_of_whitespace hc).safe (ne_marker_of_whitespace hc),
        trimEnd, rdropWhile_concat_pos _ _ _ hc, trimEnd, rdropWhile_concat_pos _ _ _ hc]
      exact ih
    · -- what ends the text is no whitespace, with a clause behind it or not
      rw [trimEnd, trimEnd, rdropWhile_concat_neg _ _ _ hc, rdropWhile_eq_self_iff]
      intro hne
      have hlast := (sameShape_insertOutputs bs (a ++ [c])).last
      rw [List.getLast?_eq_some_getLast hne, List.getLast?_concat] at hlast
      rcases hlast with hlast | hlast
      · rwa [Option.some.inj hlast]
      · rw [Option.some.inj hlast]
        decide

theorem trim_insertOutputs (bs : List Bool) (t : List Char) :
    trim (insertOutputs bs t) = insertOutputs bs (trim t) := by
  rw [trim, trimStart_insertOutputs, trimEnd_insertOutputs, trim]

end

end MssqlTds.Odbc
