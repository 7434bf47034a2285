import MssqlTds.Odbc.CallNames
import MssqlTds.Odbc.LiteralText

/-!
# Arguments of a call

`splitArgs` cuts the argument list of a call at its commas and `classifyCallArg` trims the pieces.
All markers of the list are in the arguments; with clauses inserted behind markers the list falls
apart at the same places (`splitArgs_spec`), and an argument with such a clause is never taken for a
marker (`classifyCallArg_insertOutputs`).
-/

namespace MssqlTds.Odbc

open CodeScan List

section

variable {a b t : List Char} {bs : List Bool} {c : Char}

/-! ### The closing parenthesis -/

theorem stripSuffixChar_eq_some : stripSuffixChar c t = some a ↔ t = a ++ [c] := by
  rw [stripSuffixChar]
  constructor
  · intro h
    split at h
    · next hlast =>
      cases h
      obtain ⟨l, rfl⟩ := List.getLast?_eq_some_iff.mp hlast
      rw [dropLast_concat]
    · cases h
  · rintro rfl
    rw [List.getLast?_concat, if_pos rfl, dropLast_concat]

theorem stripSuffixChar_insertOutputs :
    stripSuffixChar ')' (insertOutputs bs t) =
      (stripSuffixChar ')' t).map (insertOutputs bs) := by
  cases h : stripSuffixChar ')' t with
  | some a =>
    rw [stripSuffixChar_eq_some] at h
    subst h
    rw [Option.map_some, stripSuffixChar_eq_some]
    exact insertOutputs_concat (by decide) (by decide)
  | none =>
    rw [Option.map_none, stripSuffixChar, if_neg]
    intro hlast
    rw [stripSuffixChar] at h
    split at h
    · cases h
    · next hne =>
      rcases (sameShape_insertOutputs bs t).last with hsame | hsame
      · exact hne (hsame ▸ hlast)
      · rw [hsame] at hlast
        revert hlast
        decide

/-! ### Cutting at commas -/

/-- The depth of parentheses and braces behind a step. -/
def depthAfter (step : Step) (depth : ℤ) : ℤ :=
  if step.code ∧ (step.ch = '(' ∨ step.ch = '\x7b') then depth + 1
  else if step.code ∧ (step.ch = ')' ∨ step.ch = '\x7d') then depth - 1
  else depth

theorem splitArgs_cons {step : Step} {depth : ℤ}
    (h : ¬ (step.code = true ∧ step.ch = ',' ∧ depth = 0)) (sts : List Step) (current : List Char) :
    splitArgs (step :: sts) depth current =
      splitArgs sts (depthAfter step depth) (current ++ step.text) := by
  rw [splitArgs, if_neg h]
  rfl

theorem splitArgs_outputClause (sts : List Step) (depth : ℤ) (current : List Char) :
    splitArgs (outputClause.map codeStep ++ sts) depth current =
      splitArgs sts depth (current ++ outputClause) := by
  simp [outputClause_eq, splitArgs, codeStep]

/-- A step that is no cut goes to the current argument, with the clause behind it. -/
theorem splitArgs_withOutputs_cons {step : Step} {depth : ℤ}
    (h : ¬ (step.code = true ∧ step.ch = ',' ∧ depth = 0)) (bs : List Bool) :
    ∃ bs' extra,
      (∀ l current, splitArgs (withOutputs bs (step :: l)) depth current =
        splitArgs (withOutputs bs' l) (depthAfter step depth) (current ++ extra)) ∧
      (∀ l, textOf (withOutputs bs (step :: l)) = extra ++ textOf (withOutputs bs' l)) ∧
      ∀ l : List Step, bs.drop ((step :: l).countP Step.isMarker) =
        bs'.drop (l.countP Step.isMarker) := by
  by_cases hmarker : step.isMarker = true
  · refine ⟨bs.tail, step.text ++ if bs.headD false then outputClause else [], ?_, ?_, ?_⟩
    · intro l current
      rw [withOutputs_cons_marker hmarker, splitArgs_cons h]
      split
      · rw [splitArgs_outputClause, append_assoc]
      · rw [append_nil, nil_append]
    · intro l
      rw [withOutputs_cons_marker hmarker, textOf_cons, textOf_append]
      split
      · rw [textOf_map_codeStep, append_assoc]
      · simp
    · intro l
      rw [countP_cons_of_pos hmarker, ← drop_one, drop_drop, Nat.add_comm]
  · refine ⟨bs, step.text, ?_, ?_, ?_⟩
    · intro l current
      rw [withOutputs_cons hmarker, splitArgs_cons h]
    · intro l
      rw [withOutputs_cons hmarker, textOf_cons]
    · intro l
      rw [countP_cons_of_neg hmarker]

/-- Clauses do not change where a list is cut. -/
theorem splitArgs_withOutputs (sts : List Step) (depth : ℤ) :
    (∃ final, ∀ bs current, splitArgs (withOutputs bs sts) depth current =
      ([current ++ textOf (withOutputs bs sts)], final)) ∨
    ∃ l₁ step l₂, sts = l₁ ++ step :: l₂ ∧ step.code = true ∧ step.ch = ',' ∧
      ∀ bs current, splitArgs (withOutputs bs sts) depth current =
        let args := splitArgs (withOutputs (bs.drop (l₁.countP Step.isMarker)) l₂) 0 []
        ((current ++ textOf (withOutputs bs l₁)) :: args.1, args.2) := by
  induction sts generalizing depth with
  | nil => exact .inl ⟨depth, fun bs current => by simp [withOutputs, splitArgs]⟩
  | cons step sts ih =>
    by_cases hcut : step.code = true ∧ step.ch = ',' ∧ depth = 0
    · obtain ⟨hcode, hch, rfl⟩ := hcut
      refine .inr ⟨[], step, sts, rfl, hcode, hch, ?_⟩
      intro bs current
      rw [withOutputs_cons (by simp [Step.isMarker, hch]), splitArgs, if_pos ⟨hcode, hch, rfl⟩]
      simp [withOutputs]
    · rcases ih (depthAfter step depth) with ⟨final, hone⟩ |
        ⟨l₁, comma, l₂, rfl, hcode, hch, hcut'⟩
      · refine .inl ⟨final, ?_⟩
        intro bs current
        obtain ⟨bs', extra, hargs, htext, -⟩ := splitArgs_withOutputs_cons hcut bs
        rw [hargs, hone, htext, append_assoc]
      · refine .inr ⟨step :: l₁, comma, l₂, rfl, hcode, hch, ?_⟩
        intro bs current
        obtain ⟨bs', extra, hargs, htext, hdrop⟩ := splitArgs_withOutputs_cons hcut bs
        rw [hargs, hcut', htext, hdrop, append_assoc]

/-- The requests for the markers of several texts, handed out. -/
def distribute : List Bool → List (List Char) → List (List Char)
  | _, [] => []
  | bs, t :: ts => insertOutputs bs t :: distribute (bs.drop (executableMarkerCount t)) ts

/-- **The arguments of a list** have all its markers, and clauses go with the arguments. -/
theorem splitArgs_spec (inner : List Char) :
    ∃ args final,
      (∀ bs, splitArgs (scan (insertOutputs bs inner)) 0 [] = (distribute bs args, final)) ∧
      (args.map executableMarkerCount).sum = executableMarkerCount inner := by
  induction hlen : inner.length using Nat.strongRecOn generalizing inner with
  | ind n ih =>
    simp only [scan_insertOutputs] at ih ⊢
    rcases splitArgs_withOutputs (scan inner) 0 with ⟨final, hone⟩ |
      ⟨l₁, comma, l₂, hscan, hcode, hch, hcut⟩
    · refine ⟨[inner], final, ?_, by simp⟩
      intro bs
      rw [hone, nil_append]
      rfl
    · have hsep : Separator comma.ch := hch ▸ separator_of_mem (by simp)
      obtain ⟨hinner, hstep, ha, hl₁, hl₂⟩ := scan_cut_sep hscan hcode hsep
      generalize textOf l₁ = first at *
      generalize textOf l₂ = behind at *
      obtain ⟨args, final, hargs, hsum⟩ := ih behind.length
        (by rw [← hlen, hinner, length_append, length_cons]; omega) behind rfl
      refine ⟨first :: args, final, ?_, ?_⟩
      · intro bs
        rw [hcut, nil_append, distribute, insertOutputs, hl₁, ← hl₂, hargs]
        rw [executableMarkerCount, hl₁]
      · rw [map_cons, sum_cons, hsum, hinner,
          executableMarkerCount_append_sep ha hsep (by rw [hch]; decide)]

/-! ### Classification -/

variable {u : CharTables}

/-- The text of an argument that is sent. -/
def argText : CallArg → List Char
  | .marker _ text => text
  | .text text => text
  | .default => "DEFAULT".toList

/-- Which markers of an argument are the whole of it. -/
def argWhole : CallArg → List Bool
  | .marker _ _ => [true]
  | .text text => List.replicate (executableMarkerCount text) false
  | .default => []

theorem quiet_of_isRegularIdentifier (h : isRegularIdentifier u t = true) : ∀ c ∈ t, Quiet c := by
  cases t with
  | nil => simp
  | cons d t =>
    simp only [isRegularIdentifier, Bool.and_eq_true, all_eq_true] at h
    intro c hc
    rcases mem_cons.mp hc with rfl | hc
    · exact quiet_of_isIdentifierPart (isIdentifierPart_of_start h.1)
    · exact quiet_of_isIdentifierPart (h.2 c hc)

theorem getLast?_trim (a : List Char) : ∀ c ∈ (trim a).getLast?, isWhitespace c = false := by
  intro c hc
  have hne : trim a ≠ [] := by
    rintro hnil
    rw [hnil] at hc
    cases hc
  rw [List.getLast?_eq_some_getLast hne] at hc
  rw [← Option.some.inj hc]
  exact Bool.eq_false_iff.mpr (rdropWhile_last_not isWhitespace (trimStart a) hne)

/-- What an argument can be: omitted, a marker with at most a name in front of it, or text. -/
theorem classifyCallArg_cases (u : CharTables) (a : List Char) :
    (classifyCallArg u a = .default ∧ ∀ c ∈ trim a, Quiet c) ∨
    (∃ name p, classifyCallArg u a = .marker name (trim a) ∧ trim a = p ++ ['?'] ∧
      ∀ c ∈ p, Quiet c) ∨
    classifyCallArg u a = .text (trim a) := by
  simp only [classifyCallArg]
  split
  · next hdefault =>
    refine .inl ⟨rfl, ?_⟩
    rcases hdefault with hnil | hword
    · simp [hnil]
    · exact quiet_of_keyword hword (by decide)
  split
  · next hmarker => exact .inr (.inl ⟨none, [], rfl, hmarker, by simp⟩)
  split
  · next name hnamed =>
    refine .inr (.inl ⟨some name, ?_⟩)
    obtain ⟨rest, hat, h₁⟩ := Option.bind_eq_some_iff.mp hnamed
    obtain ⟨⟨label, value⟩, hsplit, h₂⟩ := Option.bind_eq_some_iff.mp h₁
    split at h₂
    · next hvalue =>
      obtain ⟨hvalue, -, hname⟩ := hvalue
      have htrim : trim a = '@' :: (label ++ '=' :: value) := by
        rw [stripPrefixChar_eq_some.mp hat, (splitOnce_eq_some hsplit).1]
      -- nothing but whitespace stands around the marker, and nothing at all behind it
      obtain ⟨w, hstart, hw⟩ := trimStart_append value
      obtain ⟨w', hend, hw'⟩ := trimEnd_append (trimStart value)
      rw [show trimEnd (trimStart value) = ['?'] from hvalue] at hend
      have hlast : w' = [] := by
        rcases eq_nil_or_concat w' with hnil | ⟨w'', c, rfl⟩
        · exact hnil
        · have hconcat : trim a = '@' :: (label ++ '=' :: (w ++ '?' :: w'')) ++ [c] := by
            rw [htrim, hstart, hend]
            simp
          have hc := getLast?_trim a c (by rw [hconcat, List.getLast?_concat]; rfl)
          rw [hw' c (by simp)] at hc
          cases hc
      refine ⟨'@' :: (label ++ '=' :: w), rfl, ?_, ?_⟩
      · rw [htrim, hstart, hend, hlast]
        simp
      · intro c hc
        rcases mem_cons.mp hc with rfl | hc
        · exact quiet_of_not_mem (by decide)
        rcases mem_append.mp hc with hc | hc
        · rcases mem_trim hc with hspace | hc
          · exact quiet_of_whitespace hspace
          · exact quiet_of_isRegularIdentifier hname c hc
        rcases mem_cons.mp hc with rfl | hc
        · exact quiet_of_not_mem (by decide)
        · exact quiet_of_whitespace (hw c hc)
    · cases h₂
  · exact .inr (.inr rfl)

/-- A clause was inserted, or the text is the same. -/
theorem insertOutputs_eq_or (bs : List Bool) (t : List Char) :
    insertOutputs bs t = t ∨ ∃ p q, insertOutputs bs t = p ++ '?' :: (outputClause ++ q) := by
  induction t using marker_induction generalizing bs with
  | none t hcount => exact .inl (insertOutputs_of_none hcount)
  | marker a b ha hcount ih =>
    rw [insertOutputs_marker ha hcount]
    by_cases hrequest : bs.headD false = true
    · exact .inr ⟨a, _, by rw [if_pos hrequest]⟩
    · rw [if_neg hrequest, nil_append]
      rcases ih bs.tail with hsame | ⟨p, q, hclause⟩
      · exact .inl (by rw [hsame])
      · exact .inr ⟨a ++ '?' :: p, q, by rw [hclause]; simp⟩

theorem classifyCallArg_congr (h : trim a = trim b) :
    classifyCallArg u a = classifyCallArg u b := by
  simp only [classifyCallArg, h]

/-- An argument with an inserted clause is neither omitted nor a marker. -/
theorem classifyCallArg_insertOutputs :
    (insertOutputs bs (trim a) = trim a ∧
      classifyCallArg u (insertOutputs bs a) = classifyCallArg u a) ∨
    classifyCallArg u (insertOutputs bs a) = .text (insertOutputs bs (trim a)) := by
  have htrim := trim_insertOutputs bs a
  rcases insertOutputs_eq_or bs (trim a) with hsame | ⟨p, q, hclause⟩
  · exact .inl ⟨hsame, classifyCallArg_congr (htrim.trans hsame)⟩
  · right
    rw [hclause] at htrim
    rcases classifyCallArg_cases u (insertOutputs bs a) with ⟨-, hquiet⟩ |
      ⟨name, p', -, hmarker, hquiet⟩ | htext
    · rw [htrim] at hquiet
      exact absurd rfl (hquiet '?' (by simp)).2
    · -- the marker would be the last character, and there is one in front of the clause
      rw [htrim] at hmarker
      have hdrop := congrArg List.dropLast hmarker
      rw [dropLast_concat, dropLast_append_of_ne_nil (by simp),
        dropLast_cons_of_ne_nil (by simp [outputClause_eq])] at hdrop
      exact absurd rfl (hquiet '?' (by rw [← hdrop]; simp)).2
    · rw [htext, htrim, hclause]

/-- The markers of an argument. -/
structure ArgSpec (a : List Char) (arg : CallArg) : Prop where
  count : executableMarkerCount (argText arg) = executableMarkerCount a
  whole : (argWhole arg).length = executableMarkerCount a

/-- A marker that is the whole argument. -/
theorem insertOutputs_whole {p : List Char} (hp : ∀ c ∈ p, Quiet c) :
    insertOutputs bs (p ++ ['?']) = p ++ '?' :: if bs.headD false then outputClause else [] := by
  obtain ⟨hclosed, hcount⟩ := quiet_text hp
  rw [insertOutputs_marker hclosed hcount]
  simp

theorem classifyCallArg_spec (u : CharTables) (a : List Char) :
    ArgSpec a (classifyCallArg u a) := by
  have htrim := executableMarkerCount_trim a
  rcases classifyCallArg_cases u a with ⟨hdefault, hquiet⟩ | ⟨name, p, hmarker, hlast, hquiet⟩ |
    htext
  · have hcount : executableMarkerCount a = 0 := htrim.symm.trans (quiet_text hquiet).2
    have hword : ∀ c ∈ "DEFAULT".toList, Quiet c :=
      @quiet_of_keyword _ "DEFAULT".toList rfl (by decide)
    rw [hdefault]
    exact ⟨(quiet_text hword).2.trans hcount.symm, hcount.symm⟩
  · rw [hmarker]
    refine ⟨htrim, ?_⟩
    rw [← htrim, hlast, (@scan_quiet_append ['?'] p hquiet).2.2]
    rfl
  · rw [htext]
    exact ⟨htrim, by simp [argWhole, htrim]⟩

end

end MssqlTds.Odbc
