import MssqlTds.Odbc.CallText

/-!
# Parsing a call

A call is parsed out of text in which the escapes are translated already.  Clauses that nested calls
have left in the text change nothing but the arguments they stand in (`parseCall_agree`).
-/

namespace MssqlTds.Odbc

open CodeScan

/-- Two results that fail together and are related otherwise. -/
inductive Agree {α β : Type} (R : α → β → Prop) : EscapeResult α → EscapeResult β → Prop
  | ok {a : α} {b : β} (h : R a b) : Agree R (.ok a) (.ok b)
  | error (e e' : EscapeFailure) : Agree R (.error e) (.error e')

section

variable {α β γ δ : Type} {R : α → β → Prop} {S : γ → δ → Prop} {x : EscapeResult α}
  {y : EscapeResult β} {f : α → EscapeResult γ} {g : β → EscapeResult δ}

theorem Agree.bind (h : Agree R x y) (hf : ∀ a b, R a b → Agree S (f a) (g b)) :
    Agree S (x >>= f) (y >>= g) := by
  cases h with
  | ok h => exact hf _ _ h
  | error e e' => exact .error e e'

theorem Agree.imp {S : α → β → Prop} (h : Agree R x y) (hRS : ∀ a b, R a b → S a b) :
    Agree S x y := by
  cases h with
  | ok h => exact .ok (hRS _ _ h)
  | error e e' => exact .error e e'

/-- An optional value and its image. -/
theorem agree_orFail (message : String) (o : Option α) (g : α → β) :
    Agree (fun a b => o = some a ∧ b = g a) (orFail (syntaxError message) o)
      (orFail (syntaxError message) (o.map g)) := by
  cases o with
  | none => exact .error _ _
  | some a => exact .ok ⟨rfl, rfl⟩

end

section

variable {u : CharTables} {x : List Char} {bs : List Bool} {returnsStatus : Bool}

/-- A call that was parsed out of `x`, and out of `x` with clauses. -/
structure Parsed (u : CharTables) (x : List Char) (bs : List Bool) (returnsStatus : Bool)
    (call call' : CallSite) : Prop where
  name : NameLike call.procName
  name_eq : call'.procName = call.procName
  status : call.returnsStatus = returnsStatus
  status_eq : call'.returnsStatus = returnsStatus
  args : ∃ args : List (List Char), call.args = args.map (classifyCallArg u) ∧
    call'.args = (distribute bs args).map (classifyCallArg u) ∧
    (args.map executableMarkerCount).sum = executableMarkerCount x

theorem insertOutputs_eq_nil : insertOutputs bs x = [] ↔ x = [] := by
  rw [← List.head?_eq_none_iff, (sameShape_insertOutputs bs x).head, List.head?_eq_none_iff]

/-- The argument list, with and without clauses. -/
theorem splitCallArgs_agree (inner : List Char) :
    Agree (fun args args' => args' = distribute bs args ∧
        (args.map executableMarkerCount).sum = executableMarkerCount inner)
      (splitCallArgs inner) (splitCallArgs (insertOutputs bs inner)) := by
  rw [splitCallArgs, splitCallArgs, trim_insertOutputs]
  simp only [insertOutputs_eq_nil]
  split
  · next hblank =>
    refine .ok ⟨rfl, ?_⟩
    rw [← executableMarkerCount_trim inner, hblank]
    rfl
  · obtain ⟨args, final, hargs, hsum⟩ := splitArgs_spec inner
    have hplain := hargs []
    have hsame (l : List (List Char)) : distribute [] l = l := by
      induction l with
      | nil => rfl
      | cons t l ih =>
        rw [distribute, List.drop_nil, ih, show ([] : List Bool) = List.replicate 0 false from rfl,
          insertOutputs_replicate]
    rw [show ([] : List Bool) = List.replicate 0 false from rfl, insertOutputs_replicate,
      show List.replicate 0 false = [] from rfl, hsame] at hplain
    rw [hplain, hargs]
    split
    · exact .error _ _
    · exact .ok ⟨rfl, hsum⟩

/-- **Parsing a call**, with clauses in the text and without. -/
theorem parseCall_agree (hclosed : Closed x) :
    Agree (Parsed u x bs returnsStatus) (parseCall u x returnsStatus)
      (parseCall u (insertOutputs bs x) returnsStatus) := by
  have hquiet {w : List Char} (hw : ∀ c ∈ w, isWhitespace c = true) (t : List Char) :
      Passes w t := passes_quiet fun c hc => quiet_of_whitespace (hw c hc)
  obtain ⟨w, hx, hw⟩ := trimStart_append x
  have hpasses := hquiet hw (trimStart x)
  rw [hx] at hclosed
  have hcount₁ := hpasses.count
  rw [← hx] at hcount₁
  rw [parseCall, parseCall, trimStart_insertOutputs,
    takeProcName_insertOutputs (hpasses.closed.mp hclosed)]
  refine .bind (agree_orFail _ _ _) ?_
  rintro ⟨raw, rest⟩ _ ⟨hraw, rfl⟩
  obtain ⟨htext, hname⟩ := takeProcName_passes hraw
  dsimp only
  cases hvalid : validateProcedureName u raw with
  | error e => exact .error e e
  | ok procName =>
    obtain rfl := validateProcedureName_eq_ok hvalid
    have hlike : NameLike procName := fun t => hname (' ' :: t) (.inl rfl)
    obtain ⟨w', hrest, hw'⟩ := trimStart_append rest
    have hcount₂ : executableMarkerCount x = executableMarkerCount (trimStart rest) := by
      rw [hcount₁, htext, (hname rest (.inr rfl)).count, hrest, (hquiet hw' (trimStart rest)).count,
        ← hrest]
    have hif {P Q : Prop} [Decidable P] [Decidable Q] (hPQ : P ↔ Q)
        {a b : EscapeResult CallSite} {c d : EscapeResult CallSite}
        (hpos : P → Agree (Parsed u x bs returnsStatus) a c)
        (hneg : ¬ P → Agree (Parsed u x bs returnsStatus) b d) :
        Agree (Parsed u x bs returnsStatus) (if P then a else b) (if Q then c else d) := by
      by_cases hP : P
      · rw [if_pos hP, if_pos (hPQ.mp hP)]
        exact hpos hP
      · rw [if_neg hP, if_neg (mt hPQ.mpr hP)]
        exact hneg hP
    rw [trimStart_insertOutputs]
    refine hif insertOutputs_eq_nil.symm ?_ ?_
    · intro hnil
      refine .ok ⟨hlike, rfl, rfl, rfl, [], rfl, rfl, ?_⟩
      rw [hcount₂, hnil]
      rfl
    intro hne
    have hparen : Quiet '(' := quiet_of_not_mem (by decide)
    rw [stripPrefixChar_insertOutputs hparen]
    refine .bind (agree_orFail _ _ _) ?_
    rintro list _ ⟨hlist, rfl⟩
    rw [stripPrefixChar_eq_some] at hlist
    rw [hlist, executableMarkerCount_cons hparen.1 hparen.2] at hcount₂
    rw [trimEnd_insertOutputs, stripSuffixChar_insertOutputs]
    refine .bind (agree_orFail _ _ _) ?_
    rintro inner _ ⟨hinner, rfl⟩
    rw [stripSuffixChar_eq_some] at hinner
    refine .bind (splitCallArgs_agree inner) ?_
    rintro args _ ⟨rfl, hsum⟩
    refine .ok ⟨hlike, rfl, rfl, rfl, args, rfl, rfl, ?_⟩
    rw [hsum, hcount₂, ← executableMarkerCount_trimEnd list, hinner,
      executableMarkerCount_concat (by decide) (by decide)]

end

end MssqlTds.Odbc
