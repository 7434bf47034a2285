import MssqlTds.Odbc.CallArguments

/-!
# The text of a call

A call with its arguments becomes `EXEC` text.  If no argument leaves a comment open, the text is
closed and its markers are those of the arguments, in front of them the one for the return status
(`piece_execText`).  The `OUTPUT` clauses in it are those that nested calls brought along and those
behind the markers that are whole arguments (`argTexts_spec`).
-/

namespace MssqlTds.Odbc

open CodeScan List

section

variable {u : CharTables} {a : List Char} {outputs bs : List Bool} {whole : List Bool} {n : ℕ}

/-! ### Arguments -/

/-- The clauses to insert from the marker with the given ordinal on. -/
def requested (outputs : List Bool) (n : ℕ) (whole : List Bool) : List Bool :=
  whole.mapIdx fun k w => w && outputs.getD (n + k) false

theorem requested_append (outputs : List Bool) (n : ℕ) (l l' : List Bool) :
    requested outputs n (l ++ l') =
      requested outputs n l ++ requested outputs (n + l.length) l' := by
  rw [requested, mapIdx_append]
  refine congrArg (_ ++ ·) (congrArg (List.mapIdx · l') ?_)
  funext k w
  rw [Nat.add_assoc, Nat.add_comm k]

@[simp] theorem length_requested (outputs : List Bool) (n : ℕ) (l : List Bool) :
    (requested outputs n l).length = l.length := length_mapIdx

theorem requested_replicate (outputs : List Bool) (n k : ℕ) :
    requested outputs n (List.replicate k false) = List.replicate k false := by
  apply ext_getElem
  · simp
  · simp [requested]

theorem requested_nil (n : ℕ) (l : List Bool) :
    requested [] n l = List.replicate l.length false := by
  apply ext_getElem
  · simp
  · simp [requested]

/-- One argument: nested calls have put their clauses behind some of its markers. -/
theorem argTexts_cons (hlen : whole.length = executableMarkerCount a) (args : List CallArg) :
    argTexts outputs n (classifyCallArg u (insertOutputs (requested outputs n whole) a) :: args) =
      insertOutputs (requested outputs n (whole.zipWith or (argWhole (classifyCallArg u a))))
          (argText (classifyCallArg u a)) ::
        argTexts outputs (n + executableMarkerCount a) args := by
  have hspec := classifyCallArg_spec u a
  have htrim := executableMarkerCount_trim a
  have hcases := @classifyCallArg_insertOutputs a (requested outputs n whole) u
  rcases classifyCallArg_cases u a with ⟨hdefault, hquiet⟩ | ⟨name, p, hmarker, hlast, hquiet⟩ |
    htext
  · -- no marker, no clause
    have hcount : executableMarkerCount a = 0 := by
      rw [← hspec.whole, hdefault]
      rfl
    rw [insertOutputs_of_none hcount, hdefault, argTexts, hcount, Nat.add_zero]
    rw [insertOutputs_of_none]
    · rfl
    · rw [← hdefault, hspec.count, hcount]
  · have hcount : executableMarkerCount a = 1 := by
      rw [← hspec.whole, hmarker]
      rfl
    obtain ⟨w, rfl⟩ : ∃ w, whole = [w] := length_eq_one_iff.mp (hlen.trans hcount)
    have hinsert : insertOutputs (requested outputs n [w]) (trim a) =
        p ++ '?' :: if w && outputs.getD n false then outputClause else [] := by
      rw [hlast, insertOutputs_whole hquiet]
      rfl
    have hgoal : insertOutputs (requested outputs n ([w].zipWith or [true])) (trim a) =
        p ++ '?' :: if outputs.getD n false then outputClause else [] := by
      rw [hlast, insertOutputs_whole hquiet]
      simp [requested]
    rw [hmarker, hcount]
    refine Eq.trans ?_ (congrArg (· :: _) hgoal.symm)
    rcases hcases with ⟨-, hsame⟩ | hnested
    · rw [hsame, hmarker, argTexts, hlast, append_assoc, ← outputClause_eq]
      rfl
    · rw [hnested, argTexts, (sameShape_insertOutputs _ _).count, htrim, hcount, hinsert]
      -- the clause stands already behind the marker, or no clause is requested
      cases hout : outputs.getD n false with
      | false => simp
      | true =>
        cases w with
        | true => rfl
        | false =>
          have hsame : insertOutputs (requested outputs n [false]) a = a := by
            rw [show requested outputs n [false] = List.replicate 1 false from rfl,
              insertOutputs_replicate]
          rw [hsame, hmarker] at hnested
          cases hnested
  · have hzip : whole.zipWith or (argWhole (.text (trim a))) = whole := by
      rw [argWhole, htrim, ← hlen]
      apply ext_getElem
      · simp
      · simp
    rw [htext, hzip]
    change _ = insertOutputs _ (trim a) :: _
    rcases hcases with ⟨hsame, heq⟩ | hnested
    · rw [heq, htext, argTexts, htrim, hsame]
    · rw [hnested, argTexts, (sameShape_insertOutputs _ _).count, htrim]

/-- **The clauses of a call** are those of nested calls and those for its own arguments. -/
theorem argTexts_spec {args : List (List Char)}
    (hlen : whole.length = (args.map executableMarkerCount).sum) :
    argTexts outputs n
        ((distribute (requested outputs n whole) args).map (classifyCallArg u)) =
      distribute (requested outputs n
          (whole.zipWith or ((args.map (classifyCallArg u)).flatMap argWhole)))
        ((args.map (classifyCallArg u)).map argText) := by
  induction args generalizing whole n with
  | nil => rfl
  | cons a args ih =>
    have hspec := classifyCallArg_spec u a
    rw [map_cons, sum_cons] at hlen
    obtain ⟨first, others, rfl, hfirst⟩ : ∃ first others, whole = first ++ others ∧
        first.length = executableMarkerCount a :=
      ⟨whole.take (executableMarkerCount a), whole.drop (executableMarkerCount a),
        (take_append_drop _ whole).symm, by rw [length_take]; omega⟩
    have hothers : others.length = (args.map executableMarkerCount).sum := by
      rw [length_append] at hlen
      omega
    have hnested : insertOutputs (requested outputs n (first ++ others)) a =
        insertOutputs (requested outputs n first) a := by
      rw [requested_append, insertOutputs_take (by rw [length_requested, hfirst])]
    have hdrop : (requested outputs n (first ++ others)).drop (executableMarkerCount a) =
        requested outputs (n + executableMarkerCount a) others := by
      rw [requested_append, drop_left' (by simp [hfirst]), hfirst]
    rw [distribute, map_cons, hnested, hdrop, argTexts_cons hfirst, ih hothers,
      map_cons, flatMap_cons, map_cons, zipWith_append (by rw [hfirst, hspec.whole]),
      distribute, requested_append]
    have hlength : (first.zipWith or (argWhole (classifyCallArg u a))).length =
        executableMarkerCount a := by
      rw [length_zipWith, hfirst, hspec.whole, Nat.min_self]
    rw [hlength, hspec.count, drop_left' (by rw [length_requested, hlength]),
      @insertOutputs_take _ (requested outputs n _)
        _ (by rw [length_requested, hlength, hspec.count])]

theorem argTexts_nil (n : ℕ) (args : List CallArg) : argTexts [] n args = args.map argText := by
  induction args generalizing n with
  | nil => rfl
  | cons arg args ih =>
    cases arg with
    | marker _ text => exact congrArg₂ cons (append_nil text) (ih _)
    | text text => exact congrArg (text :: ·) (ih _)
    | default => exact congrArg (_ :: ·) (ih n)

/-! ### Joining -/

/-- A piece of text as the translation puts it together: closed, with `count` markers; `render`
is the piece with clauses inserted. -/
structure Piece (t : List Char) (count : ℕ) (render : List Bool → List Char) : Prop where
  closed : Closed t
  count : executableMarkerCount t = count
  render : ∀ bs, render bs = insertOutputs bs t

theorem piece_of_closed {t : List Char} (hclosed : Closed t) :
    Piece t (executableMarkerCount t) fun bs => insertOutputs bs t := ⟨hclosed, rfl, fun _ => rfl⟩

theorem piece_nil : Piece [] 0 fun _ => [] := ⟨closed_nil, rfl, fun _ => rfl⟩

variable {t t' : List Char} {k k' : ℕ} {f f' : List Bool → List Char}

theorem Piece.passes {part : List Char} (h : Piece t k f) (hpart : Passes part t) :
    Piece (part ++ t) k fun bs => part ++ f bs where
  closed := hpart.closed.mpr h.closed
  count := hpart.count.trans h.count
  render bs := by rw [h.render, hpart.insertOutputs]

theorem Piece.quiet_append {w : List Char} (h : Piece t k f) (hw : ∀ c ∈ w, Quiet c) :
    Piece (w ++ t) k fun bs => w ++ f bs := h.passes (passes_quiet hw)

/-- A marker for which no clause is requested. -/
theorem Piece.marker (h : Piece t k f) :
    Piece ('?' :: t) (1 + k) fun bs =>
      '?' :: ((if bs.headD false then outputClause else []) ++ f bs.tail) where
  closed := marker_cons.1.mpr h.closed
  count := by rw [marker_cons.2, h.count]
  render bs := by
    rw [h.render, show '?' :: t = [] ++ '?' :: t from rfl, insertOutputs_marker closed_nil rfl]
    rfl

/-- Two pieces with a separator between them. -/
theorem Piece.append_sep {c : Char} (h : Piece t k f) (h' : Piece t' k' f') (hc : Separator c)
    (hmarker : c ≠ '?') :
    Piece (t ++ c :: t') (k + k') fun bs => f bs ++ c :: f' (bs.drop k) where
  closed := (h.closed.append_sep hc).2.mpr h'.closed
  count := by rw [executableMarkerCount_append_sep h.closed hc hmarker, h.count, h'.count]
  render bs := by
    rw [insertOutputs_append_sep h.closed hc hmarker, h.render, h'.render, h.count]

theorem intercalate_cons_cons {x y : List Char} {l : List (List Char)} :
    List.intercalate [','] (x :: y :: l) = x ++ ',' :: List.intercalate [','] (y :: l) := by
  simp [List.intercalate_cons_cons]

theorem piece_joined {texts : List (List Char)} (h : ∀ t ∈ texts, Closed t) :
    Piece (List.intercalate [','] texts) (texts.map executableMarkerCount).sum
      fun bs => List.intercalate [','] (distribute bs texts) := by
  induction texts with
  | nil => exact piece_nil
  | cons t texts ih =>
    have ih := ih fun t' ht' => h t' (mem_cons_of_mem t ht')
    have ht := piece_of_closed (h t mem_cons_self)
    cases texts with
    | nil => simpa [distribute] using ht
    | cons t' texts =>
      rw [intercalate_cons_cons, map_cons, sum_cons]
      have hjoin := ht.append_sep ih (separator_of_mem (c := ',') (by simp)) (by decide)
      refine ⟨hjoin.closed, hjoin.count, ?_⟩
      intro bs
      rw [← hjoin.render, distribute, distribute, intercalate_cons_cons]

/-! ### The text of a call -/

/-- A name that text may follow. -/
def NameLike (name : List Char) : Prop := ∀ t, Passes name (' ' :: t)

def execText (returnsStatus : Bool) (name : List Char) (texts : List (List Char)) : List Char :=
  "EXEC ".toList ++ ((if returnsStatus then "?=".toList else []) ++ (name ++
    ' ' :: (List.intercalate [','] texts ++ if texts ≠ [] then [' '] else [])))

theorem length_argTexts (outputs : List Bool) (n : ℕ) (args : List CallArg) :
    (argTexts outputs n args).length = args.length := by
  induction args generalizing n with
  | nil => rfl
  | cons arg args ih => cases arg <;> exact congrArg (· + 1) (ih _)

theorem callToExecTextWithOutputs_eq (call : CallSite) (outputs : List Bool) (n : ℕ) :
    callToExecTextWithOutputs call outputs n =
      execText call.returnsStatus call.procName (argTexts outputs n call.args) := by
  have hnil : argTexts outputs n call.args = [] ↔ call.args = [] := by
    rw [← length_eq_zero_iff, length_argTexts, length_eq_zero_iff]
  unfold callToExecTextWithOutputs execText
  by_cases hargs : call.args = []
  · rw [if_neg (not_not.mpr hargs), if_neg (not_not.mpr (hnil.mpr hargs))]
    simp only [append_assoc, cons_append]
  · rw [if_pos hargs, if_pos (mt hnil.mp hargs)]
    simp only [append_assoc, cons_append]

def statusMarkers (returnsStatus : Bool) : ℕ := if returnsStatus then 1 else 0

/-- **The text of a call** has the markers of its arguments behind that of the status. -/
theorem piece_execText {returnsStatus : Bool} {name : List Char} {texts : List (List Char)}
    (hname : NameLike name) (h : ∀ t ∈ texts, Closed t) :
    ∃ render, Piece (execText returnsStatus name texts)
      (statusMarkers returnsStatus + (texts.map executableMarkerCount).sum) render ∧
      ∀ bs, render (List.replicate (statusMarkers returnsStatus) false ++ bs) =
        execText returnsStatus name (distribute bs texts) := by
  have hspace : Separator ' ' := separator_of_mem (by simp)
  have hword : ∀ c ∈ "EXEC ".toList, Quiet c := @quiet_of_keyword _ "EXEC ".toList rfl (by decide)
  have hend : Piece (List.intercalate [','] texts ++ if texts ≠ [] then [' '] else [])
      (texts.map executableMarkerCount).sum fun bs =>
        List.intercalate [','] (distribute bs texts) ++
          if distribute bs texts ≠ [] then [' '] else [] := by
    cases texts with
    | nil => exact piece_nil
    | cons t texts =>
      exact (piece_joined h).append_sep piece_nil hspace (by decide)
  have hargs := (hend.quiet_append (w := [' ']) fun c hc =>
    mem_singleton.mp hc ▸ quiet_of_not_mem (by decide)).passes (hname _)
  cases returnsStatus with
  | false =>
    rw [show statusMarkers false = 0 from rfl, Nat.zero_add]
    exact ⟨_, hargs.quiet_append hword, fun bs => rfl⟩
  | true =>
    have hequals := (hargs.quiet_append (w := ['=']) fun c hc =>
      mem_singleton.mp hc ▸ quiet_of_not_mem (by decide)).marker
    exact ⟨_, hequals.quiet_append hword, fun bs => rfl⟩

end

end MssqlTds.Odbc
