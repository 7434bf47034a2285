import MssqlTds.Lib.EState
import MssqlTds.Odbc.CallParsing
import MssqlTds.Odbc.EscapeDepth

/-!
# Markers in translated text

The translation of escapes keeps the executable markers of a statement, and puts `OUTPUT` behind
those that are requested and are whole arguments of a call (`markers_conserved`).

This holds if no argument of a call ends in a line comment when it is trimmed: the line break that
ends the comment has then gone with the whitespace around the argument, and the comment swallows
what follows (`marker_lost`).
-/

namespace MssqlTds.Odbc

open CodeScan List

/-! ### What is promised, and when -/

/-- The call behind the keyword, as it is when the escapes inside it are translated. -/
def parsedCall (u : CharTables) (remainder : List Char) (returnsStatus : Bool) :
    EscapeResult CallSite := do
  let (translated, _) ← translateEscapesInner u remainder true [] 0
  parseCall u translated.sql returnsStatus

/-- Which markers of an escape are whole arguments of a call; `nested` tells it of a text. -/
def wholeOne (u : CharTables) (nested : List Char → List Bool) (body : List Char)
    (kind : EscapeKind) (remainder : List Char) : List Bool :=
  match kind with
  | .fn | .passThrough => nested body
  | .call returnsStatus =>
    List.replicate (statusMarkers returnsStatus) false ++
      (nested remainder).zipWith or (match parsedCall u remainder returnsStatus with
        | .ok call => call.args.flatMap argWhole
        | .error _ => [])
  | _ => List.replicate (executableMarkerCount body) false

def wholeWithin (u : CharTables) : ℕ → List Char → List Bool
  | 0, _ => []
  | fuel + 1, sql =>
    match findEscape sql with
    | none => List.replicate (executableMarkerCount sql) false
    | some (before, body, after) =>
      List.replicate (executableMarkerCount before) false ++
        ((match classify body with
          | .ok (kind, remainder) => wholeOne u (wholeWithin u fuel) body kind remainder
          | .error _ => []) ++ wholeWithin u fuel after)

/-- For each executable marker of a statement, whether it is a whole argument of a call.  The
arguments of a call are those that it has when the escapes inside it are translated. -/
def wholeArguments (u : CharTables) (sql : List Char) : List Bool :=
  wholeWithin u (sql.length + 1) sql

/-- No argument of the call ends inside a comment. -/
def CallSite.ArgsClosed (call : CallSite) : Prop := ∀ arg ∈ call.args, Closed (argText arg)

instance (call : CallSite) : Decidable call.ArgsClosed :=
  inferInstanceAs (Decidable (∀ arg ∈ call.args, Closed (argText arg)))

def callsClosedWithin (u : CharTables) : ℕ → List Char → Bool
  | 0, _ => true
  | fuel + 1, sql =>
    match findEscape sql with
    | none => true
    | some (_, body, after) =>
      (match classify body with
        | .ok (.fn, _) | .ok (.passThrough, _) => callsClosedWithin u fuel body
        | .ok (.call returnsStatus, remainder) =>
          callsClosedWithin u fuel remainder &&
            (match parsedCall u remainder returnsStatus with
              | .ok call => decide call.ArgsClosed
              | .error _ => true)
        | _ => true) && callsClosedWithin u fuel after

/-- In every call of the statement, no argument ends in a line comment when it is trimmed: a line
comment directly in front of the comma or the parenthesis that ends an argument of the call would
lose its line break.  Comments within parentheses or in front of other text do not matter. -/
def CallsClosed (u : CharTables) (sql : List Char) : Prop :=
  callsClosedWithin u (sql.length + 1) sql = true

instance (u : CharTables) (sql : List Char) : Decidable (CallsClosed u sql) :=
  inferInstanceAs (Decidable (callsClosedWithin u (sql.length + 1) sql = true))

/-! ### One escape -/

section

variable {u : CharTables} {outputs whole : List Bool} {sql body : List Char} {k n : ℕ}

/-- What the translation of a text is without clauses, `r`, and with them, `r'`. -/
structure Conserves (sql : List Char) (k n : ℕ) (outputs whole : List Bool)
    (r r' : List Char × ℕ) : Prop where
  marker : r.2 = k + executableMarkerCount sql
  marker' : r'.2 = n + executableMarkerCount sql
  length : whole.length = executableMarkerCount sql
  count : executableMarkerCount r.1 = executableMarkerCount sql
  closed : Closed sql → Closed r.1
  text : r'.1 = insertOutputs (requested outputs n whole) r.1

/-- What replaces an escape: a closed text between two separators. -/
structure Replaces (body : List Char) (k n : ℕ) (outputs whole : List Bool)
    (r r' : List Char × ℕ × Option CallSite) : Prop where
  marker : r.2.1 = k + executableMarkerCount body
  marker' : r'.2.1 = n + executableMarkerCount body
  length : whole.length = executableMarkerCount body
  text : ∃ c d t, r.1 = c :: t ++ [d] ∧
    r'.1 = c :: insertOutputs (requested outputs n whole) t ++ [d] ∧
    (c = ' ' ∨ c = '\x7b') ∧ (d = ' ' ∨ d = '\x7d') ∧ Closed t ∧
    executableMarkerCount t = executableMarkerCount body

/-- Text that has no whole argument in it. -/
theorem replaces_plain {c d : Char} {t : List Char} (hc : c = ' ' ∨ c = '\x7b')
    (hd : d = ' ' ∨ d = '\x7d') (hclosed : Closed t)
    (hcount : executableMarkerCount t = executableMarkerCount body) :
    Replaces body k n outputs (List.replicate (executableMarkerCount body) false)
      (c :: t ++ [d], k + executableMarkerCount body, none)
      (c :: t ++ [d], n + executableMarkerCount body, none) := by
  refine ⟨rfl, rfl, by simp, c, d, t, rfl, ?_, hc, hd, hclosed, hcount⟩
  rw [requested_replicate, insertOutputs_replicate]

theorem replaces_escape {remainder : List Char} (htagged : Tagged body remainder 0)
    (hclosed : Closed body) :
    Replaces body k n outputs (List.replicate (executableMarkerCount body) false)
      (surrounded ("ESCAPE".toList ++ remainder), k + executableMarkerCount remainder, none)
      (surrounded ("ESCAPE".toList ++ remainder), n + executableMarkerCount remainder, none) := by
  have hword : ∀ c ∈ "ESCAPE".toList, Quiet c :=
    @quiet_of_keyword _ "ESCAPE".toList rfl (by decide)
  obtain ⟨-, hclosed', hcount⟩ := @scan_quiet_append remainder _ hword
  have hbody := htagged.count
  rw [Nat.zero_add] at hbody
  rw [← hbody]
  exact replaces_plain (.inl rfl) (.inl rfl) (hclosed'.mpr (htagged.closed.mp hclosed))
    (hcount.trans hbody.symm)

theorem replaces_encrypt {remainder text : List Char} (htagged : Tagged body remainder 0)
    (h : translateEncrypt remainder = .ok text) :
    Replaces body k n outputs (List.replicate (executableMarkerCount body) false)
      (surrounded text, k, none) (surrounded text, n, none) := by
  obtain ⟨hremainder, hquiet⟩ := translateEncrypt_spec h
  obtain ⟨hclosed, hcount⟩ := quiet_text hquiet
  have hbody : executableMarkerCount body = 0 := by rw [htagged.count, hremainder]
  have hplain := @replaces_plain outputs body k n ' ' ' ' text (.inl rfl) (.inl rfl) hclosed
    (hcount.trans hbody.symm)
  rwa [hbody] at hplain ⊢

theorem replaces_interval {text : List Char} (h : translateInterval u body = .ok text) :
    Replaces body k n outputs (List.replicate (executableMarkerCount body) false)
      (surrounded text, k, none) (surrounded text, n, none) := by
  obtain ⟨hbody, hclosed, hcount⟩ := translateInterval_spec h
  have hplain := @replaces_plain outputs body k n ' ' ' ' text (.inl rfl) (.inl rfl) hclosed
    (hcount.trans hbody.symm)
  rwa [hbody] at hplain ⊢

variable {r r' : List Char × ℕ}

/-- The body of an escape that is passed through. -/
theorem replaces_passThrough (hclosed : Closed body) (h : Conserves body k n outputs whole r r') :
    Replaces body k n outputs whole ('\x7b' :: r.1 ++ ['\x7d'], r.2, none)
      ('\x7b' :: r'.1 ++ ['\x7d'], r'.2, none) := by
  refine ⟨h.marker, h.marker', h.length, '\x7b', '\x7d', r.1, rfl, ?_, .inr rfl, .inr rfl,
    h.closed hclosed, h.count⟩
  rw [h.text]

/-- A call, when the text behind its keyword is translated. -/
theorem replaces_call {remainder : List Char} {returnsStatus : Bool}
    {call call' : CallSite} (htagged : Tagged body remainder (statusMarkers returnsStatus))
    (h : Conserves remainder (k + statusMarkers returnsStatus)
      (n + statusMarkers returnsStatus) outputs whole r r')
    (hparsed : Parsed u r.1 (requested outputs (n + statusMarkers returnsStatus) whole)
      returnsStatus call call') (hclosed : call.ArgsClosed) :
    Replaces body k n outputs
      (List.replicate (statusMarkers returnsStatus) false ++
        whole.zipWith or (call.args.flatMap argWhole))
      (surrounded (callToExecTextWithOutputs call [] (k + statusMarkers returnsStatus)), r.2,
        some call)
      (surrounded (callToExecTextWithOutputs call' outputs (n + statusMarkers returnsStatus)),
        r'.2, some call') := by
  obtain ⟨args, hargs, hargs', hsum⟩ := hparsed.args
  have hlen : whole.length = (args.map executableMarkerCount).sum := by
    rw [h.length, hsum, h.count]
  have htexts : ∀ t ∈ (args.map (classifyCallArg u)).map argText, Closed t := by
    rw [← hargs]
    intro t ht
    obtain ⟨arg, harg, rfl⟩ := mem_map.mp ht
    exact hclosed arg harg
  have hcounts : (((args.map (classifyCallArg u)).map argText).map executableMarkerCount).sum =
      executableMarkerCount remainder := by
    rw [map_map, map_map, ← h.count, ← hsum]
    exact congrArg List.sum (map_congr_left fun a _ => (classifyCallArg_spec u a).count)
  have hwhole : ((args.map (classifyCallArg u)).flatMap argWhole).length =
      executableMarkerCount remainder := by
    rw [length_flatMap, map_map, ← h.count, ← hsum]
    exact congrArg List.sum (map_congr_left fun a _ => (classifyCallArg_spec u a).whole)
  obtain ⟨render, hpiece, hrender⟩ :=
    @piece_execText returnsStatus call.procName _ hparsed.name htexts
  rw [hcounts, ← htagged.count] at hpiece
  rw [callToExecTextWithOutputs_eq, callToExecTextWithOutputs_eq, argTexts_nil, hargs, hargs',
    argTexts_spec hlen, hparsed.status, hparsed.status_eq, hparsed.name_eq]
  refine ⟨?_, ?_, ?_, ' ', ' ', _, rfl, ?_, .inl rfl, .inl rfl, hpiece.closed, hpiece.count⟩
  · rw [h.marker, htagged.count, Nat.add_assoc]
  · rw [h.marker', htagged.count, Nat.add_assoc]
  · rw [length_append, length_replicate, length_zipWith, hwhole, h.length,
      Nat.min_self, htagged.count]
  · rw [requested_append, requested_replicate, length_replicate, ← hpiece.render, hrender]
    rfl

/-! ### The loop -/

theorem separator_left {c : Char} (hc : c = ' ' ∨ c = '\x7b') : Separator c ∧ c ≠ '?' := by
  rcases hc with rfl | rfl <;> exact ⟨separator_of_mem (by simp), by decide⟩

theorem separator_right {c : Char} (hc : c = ' ' ∨ c = '\x7d') : Separator c ∧ c ≠ '?' := by
  rcases hc with rfl | rfl <;> exact ⟨separator_of_mem (by simp), by decide⟩

/-- An escape in the text, and its replacement. -/
theorem count_escape {before t after : List Char} {c d : Char} (hbefore : Closed before)
    (ht : Closed t) (hc : c = ' ' ∨ c = '\x7b') (hd : d = ' ' ∨ d = '\x7d') :
    executableMarkerCount (before ++ c :: (t ++ d :: after)) = executableMarkerCount before +
      (executableMarkerCount t + executableMarkerCount after) := by
  obtain ⟨hc, hc'⟩ := separator_left hc
  obtain ⟨hd, hd'⟩ := separator_right hd
  rw [executableMarkerCount_append_sep hbefore hc hc', executableMarkerCount_append_sep ht hd hd']

/-- One round of the loop. -/
theorem conserves_escape {before after : List Char} {w₁ w₂ : List Bool}
    {r₁ r₁' : List Char × ℕ × Option CallSite} {r₂ r₂' : List Char × ℕ}
    (hsql : sql = before ++ '\x7b' :: (body ++ '\x7d' :: after)) (hbefore : Closed before)
    (hbody : Closed body)
    (h₁ : Replaces body (k + executableMarkerCount before) (n + executableMarkerCount before)
      outputs w₁ r₁ r₁')
    (h₂ : Conserves after r₁.2.1 r₁'.2.1 outputs w₂ r₂ r₂') :
    Conserves sql k n outputs
      (List.replicate (executableMarkerCount before) false ++ (w₁ ++ w₂))
      (before ++ r₁.1 ++ r₂.1, r₂.2) (before ++ r₁'.1 ++ r₂'.1, r₂'.2) := by
  obtain ⟨c, d, t, htext, htext', hc, hd, ht, hcount⟩ := h₁.text
  have hout : before ++ r₁.1 ++ r₂.1 = before ++ c :: (t ++ d :: r₂.1) := by
    rw [htext]
    simp
  have hmarkers : executableMarkerCount sql = executableMarkerCount before +
      (executableMarkerCount body + executableMarkerCount after) := by
    rw [hsql, count_escape hbefore hbody (.inr rfl) (.inr rfl)]
  obtain ⟨hcsep, hcne⟩ := separator_left hc
  obtain ⟨hdsep, hdne⟩ := separator_right hd
  refine ⟨?_, ?_, ?_, ?_, ?_, ?_⟩
  · rw [h₂.marker, h₁.marker, hmarkers]
    omega
  · rw [h₂.marker', h₁.marker', hmarkers]
    omega
  · rw [length_append, length_replicate, length_append, h₁.length, h₂.length,
      hmarkers]
  · rw [hout, count_escape hbefore ht hc hd, hcount, h₂.count, hmarkers]
  · rw [hsql, (hbefore.append_sep (separator_of_mem (by simp))).2,
      (hbody.append_sep (separator_of_mem (by simp))).2, hout, (hbefore.append_sep hcsep).2,
      (ht.append_sep hdsep).2]
    exact h₂.closed
  · have hshift : n + executableMarkerCount before + w₁.length = r₁'.2.1 := by
      rw [h₁.marker', h₁.length]
    have hlen : (requested outputs (n + executableMarkerCount before) w₁).length =
        executableMarkerCount t := by rw [length_requested, h₁.length, hcount]
    rw [hout, requested_append, requested_replicate, length_replicate, requested_append,
      hshift, insertOutputs_append_sep hbefore hcsep hcne, insertOutputs_take (by simp),
      insertOutputs_replicate, drop_left' (by simp), insertOutputs_append_sep ht hdsep hdne,
      insertOutputs_take hlen, drop_left' hlen, ← h₂.text, htext']
    simp

theorem agree_refl {α : Type} (x : EscapeResult α) : Agree (fun a b => a = b) x x := by
  cases x with
  | error e => exact .error e e
  | ok a => exact .ok rfl

theorem Agree.with_eq {α β : Type} {R : α → β → Prop} {x : EscapeResult α} {y : EscapeResult β}
    (h : Agree R x y) : Agree (fun a b => R a b ∧ x = .ok a) x y := by
  cases h with
  | ok h => exact .ok ⟨h, rfl⟩
  | error e e' => exact .error e e'

variable {fuel : ℕ} {insideCall : Bool} {remainder : List Char} {kind : EscapeKind}

/-- The loop appends the same to what it has, with clauses and without, up to the clauses. -/
def Translates (u : CharTables) (fuel : ℕ) (insideCall : Bool) (sql : List Char) : Prop :=
  ∀ outputs l l', Agree
    (fun r r' => ∃ t t', r.1.sql = l.out ++ t ∧ r'.1.sql = l'.out ++ t' ∧
      Conserves sql l.marker l'.marker outputs (wholeWithin u fuel sql) (t, r.2) (t', r'.2))
    (translateInner u [] fuel insideCall sql l) (translateInner u outputs fuel insideCall sql l')

/-- The same of a text inside an escape. -/
theorem Translates.nested (h : Translates u fuel insideCall sql) (outputs : List Bool) (k n : ℕ) :
    Agree (fun r r' => Conserves sql k n outputs (wholeWithin u fuel sql) (r.1.sql, r.2)
        (r'.1.sql, r'.2))
      (translateInner u [] fuel insideCall sql ⟨[], none, 0, true, k⟩)
      (translateInner u outputs fuel insideCall sql ⟨[], none, 0, true, n⟩) := by
  refine (h outputs ⟨[], none, 0, true, k⟩ ⟨[], none, 0, true, n⟩).imp ?_
  rintro r r' ⟨t, t', ht, ht', hconserves⟩
  rw [nil_append] at ht ht'
  rw [ht, ht']
  exact hconserves

/-- Without clauses the translation does not depend on the number of the first marker. -/
theorem Translates.parsedCall_eq (h : Translates u fuel true remainder)
    (hfuel : remainder.length < fuel) {r : Translated × ℕ}
    (hr : translateInner u [] fuel true remainder ⟨[], none, 0, true, k⟩ = .ok r)
    (returnsStatus : Bool) :
    parsedCall u remainder returnsStatus = parseCall u r.1.sql returnsStatus := by
  have hboth := h.nested [] 0 k
  rw [hr, translateInner_fuel hfuel (Nat.lt_succ_self _)] at hboth
  rw [parsedCall, translateEscapesInner]
  generalize translateInner u [] _ true remainder ⟨[], none, 0, true, 0⟩ = x at hboth ⊢
  cases hboth with
  | ok hconserves =>
    have htext := hconserves.text
    rw [requested_nil, insertOutputs_replicate] at htext
    exact congrArg (parseCall u · returnsStatus) htext.symm

/-- One escape, with clauses and without. -/
theorem translateEscape_agree (hclassify : classify body = .ok (kind, remainder))
    (hclosed : Closed body) (hfuel : remainder.length < fuel)
    (hpass : kind = .fn ∨ kind = .passThrough → Translates u fuel insideCall body)
    (hcall : ∀ returnsStatus, kind = .call returnsStatus → Translates u fuel true remainder ∧
      ∀ call, parsedCall u remainder returnsStatus = .ok call → call.ArgsClosed) :
    Agree (Replaces body k n outputs (wholeOne u (wholeWithin u fuel) body kind remainder))
      (translateEscape u [] (fun insideCall sql marker =>
        translateInner u [] fuel insideCall sql ⟨[], none, 0, true, marker⟩) insideCall body kind
        remainder k)
      (translateEscape u outputs (fun insideCall sql marker =>
        translateInner u outputs fuel insideCall sql ⟨[], none, 0, true, marker⟩) insideCall body
        kind remainder n) := by
  have htagged := classify_spec hclassify
  cases kind with
  | fn =>
    cases insideCall with
    | true => exact .error _ _
    | false =>
      refine ((hpass (.inl rfl)).nested outputs k n).bind ?_
      intro r r' h
      exact .ok (replaces_passThrough hclosed h)
  | passThrough =>
    simp only [translateEscape, reduceCtorEq, and_false, if_false]
    refine ((hpass (.inr rfl)).nested outputs k n).bind ?_
    intro r r' h
    exact .ok (replaces_passThrough hclosed h)
  | escape => exact .ok (replaces_escape htagged hclosed)
  | interval =>
    cases insideCall with
    | true => exact .ok (replaces_plain (.inr rfl) (.inr rfl) hclosed rfl)
    | false =>
      refine (agree_refl (translateInterval u body)).with_eq.bind ?_
      rintro text _ ⟨rfl, htext⟩
      exact .ok (replaces_interval htext)
  | encrypt =>
    refine (agree_refl (translateEncrypt remainder)).with_eq.bind ?_
    rintro text _ ⟨rfl, htext⟩
    exact .ok (replaces_encrypt htagged htext)
  | call returnsStatus =>
    obtain ⟨htranslates, hargs⟩ := hcall returnsStatus rfl
    have hfirst (n : ℕ) :
        (if returnsStatus then n + 1 else n) = n + statusMarkers returnsStatus := by
      cases returnsStatus <;> rfl
    have htagged : Tagged body remainder (statusMarkers returnsStatus) := by
      cases returnsStatus <;> exact htagged
    simp only [translateEscape, hfirst]
    refine (htranslates.nested outputs _ _).with_eq.bind ?_
    rintro r r' ⟨h, hr⟩
    have hparsedCall := htranslates.parsedCall_eq hfuel hr returnsStatus
    rw [show r'.1.sql = _ from h.text]
    refine (parseCall_agree (h.closed (htagged.closed.mp hclosed))).with_eq.bind ?_
    rintro call call' ⟨hparsed, hok⟩
    rw [hok] at hparsedCall
    rw [wholeOne, hparsedCall]
    exact .ok (replaces_call htagged h hparsed (hargs call hparsedCall))

/-- **Markers are conserved** by the translation of every text whose calls have no argument that
ends in a comment. -/
theorem translates (hfuel : sql.length < fuel) (hcalls : callsClosedWithin u fuel sql = true) :
    Translates u fuel insideCall sql := by
  induction fuel generalizing insideCall sql with
  | zero => omega
  | succ fuel ih =>
    intro outputs l l'
    rw [translateInner, translateInner, translateRound, translateRound, wholeWithin]
    rw [callsClosedWithin] at hcalls
    cases hfind : findEscape sql with
    | none =>
      refine .ok ⟨sql, sql, rfl, rfl, rfl, rfl, by simp, rfl, id, ?_⟩
      rw [requested_replicate, insertOutputs_replicate]
    | some found =>
      obtain ⟨before, body, after⟩ := found
      obtain ⟨hsql, hbefore, hbody⟩ := findEscape_spec hfind
      obtain ⟨hbodyLength, hafterLength⟩ := length_lt_of_findEscape hfind
      rw [hfind] at hcalls
      dsimp only at hcalls ⊢
      cases hclassify : classify body with
      | error e => exact .error e e
      | ok found =>
        obtain ⟨kind, remainder⟩ := found
        have hremainderLength := length_remainder_le hclassify
        rw [hclassify, Bool.and_eq_true] at hcalls
        obtain ⟨hescape, hafter⟩ := hcalls
        have hone := @translateEscape_agree u outputs body (l.marker + executableMarkerCount before)
          (l'.marker + executableMarkerCount before) fuel insideCall remainder kind hclassify hbody
          (by omega) (fun hkind => ih (by omega) (by rcases hkind with rfl | rfl <;> exact hescape))
          (by
            rintro returnsStatus rfl
            rw [Bool.and_eq_true] at hescape
            refine ⟨ih (by omega) hescape.1, ?_⟩
            intro call hcall
            simpa [hcall] using hescape.2)
        refine hone.bind ?_
        rintro ⟨text, marker, call⟩ ⟨text', marker', call'⟩ h₁
        refine (ih (by omega) hafter outputs _ _).imp ?_
        rintro r r' ⟨t, t', ht, ht', h₂⟩
        refine ⟨before ++ text ++ t, before ++ text' ++ t', ?_, ?_, ?_⟩
        · simp [ht]
        · simp [ht']
        · exact conserves_escape hsql hbefore hbody h₁ h₂

end

/-! ### Statements -/

section

variable {u : CharTables} {sql : List Char}

theorem foldl_pushStep_count (sts : List Step) (acc : List Char × ℕ) :
    (sts.foldl pushStep acc).2 = acc.2 + sts.countP Step.isMarker := by
  induction sts generalizing acc with
  | nil => rfl
  | cons step sts ih =>
    rw [foldl_cons, ih, pushStep]
    split
    · next h =>
      rw [countP_cons_of_pos h]
      omega
    · next h => rw [countP_cons_of_neg h]

theorem rewriteParamMarkersReference_count (sql : List Char) :
    (rewriteParamMarkersReference sql).2 = executableMarkerCount sql := by
  rw [rewriteParamMarkersReference, foldl_pushStep_count, Nat.zero_add, executableMarkerCount]

theorem translateEscapesInner_conserves (h : CallsClosed u sql) {outputs : List Bool}
    {translated : Translated} {marker : ℕ}
    (hok : translateEscapesInner u sql false outputs 0 = .ok (translated, marker)) :
    marker = executableMarkerCount sql ∧
      executableMarkerCount translated.sql = executableMarkerCount sql ∧
      ∃ plain, translateEscapesInner u sql false [] 0 = .ok (plain, marker) ∧
        translated.sql =
          insertOutputs (requested outputs 0 (wholeArguments u sql)) plain.sql := by
  have htranslates : Translates u (sql.length + 1) false sql := translates (Nat.lt_succ_self _) h
  have hboth := htranslates.nested outputs 0 0
  rw [translateEscapesInner] at hok ⊢
  rw [hok] at hboth
  generalize translateInner u [] _ false sql ⟨[], none, 0, true, 0⟩ = x at hboth ⊢
  cases hboth with
  | @ok plain _ hconserves =>
    obtain ⟨plain, marker'⟩ := plain
    have hmarker : marker = executableMarkerCount sql := by simpa using hconserves.marker'
    have hmarker' : marker' = executableMarkerCount sql := by simpa using hconserves.marker
    have htext : translated.sql = _ := hconserves.text
    refine ⟨hmarker, ?_, plain, by rw [hmarker', hmarker], htext⟩
    rw [htext, (sameShape_insertOutputs _ _).count]
    exact hconserves.count

end

end MssqlTds.Odbc
