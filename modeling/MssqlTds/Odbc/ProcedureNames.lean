import MssqlTds.Odbc.CallNames

/-!
# What a valid procedure name can contain

The name in a call escape comes from application SQL and goes into the text of a statement, so
nothing may ride along with it.  Two scanners have to agree on that: the lexer finds the `;` in
front of a group number, and the parser of identifiers finds the parts.  A name that passes both is
one to four parts with dots between them (`IsQualified`), and the lexer is in its normal state
behind it, without a comment on the way and without a `;` of code but the one in front of the group
number (`procedure_name_containment`).

The argument follows the parts: the lexer walks over each of them from the normal state to the
normal state, and the characters of code it sees on the way are those of `NameCode` (`Walks`).
-/

namespace MssqlTds.Odbc

open CodeScan List

/-! ### The grammar of names -/

/-- The parts of a qualified name that are not empty. -/
inductive NamePart (u : CharTables) : List Char → Prop
  | regular {part : List Char} (h : isRegularIdentifier u part = true) : NamePart u part
  | bracketed (body : List Char) : NamePart u ('[' :: (doubled ']' body ++ [']']))
  | quoted (body : List Char) : NamePart u ('"' :: (doubled '"' body ++ ['"']))

/-- One to four parts; an empty one is neither the first nor the last. -/
structure IsQualified (u : CharTables) (parts : List (List Char)) : Prop where
  pos : 1 ≤ parts.length
  le : parts.length ≤ 4
  parts : ∀ (i : ℕ) (h : i < parts.length),
    NamePart u parts[i] ∨ (parts[i] = [] ∧ 0 < i ∧ i + 1 < parts.length)

/-- A group number with the `;` in front of it. -/
def groupText (group : Option (List Char)) : List Char := group.elim [] (List.cons ';')

section

variable {u : CharTables} {t part rest : List Char}

theorem isRegularIdentifier_takeWhile {c : Char} (h : isIdentifierStart u c = true) :
    isRegularIdentifier u ((c :: t).takeWhile (isIdentifierPart u)) = true := by
  rw [takeWhile_cons_of_pos (isIdentifierPart_of_start h), isRegularIdentifier, h,
    Bool.true_and, all_eq_true]
  intro d hd
  exact mem_takeWhile_imp hd

/-- **An identifier is one of the parts**, or empty in front of a dot. -/
theorem takeIdentifier_part (h : takeIdentifier u t = some (part, rest)) :
    NamePart u part ∨ (part = [] ∧ rest.head? = some '.') := by
  rcases takeIdentifier_cases h with ⟨_, _, _, body, hopens, -, -, rfl⟩ |
    ⟨c, t', rfl, hstart, -, -, rfl, -⟩ | ⟨rfl, rfl, hdot⟩
  · cases hopens
    · exact .inl (.bracketed body)
    · exact .inl (.quoted body)
  · exact .inl (.regular (isRegularIdentifier_takeWhile hstart))
  · exact .inr ⟨rfl, hdot⟩

/-! ### The lexer walks over a name -/

/-- What stands in code in a qualified name. -/
def NameCode (u : CharTables) (c : Char) : Prop :=
  isIdentifierPart u c = true ∨ c ∈ ['.', '[', '"']

/-- The lexer gets over a text from the normal state to the normal state, and all characters of
code on the way are those of a name. -/
def Walks (u : CharTables) (part rest : List Char) : Prop :=
  ∃ sts s', Scans (CodeScan.new (part ++ rest)) sts s' ∧ s'.rest = rest ∧ s'.state = .normal ∧
    SameLook s' (CodeScan.new rest) ∧ ∀ step ∈ sts, step.code = true → NameCode u step.ch

theorem walks_nil : Walks u [] rest :=
  ⟨[], _, .refl _, rfl, rfl, ⟨Iff.rfl, Iff.rfl⟩, fun _ h => absurd h not_mem_nil⟩

theorem Walks.append {a b : List Char} (ha : Walks u a (b ++ rest)) (hb : Walks u b rest) :
    Walks u (a ++ b) rest := by
  obtain ⟨sts, s, hscans, hrest, hstate, hlook, hcode⟩ := ha
  obtain ⟨sts', s', hscans', hrest', hstate', hlook', hcode'⟩ := hb
  -- the second walk starts at a fresh scanner, which looks the same as the one behind the first
  obtain ⟨e, he, herest, hestate, helook⟩ :=
    hscans'.congr hrest.symm hstate.symm ⟨hlook.star.symm, hlook.paren.symm⟩
  refine ⟨sts ++ sts', e, ?_, herest ▸ hrest', hestate ▸ hstate', ?_, ?_⟩
  · rw [append_assoc]
    exact hscans.trans he
  · exact ⟨helook.star.symm.trans hlook'.star, helook.paren.symm.trans hlook'.paren⟩
  · intro step hmem
    rcases mem_append.mp hmem with hmem | hmem
    · exact hcode step hmem
    · exact hcode' step hmem

theorem walks_char {c : Char} (hc : Inert c) (hcode : NameCode u c) : Walks u [c] rest := by
  refine ⟨[codeStep c], _, .cons (nextStep_code rfl rfl hc.plain) (.refl _), rfl, rfl,
    (neutral_of_prev1 rfl hc.star hc.paren).sameLook (neutral_new rest), ?_⟩
  intro step hmem _
  obtain rfl := mem_singleton.mp hmem
  exact hcode

theorem walks_word {w : List Char} (hw : ∀ c ∈ w, isIdentifierPart u c = true) :
    Walks u w rest := by
  induction w with
  | nil => exact walks_nil
  | cons c w ih =>
    have hc := hw c mem_cons_self
    exact .append (a := [c]) (walks_char (quiet_of_isIdentifierPart hc).1 (.inl hc))
      (ih fun d hd => hw d (mem_cons_of_mem c hd))

theorem walks_delimited {state : State} {opener closer : Char} (body : List Char)
    (h : Opens state opener closer) (hhead : rest.head? ≠ some closer) :
    Walks u (opener :: (doubled closer body ++ [closer])) rest := by
  obtain ⟨sts, s', hscans, hrest, hstate, hneutral, hquoted⟩ := h.scans body hhead
  refine ⟨_, s', hscans, hrest, hstate, hneutral.sameLook (neutral_new rest), ?_⟩
  intro step hmem hcode
  rcases mem_cons.mp hmem with rfl | hmem
  · exact .inr (by cases h <;> simp [codeStep])
  · rw [hquoted step hmem] at hcode
    cases hcode

/-- Text that no delimited part in front of it goes on into. -/
def Bounds (rest : List Char) : Prop := rest.head? ≠ some ']' ∧ rest.head? ≠ some '"'

/-- **The lexer ends a part where the parser of identifiers ends it.** -/
theorem takeIdentifier_walks {rest' : List Char} (h : takeIdentifier u t = some (part, rest))
    (hbounds : Bounds rest') : Walks u part rest' := by
  rcases takeIdentifier_cases h with ⟨_, _, _, body, hopens, -, -, rfl⟩ |
    ⟨c, t', rfl, -, -, -, rfl, -⟩ | ⟨rfl, -, -⟩
  · refine walks_delimited body hopens ?_
    cases hopens
    · exact hbounds.1
    · exact hbounds.2
  · exact walks_word fun d hd => mem_takeWhile_imp hd
  · exact walks_nil

/-! ### Qualified names -/

/-- **The parts that are counted are the parts of the text**, and the lexer walks over them. -/
theorem countParts_spec {first : Bool} {fuel n : ℕ} (h : countParts u first fuel t = some n) :
    ∃ parts : List (List Char), parts.length = n ∧ 1 ≤ n ∧ t = List.intercalate ['.'] parts ∧
      (∀ (i : ℕ) (h : i < parts.length), NamePart u parts[i] ∨
        (parts[i] = [] ∧ (first = true → 0 < i) ∧ i + 1 < parts.length)) ∧
      ∀ rest', Bounds rest' → Walks u t rest' := by
  induction fuel generalizing t first n with
  | zero => cases h
  | succ fuel ih =>
    obtain ⟨⟨part, rest⟩, hpart, hcount⟩ := Option.bind_eq_some_iff.mp h
    clear h
    dsimp only at hcount
    split at hcount
    · cases hcount
    next hfirst =>
    obtain ⟨rfl, -⟩ := takeIdentifier_passes hpart
    have hkind := takeIdentifier_part hpart
    split at hcount
    · next rest₁ hdot =>
      obtain rfl := stripPrefixChar_eq_some.mp hdot
      obtain ⟨n', hrec, rfl⟩ := Option.map_eq_some_iff.mp hcount
      obtain ⟨parts, rfl, hpos, rfl, hparts, hwalks⟩ := ih hrec
      refine ⟨part :: parts, rfl, by omega, ?_, ?_, ?_⟩
      · obtain ⟨p, ps, rfl⟩ := exists_cons_of_length_pos hpos
        simp
      · intro i hi
        cases i with
        | zero =>
          rcases hkind with hkind | ⟨hempty, -⟩
          · exact .inl hkind
          · exact .inr ⟨hempty, fun hf => absurd ⟨hempty, hf⟩ hfirst, Nat.succ_lt_succ hpos⟩
        | succ i =>
          rcases hparts i (by simpa using hi) with hp | ⟨hempty, -, hlt⟩
          · exact .inl hp
          · exact .inr ⟨hempty, fun _ => Nat.succ_pos i, by simpa using hlt⟩
      · intro rest' hbounds
        refine (takeIdentifier_walks hpart ⟨by simp, by simp⟩).append ?_
        exact .append (a := ['.']) (walks_char quiet_dot.1 (.inr (by simp)))
          (hwalks rest' hbounds)
    · next hdot =>
      split at hcount
      · cases hcount
      next hrest =>
      cases hcount
      have hnil : rest = [] := not_not.mp hrest
      subst hnil
      refine ⟨[part], rfl, le_rfl, by simp, ?_, ?_⟩
      · intro i hi
        have hzero : i = 0 := by simpa using hi
        subst hzero
        rcases hkind with hkind | ⟨-, hhead⟩
        · exact .inl hkind
        · cases hhead
      · intro rest' hbounds
        rw [append_nil]
        exact takeIdentifier_walks hpart hbounds

/-! ### Valid names -/

/-- What a name that was found valid consists of. -/
theorem validateProcedureName_cases {raw name : List Char}
    (h : validateProcedureName u raw = .ok name) :
    ∃ base group n, raw = base ++ groupText group ∧
      (∀ digits ∈ group, digits ≠ [] ∧ ∀ c ∈ digits, c.isDigit = true) ∧
      countParts u true (base.length + 1) base = some n ∧ n ≤ 4 := by
  have hraw := splitGroup_scan raw
  simp only [validateProcedureName] at h
  split at h
  · cases h
  next hgroup =>
  split at h
  · cases h
  split at h
  · cases h
  next n hcount =>
  split at h
  · cases h
  next hn =>
  refine ⟨_, _, n, hraw.symm, ?_, hcount, Nat.le_of_not_lt hn⟩
  intro digits hdigits
  simpa [Option.mem_def.mp hdigits] using hgroup

theorem Walks.closed (h : Walks u part rest) : Closed (part ++ rest) ↔ Closed rest := by
  obtain ⟨sts, s', hscans, hrest, hstate, hlook, -⟩ := h
  exact (EndsNormal.of_scans hscans).trans (EndsNormal.congr hrest hstate hlook)

/-- The characters of code of a whole name. -/
theorem Walks.nameCode (h : Walks u t []) {step : Step} (hmem : step ∈ scan t)
    (hcode : step.code = true) : NameCode u step.ch := by
  obtain ⟨sts, s', hscans, hrest, -, -, hall⟩ := h
  have hsteps := hscans.steps_eq
  rw [steps_of_rest_nil hrest, append_nil, append_nil] at hsteps
  rw [scan, hsteps] at hmem
  exact hall step hmem hcode

theorem NameCode.not_special {c : Char} (h : NameCode u c) : c ∉ [';', '-', '/'] := by
  rcases h with h | h
  · intro hmem
    have hascii : c.toNat < 128 := by
      simp only [mem_cons, not_mem_nil, or_false] at hmem
      rcases hmem with rfl | rfl | rfl <;> decide
    simp only [isIdentifierPart, CharTables.isAlphanumeric, u.isAlphabetic_ascii c hascii,
      u.isNumeric_ascii c hascii] at h
    simp only [mem_cons, not_mem_nil, or_false] at hmem
    rcases hmem with rfl | rfl | rfl <;> revert h <;> decide
  · simp only [mem_cons, not_mem_nil, or_false] at h
    rcases h with rfl | rfl | rfl <;> decide

end

/-! ### Comments -/

def CodeScan.State.isComment : State → Bool
  | .lineComment | .blockComment => true
  | _ => false

/-- A comment is opened by a `-` or a `/` of code. -/
theorem isComment_react {s : CodeScan} {c : Char} {r : List Char}
    (hs : s.state.isComment = false) (hc : s.state = .normal → c ∉ ['-', '/']) :
    (s.react c r).1.isComment = false := by
  unfold react
  cases hstate : s.state with
  | normal =>
    have hc := hc hstate
    simp only [mem_cons, not_mem_nil, or_false, not_or] at hc
    simp only [hc.1, hc.2, false_and, if_false]
    split_ifs <;> rfl
  | lineComment | blockComment =>
    rw [hstate] at hs
    cases hs
  | singleQuote | doubleQuote | bracket =>
    dsimp only
    split_ifs <;> rfl

theorem CodeScan.Scans.isComment {s s' : CodeScan} {sts : List Step} (h : Scans s sts s')
    (hs : s.state.isComment = false)
    (hcode : ∀ step ∈ sts, step.code = true → step.ch ∉ ['-', '/']) :
    s'.state.isComment = false := by
  induction h with
  | refl => exact hs
  | @cons s s₁ s' step sts head tail ih =>
    refine ih ?_ fun st hst => hcode st (mem_cons_of_mem step hst)
    have hstep := hcode step mem_cons_self
    obtain ⟨r, -, hcode, hnext⟩ := nextStep_spec head
    rw [hnext]
    exact isComment_react hs fun hn => hstep (by simpa [hn] using hcode)

/-! ### Containment -/

/-- **What the lexer finds in a name with its group number**: it ends in the normal state and never
gets into a comment, and the only `;` of code is the one in front of the group number. -/
structure Contained (base : List Char) (group : Option (List Char)) : Prop where
  closed : Closed (base ++ groupText group)
  noComment : ∀ sts s, Scans (CodeScan.new (base ++ groupText group)) sts s →
    s.state.isComment = false
  noSemicolon : ∀ step ∈ scan base, step.code = true → step.ch ≠ ';'
  separator : scan (base ++ groupText group) =
    scan base ++ group.elim [] fun digits => codeStep ';' :: digits.map codeStep

section

variable {u : CharTables} {base : List Char} {group : Option (List Char)}

theorem scan_groupText (hclosed : Closed base)
    (hgroup : ∀ digits ∈ group, ∀ c ∈ digits, c.isDigit = true) :
    scan (base ++ groupText group) =
      scan base ++ group.elim [] (fun digits => codeStep ';' :: digits.map codeStep) ∧
    Closed (base ++ groupText group) := by
  cases group with
  | none => simpa [groupText] using hclosed
  | some digits =>
    have hquiet : ∀ c ∈ digits, Quiet c := fun c hc => quiet_of_isDigit (hgroup digits rfl c hc)
    obtain ⟨hscan, hclose⟩ := hclosed.append_sep (b := digits)
      (separator_of_mem (c := ';') (by simp))
    have hdigits := (@scan_quiet_append [] digits hquiet).1
    rw [append_nil] at hdigits
    rw [hdigits, show scan [] = [] from rfl, append_nil] at hscan
    exact ⟨hscan, hclose.mpr (@quiet_text digits hquiet).1⟩

/-- The lexer's findings follow from its walk over the qualified name. -/
theorem contained_of_walks (hwalks : Walks u base [])
    (hgroup : ∀ digits ∈ group, ∀ c ∈ digits, c.isDigit = true) : Contained base group := by
  have hclosed : Closed base := by
    simpa using hwalks.closed.mpr closed_nil
  obtain ⟨hscan, hclosed⟩ := scan_groupText hclosed hgroup
  have hcode : ∀ step ∈ scan (base ++ groupText group), step.code = true →
      step.ch ∉ ['-', '/'] := by
    intro step hmem hstep
    rw [hscan] at hmem
    rcases mem_append.mp hmem with hmem | hmem
    · have hname := (hwalks.nameCode hmem hstep).not_special
      simp only [mem_cons, not_mem_nil, or_false, not_or] at hname ⊢
      exact hname.2
    · cases group with
      | none => exact absurd hmem not_mem_nil
      | some digits =>
        rcases mem_cons.mp hmem with rfl | hmem
        · decide
        · obtain ⟨c, hc, rfl⟩ := mem_map.mp hmem
          have hdigit := hgroup digits rfl c hc
          intro hspecial
          simp only [mem_cons, not_mem_nil, or_false, codeStep] at hspecial
          rcases hspecial with rfl | rfl <;> revert hdigit <;> decide
  refine ⟨hclosed, ?_, ?_, hscan⟩
  · intro sts s hscans
    -- the steps up to here are the first of all steps
    refine hscans.isComment rfl fun step hmem => hcode step ?_
    rw [scan, hscans.steps_eq]
    exact mem_append_left _ hmem
  · intro step hmem hstep hsemicolon
    exact (hwalks.nameCode hmem hstep).not_special (by simp [hsemicolon])

end

/-- **Nothing rides along with a procedure name.**  A valid name is kept as it is; it is one to four
parts with dots between them and a group number behind them or not, and this is what the lexer
finds in it too.  The name at the front of a call body is the front of that body, and is either
valid as it stands or an error. -/
theorem procedure_name_containment (u : CharTables) :
    (∀ raw name, validateProcedureName u raw = .ok name → name = raw ∧
      ∃ parts group, IsQualified u parts ∧
        (∀ digits ∈ group, digits ≠ [] ∧ ∀ c ∈ digits, c.isDigit = true) ∧
        name = List.intercalate ['.'] parts ++ groupText group ∧
        Contained (List.intercalate ['.'] parts) group) ∧
    ∀ body name rest, takeProcName u body = some (name, rest) → body = name ++ rest ∧
      (validateProcedureName u name = .ok name ∨ ∃ e, validateProcedureName u name = .error e) := by
  refine ⟨?_, ?_⟩
  · intro raw name hvalid
    obtain rfl := validateProcedureName_eq_ok hvalid
    obtain ⟨base, group, n, rfl, hgroup, hcount, hn⟩ := validateProcedureName_cases hvalid
    obtain ⟨parts, rfl, hpos, rfl, hparts, hwalks⟩ := countParts_spec hcount
    refine ⟨rfl, parts, group, ⟨hpos, hn, ?_⟩, hgroup, rfl, ?_⟩
    · intro i hi
      rcases hparts i hi with hpart | ⟨hempty, hfirst, hlast⟩
      · exact .inl hpart
      · exact .inr ⟨hempty, hfirst rfl, hlast⟩
    · exact contained_of_walks (hwalks [] ⟨by simp, by simp⟩)
        fun digits hdigits => (hgroup digits hdigits).2
  · intro body name rest htake
    refine ⟨(takeProcName_passes htake).1, ?_⟩
    cases hvalid : validateProcedureName u name with
    | ok name' => exact .inl (by rw [validateProcedureName_eq_ok hvalid])
    | error e => exact .inr ⟨e, rfl⟩

/-- A bracketed database, an empty schema and a group number. -/
def delimitedName : List Char := "[a;--]]]..p;2".toList

theorem procedure_name_containment_delimited :
    validateProcedureName .ascii delimitedName = .ok delimitedName ∧
    takeProcName .ascii (delimitedName ++ ['(', '?', ')']) =
      some (delimitedName, ['(', '?', ')']) ∧
    ∃ parts group, IsQualified .ascii parts ∧
      delimitedName = List.intercalate ['.'] parts ++ groupText group ∧
      Contained (List.intercalate ['.'] parts) group := by
  have hvalid : validateProcedureName .ascii delimitedName = .ok delimitedName := by decide +kernel
  obtain ⟨-, parts, group, hparts, -, htext, hcontained⟩ :=
    (procedure_name_containment .ascii).1 delimitedName delimitedName hvalid
  exact ⟨hvalid, by decide +kernel, parts, group, hparts, htext, hcontained⟩

end MssqlTds.Odbc
