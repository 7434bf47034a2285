import MssqlTds.Odbc.EscapeLiterals
import MssqlTds.Odbc.ParamMarkers

/-!
# Translation of ODBC escape sequences

Escapes are constructs in braces.  Most of them the server knows and they are passed through, with
the escapes inside them translated; `{escape …}`, `{interval …}`, `{encrypt …}` and `{call …}` are
rewritten.  Parameter markers stay; they are rewritten afterwards, on execution.

A text is cut where the source keeps byte offsets into it: `findEscape` gives the text before an
escape, its body and the text behind it.  The recursion is bounded by the length of the text, which
`translateInner_fuel` shows to be enough.
-/

namespace MssqlTds.Odbc

open CodeScan

/-! ### Procedure names -/

section Names

variable (u : CharTables)

def isIdentifierStart (c : Char) : Bool := u.isAlphabetic c || c ∈ ['_', '#', '@']

def isIdentifierPart (c : Char) : Bool := u.isAlphanumeric c || c ∈ ['_', '#', '@', '$']

def isRegularIdentifier : List Char → Bool
  | c :: t => isIdentifierStart u c && t.all (isIdentifierPart u)
  | [] => false

/-- The rest of a delimited identifier, up to the closer; a doubled closer is an escaped one. -/
def takeDelimited (closer : Char) : List Char → Option (List Char × List Char)
  | [] => none
  | [c] => if c = closer then some ([c], []) else none
  | c :: d :: t =>
    if c = closer then
      if d = closer then (takeDelimited closer t).map fun (part, rest) => (c :: d :: part, rest)
      else some ([c], d :: t)
    else (takeDelimited closer (d :: t)).map fun (part, rest) => (c :: part, rest)

/-- Take one identifier off the front: regular, bracketed or quoted. -/
def takeIdentifier : List Char → Option (List Char × List Char)
  | [] => none
  | c :: t =>
    if c = '[' then (takeDelimited ']' t).map fun (part, rest) => (c :: part, rest)
    else if c = '"' then (takeDelimited '"' t).map fun (part, rest) => (c :: part, rest)
    else if isIdentifierStart u c then
      some ((c :: t).takeWhile (isIdentifierPart u), (c :: t).dropWhile (isIdentifierPart u))
    -- an empty part is legal in the middle of a qualified name
    else if c = '.' then some ([], c :: t)
    else none

/-- Identifiers with dots between them. -/
def takeQualified : ℕ → List Char → Option (List Char × List Char)
  | 0, _ => none
  | fuel + 1, text => do
    let (part, rest) ← takeIdentifier u text
    match stripPrefixChar '.' rest with
    | none => pure (part, rest)
    | some rest =>
      let (parts, rest) ← takeQualified fuel rest
      pure (part ++ '.' :: parts, rest)

/-- Take a whole `[db.][schema.]name[;n]` off the front. -/
def takeProcName (text : List Char) : Option (List Char × List Char) := do
  let (name, rest) ← takeQualified u (text.length + 1) text
  if name = [] then none
  else match stripPrefixChar ';' rest with
    | none => pure (name, rest)
    | some after =>
      let digits := after.takeWhile (·.isDigit)
      if digits ≠ [] then pure (name ++ ';' :: digits, after.dropWhile (·.isDigit))
      else pure (name, rest)

/-- The number of parts of a qualified name that has nothing behind it. -/
def countParts (first : Bool) : ℕ → List Char → Option ℕ
  | 0, _ => none
  | fuel + 1, text => do
    let (part, rest) ← takeIdentifier u text
    if part = [] ∧ first then none
    else match stripPrefixChar '.' rest with
      | some rest => (countParts false fuel rest).map (· + 1)
      | none => if rest ≠ [] then none else some 1

/-- The text in front of the first `;` that is code, and behind it. -/
def splitGroup : List Step → List Char × Option (List Char)
  | [] => ([], none)
  | step :: sts =>
    if step.code ∧ step.ch = ';' then ([], some (textOf sts))
    else
      let (name, group) := splitGroup sts
      (step.text ++ name, group)

def validateProcedureName (raw : List Char) : EscapeResult (List Char) :=
  let invalid := syntaxError
    ("Invalid procedure name '" ++ String.ofList raw ++ "' in \x7bcall ...\x7d")
  let (name, group) := splitGroup (scan raw)
  if group.any fun group => group = [] || group.any (!·.isDigit) then invalid
  else if name = [] then invalid
  else match countParts u true (name.length + 1) name with
    | none => invalid
    | some parts =>
      if parts > 4 then invalid
      else .ok (match group with
        | some group => name ++ ';' :: group
        | none => name)

end Names

/-! ### Calls -/

/-- One argument of a canonical call, with its trimmed text. -/
inductive CallArg where
  /-- A parameter marker, optionally named. -/
  | marker (name : Option (List Char)) (text : List Char)
  /-- An omitted argument or `DEFAULT`. -/
  | default
  | text (text : List Char)
  deriving DecidableEq, Repr

/-- A canonical procedure call recovered from `{[? =] call name(args…)}`. -/
structure CallSite where
  procName : List Char
  returnsStatus : Bool
  args : List CallArg
  deriving DecidableEq, Repr

structure Translated where
  sql : List Char
  /-- Set when the whole statement is a single canonical call. -/
  call : Option CallSite
  deriving DecidableEq, Repr

def executableMarkerCount (sql : List Char) : ℕ := (scan sql).countP Step.isMarker

/-- Cut steps at the commas outside of parentheses; gives the arguments and the final depth. -/
def splitArgs : List Step → ℤ → List Char → List (List Char) × ℤ
  | [], depth, current => ([current], depth)
  | step :: sts, depth, current =>
    if step.code ∧ step.ch = ',' ∧ depth = 0 then
      let (args, depth) := splitArgs sts depth []
      (current :: args, depth)
    else
      let depth :=
        if step.code ∧ (step.ch = '(' ∨ step.ch = '\x7b') then depth + 1
        else if step.code ∧ (step.ch = ')' ∨ step.ch = '\x7d') then depth - 1
        else depth
      splitArgs sts depth (current ++ step.text)

/-- Split the arguments of a call at its top-level commas. -/
def splitCallArgs (inner : List Char) : EscapeResult (List (List Char)) :=
  if trim inner = [] then .ok []
  else
    let (args, depth) := splitArgs (scan inner) 0 []
    if depth ≠ 0 then
      syntaxError
        "Malformed \x7bcall ...\x7d escape: unbalanced parentheses in the argument list"
    else .ok args

def classifyCallArg (u : CharTables) (arg : List Char) : CallArg :=
  let trimmed := trim arg
  if trimmed = [] ∨ eqIgnoreAsciiCase trimmed "DEFAULT".toList then .default
  else if trimmed = ['?'] then .marker none trimmed
  else
    let named := do
      let rest ← stripPrefixChar '@' trimmed
      let (name, value) ← splitOnce '=' rest
      if trim value = ['?'] ∧ trim name ≠ [] ∧ isRegularIdentifier u (trim name) then
        some ('@' :: trim name)
      else none
    match named with
    | some name => .marker (some name) trimmed
    | none => .text trimmed

/-- Parse `proc[;n] [(arg[,arg…])]`, all that follows the `call` keyword. -/
def parseCall (u : CharTables) (remainder : List Char) (returnsStatus : Bool) :
    EscapeResult CallSite := do
  let (rawName, rest) ← orFail
    (syntaxError "Malformed \x7bcall ...\x7d escape: the procedure name is missing")
    (takeProcName u (trimStart remainder))
  let procName ← validateProcedureName u rawName
  let rest := trimStart rest
  if rest = [] then pure ⟨procName, returnsStatus, []⟩
  else
    let inner ← orFail (syntaxError ("Malformed \x7bcall ...\x7d escape: expected '(' or end of " ++
      "sequence after the procedure name")) (stripPrefixChar '(' rest)
    let inner ← orFail
      (syntaxError "Malformed \x7bcall ...\x7d escape: the argument list is not closed")
      (stripSuffixChar ')' (trimEnd inner))
    let args ← splitCallArgs inner
    pure ⟨procName, returnsStatus, args.map (classifyCallArg u)⟩

/-- The text of the arguments from the marker with the given ordinal on. -/
def argTexts (outputs : List Bool) : ℕ → List CallArg → List (List Char)
  | _, [] => []
  | marker, .marker _ text :: args =>
    (text ++ if outputs.getD marker false then " OUTPUT".toList else []) ::
      argTexts outputs (marker + 1) args
  | marker, .text text :: args =>
    text :: argTexts outputs (marker + executableMarkerCount text) args
  | marker, .default :: args => "DEFAULT".toList :: argTexts outputs marker args

/-- A call as `EXEC` text; bound output arguments get `OUTPUT`. -/
def callToExecTextWithOutputs (call : CallSite) (outputs : List Bool) (marker : ℕ) : List Char :=
  "EXEC ".toList ++ (if call.returnsStatus then "?=".toList else []) ++ call.procName ++
    ' ' :: List.intercalate [','] (argTexts outputs marker call.args) ++
      if call.args ≠ [] then [' '] else []

/-! ### Escapes -/

/-- Read up to the brace that closes the escape; gives its body and the text behind it. -/
def closeEscape : List Step → ℕ → List Char → Option (List Char × List Char)
  | [], _, _ => none
  | step :: sts, depth, body =>
    if step.code ∧ step.ch = '\x7b' then closeEscape sts (depth + 1) (body ++ step.text)
    else if step.code ∧ step.ch = '\x7d' then
      if depth = 0 then some (body, textOf sts)
      else closeEscape sts (depth - 1) (body ++ step.text)
    else closeEscape sts depth (body ++ step.text)

def openEscape : List Step → List Char → Option (List Char × List Char × List Char)
  | [], _ => none
  | step :: sts, before =>
    if step.code ∧ step.ch = '\x7b' then
      (closeEscape sts 0 []).map fun (body, after) => (before, body, after)
    else openEscape sts (before ++ step.text)

/-- Find the next escape: the text before it, its body and the text behind it.  A brace that is
never closed is no escape. -/
def findEscape (sql : List Char) : Option (List Char × List Char × List Char) :=
  openEscape (scan sql) []

inductive EscapeKind where
  | fn
  /-- Date, time, identifier and join escapes, which the server knows. -/
  | passThrough
  | escape
  | interval
  | encrypt
  | call (returnsStatus : Bool)
  deriving DecidableEq, Repr

def isTagEnd (c : Char) : Bool := isWhitespace c || c ∈ ['(', '\'', '"', '\x7b']

/-- The leading tag of an escape body, and the remainder. -/
def splitTag (body : List Char) : Option (List Char × List Char) :=
  let trimmed := trimStart body
  let tag := trimmed.takeWhile (!isTagEnd ·)
  if tag = [] then none else some (tag, trimmed.dropWhile (!isTagEnd ·))

def tagKind (tag : List Char) : Option EscapeKind :=
  if eqIgnoreAsciiCase tag "d".toList ∨ eqIgnoreAsciiCase tag "t".toList then some .passThrough
  else if eqIgnoreAsciiCase tag "fn".toList then some .fn
  else if eqIgnoreAsciiCase tag "oj".toList ∨ eqIgnoreAsciiCase tag "ts".toList then
    some .passThrough
  else if eqIgnoreAsciiCase tag "call".toList then some (.call false)
  else if eqIgnoreAsciiCase tag "guid".toList then some .passThrough
  else if eqIgnoreAsciiCase tag "escape".toList then some .escape
  else if eqIgnoreAsciiCase tag "encrypt".toList then some .encrypt
  else if eqIgnoreAsciiCase tag "interval".toList then some .interval
  else none

def classify (body : List Char) : EscapeResult (EscapeKind × List Char) :=
  match stripPrefixChar '?' (trimStart body) with
  | some rest => do
    let rest ← orFail
      (syntaxError "Malformed ODBC escape: expected '=' after '?' in \x7b? = call ...\x7d")
      (stripPrefixChar '=' (trimStart rest))
    let (tag, remainder) ← orFail
      (syntaxError "Malformed ODBC escape: expected 'call' after '?=' ") (splitTag (trimStart rest))
    if !eqIgnoreAsciiCase tag "call".toList then
      syntaxError ("Malformed ODBC escape: expected 'call' after '?=', found '" ++
        String.ofList tag ++ "'")
    else pure (.call true, remainder)
  | none => do
    let (tag, remainder) ← orFail
      (syntaxError "Malformed ODBC escape: the sequence has no keyword") (splitTag body)
    let kind ← orFail
      (syntaxError ("Unrecognized ODBC escape sequence '" ++ String.ofList tag ++ "'"))
      (tagKind tag)
    pure (kind, remainder)

def maxEscapeDepth : ℕ := 64

/-- The depth of the braces along some steps; nothing if it gets too deep. -/
def nestingDepth : List Step → ℕ → Option ℕ
  | [], depth => some depth
  | step :: sts, depth =>
    if step.code ∧ step.ch = '\x7b' then
      if depth + 1 > maxEscapeDepth then none else nestingDepth sts (depth + 1)
    else if step.code ∧ step.ch = '\x7d' then nestingDepth sts (depth - 1)
    else nestingDepth sts depth

def validateNesting (sql : List Char) : EscapeResult Unit :=
  if nestingDepth (scan sql) 0 = none then syntaxError "ODBC escape nesting exceeds 64 levels"
  else .ok ()

def isBlankOrSeparator (text : List Char) : Bool := text.all fun c => isWhitespace c || c = ';'

/-- Translated text is surrounded by spaces. -/
def surrounded (text : List Char) : List Char := ' ' :: text ++ [' ']

structure TranslateLoop where
  out : List Char
  onlyCall : Option CallSite
  escapeCount : ℕ
  outsideIsBlank : Bool
  /-- Executable markers so far. -/
  marker : ℕ

/-- What replaces an escape: the text, the number of the next marker, and the call if it is one.
`nested` translates a text inside the escape from the marker with the given number on. -/
def translateEscape (u : CharTables) (outputs : List Bool)
    (nested : Bool → List Char → ℕ → EscapeResult (Translated × ℕ)) (insideCall : Bool)
    (body : List Char) (kind : EscapeKind) (remainder : List Char) (marker : ℕ) :
    EscapeResult (List Char × ℕ × Option CallSite) :=
  match kind with
  | .fn | .passThrough =>
    if insideCall ∧ kind = .fn then
      syntaxError "The \x7bfn ...\x7d escape is not allowed inside a canonical procedure call"
    else do
      let (translated, marker) ← nested insideCall body marker
      pure ('\x7b' :: translated.sql ++ ['\x7d'], marker, none)
  | .escape =>
    pure (surrounded ("ESCAPE".toList ++ remainder), marker + executableMarkerCount remainder, none)
  | .interval =>
    if insideCall then
      pure ('\x7b' :: body ++ ['\x7d'], marker + executableMarkerCount body, none)
    else do
      let text ← translateInterval u body
      pure (surrounded text, marker, none)
  | .encrypt => do
    let text ← translateEncrypt remainder
    pure (surrounded text, marker, none)
  | .call returnsStatus => do
    let firstArgMarker := if returnsStatus then marker + 1 else marker
    let (translated, marker) ← nested true remainder firstArgMarker
    let call ← parseCall u translated.sql returnsStatus
    pure (surrounded (callToExecTextWithOutputs call outputs firstArgMarker), marker, some call)

/-- One round of the loop at `l`: the text up to the next escape and the escape, or all of the text.
`next` goes on behind the escape. -/
def translateRound (u : CharTables) (outputs : List Bool)
    (nested : Bool → List Char → ℕ → EscapeResult (Translated × ℕ))
    (next : List Char → TranslateLoop → EscapeResult (Translated × ℕ)) (insideCall : Bool)
    (sql : List Char) (l : TranslateLoop) : EscapeResult (Translated × ℕ) :=
  match findEscape sql with
  | none =>
    let outsideIsBlank := l.outsideIsBlank && isBlankOrSeparator sql
    let call := if l.escapeCount = 1 ∧ outsideIsBlank then l.onlyCall else none
    .ok (⟨l.out ++ sql, call⟩, l.marker + executableMarkerCount sql)
  | some (before, body, after) => do
    let (kind, remainder) ← classify body
    let (text, marker, call) ← translateEscape u outputs nested insideCall body kind remainder
      (l.marker + executableMarkerCount before)
    let escapeCount := l.escapeCount + 1
    next after {
      out := l.out ++ before ++ text
      onlyCall := if escapeCount = 1 ∧ call.isSome then call else l.onlyCall
      escapeCount
      outsideIsBlank := l.outsideIsBlank && isBlankOrSeparator before
      marker }

/-- Translate the escapes of a text, the loop being at `l`; gives the number of the next marker
too. -/
def translateInner (u : CharTables) (outputs : List Bool) :
    ℕ → Bool → List Char → TranslateLoop → EscapeResult (Translated × ℕ)
  | 0, _, _, _ => .error (.fault .outOfFuel)
  | fuel + 1, insideCall, sql, l =>
    translateRound u outputs
      (fun insideCall sql marker =>
        translateInner u outputs fuel insideCall sql ⟨[], none, 0, true, marker⟩)
      (translateInner u outputs fuel insideCall) insideCall sql l

def translateEscapesInner (u : CharTables) (sql : List Char) (insideCall : Bool)
    (outputs : List Bool) (marker : ℕ) : EscapeResult (Translated × ℕ) :=
  translateInner u outputs (sql.length + 1) insideCall sql ⟨[], none, 0, true, marker⟩

/-- Translate the escapes of a statement, leaving its markers alone. -/
def translateEscapes (u : CharTables) (sql : List Char) : EscapeResult Translated := do
  validateNesting sql
  let (translated, _) ← translateEscapesInner u sql false [] 0
  pure translated

def rewriteMarkers (sql : List Char) : EscapeResult (List Char × ℕ) :=
  match rewriteParamMarkers sql with
  | .ok result => .ok result
  | .error e => .error (.fault e)

/-- Translate a statement for execution: the text with its markers rewritten, their number, and the
call it consists of.  Without a brace there is nothing to translate. -/
def translateForExecution (u : CharTables) (sql : List Char) (noscan : Bool) (outputs : List Bool) :
    EscapeResult (List Char × ℕ × Option CallSite) :=
  if noscan || !(Unicode.asBytes sql).any (isOneOf ['\x7b']) then do
    let (rewritten, count) ← rewriteMarkers sql
    pure (rewritten, count, none)
  else do
    validateNesting sql
    let (translated, _) ← translateEscapesInner u sql false outputs 0
    let (rewritten, count) ← rewriteMarkers translated.sql
    pure (rewritten, count, translated.call)

/-- The translation without the shortcut and with the reference rewrite. -/
def translateForExecutionReference (u : CharTables) (sql : List Char) (outputs : List Bool) :
    EscapeResult (List Char × ℕ × Option CallSite) := do
  validateNesting sql
  let (translated, _) ← translateEscapesInner u sql false outputs 0
  let (rewritten, count) := rewriteParamMarkersReference translated.sql
  pure (rewritten, count, translated.call)

/-! ### The shortcut and the byte loop change nothing -/

theorem rewriteMarkers_eq (sql : List Char) :
    rewriteMarkers sql = .ok (rewriteParamMarkersReference sql) := by
  rw [rewriteMarkers, rewriteParamMarkers_eq]

section NoBrace

variable {sts : List Step} (h : ∀ step ∈ sts, step.ch ≠ '\x7b')

include h

theorem openEscape_eq_none (before : List Char) : openEscape sts before = none := by
  induction sts generalizing before with
  | nil => rfl
  | cons step sts ih =>
    rw [openEscape, if_neg fun hbrace => h step List.mem_cons_self hbrace.2]
    exact ih (fun st hst => h st (List.mem_cons_of_mem step hst)) _

theorem nestingDepth_ne_none (depth : ℕ) : nestingDepth sts depth ≠ none := by
  induction sts generalizing depth with
  | nil => simp [nestingDepth]
  | cons step sts ih =>
    have ih := ih fun st hst => h st (List.mem_cons_of_mem step hst)
    rw [nestingDepth, if_neg fun hbrace => h step List.mem_cons_self hbrace.2]
    split
    · exact ih _
    · exact ih _

end NoBrace

/-- A text without braces has no escapes. -/
theorem scan_no_brace {sql : List Char} (h : (Unicode.asBytes sql).any (isOneOf ['\x7b']) = false) :
    ∀ step ∈ scan sql, step.ch ≠ '\x7b' := by
  intro step hstep hch
  have hmem : step.ch ∈ sql := by
    rw [show sql = (CodeScan.new sql).rest from rfl, ← textOf_steps (CodeScan.new sql)]
    exact List.mem_flatMap.mpr ⟨step, hstep, ch_mem_text hstep⟩
  have hbyte : Unicode.byteOf '\x7b' ∈ Unicode.asBytes sql :=
    List.mem_flatMap.mpr ⟨'\x7b', hch ▸ hmem, by simp [Unicode.utf8EncodeChar_ascii]⟩
  have hany : (Unicode.asBytes sql).any (isOneOf ['\x7b']) = true :=
    List.any_eq_true.mpr ⟨_, hbyte, by simp [isOneOf]⟩
  rw [h] at hany
  cases hany

/-- The shortcut for text without braces changes nothing. -/
theorem translateForExecution_eq (u : CharTables) (sql : List Char) (outputs : List Bool) :
    translateForExecution u sql false outputs = translateForExecutionReference u sql outputs := by
  unfold translateForExecution translateForExecutionReference
  by_cases hbrace : (Unicode.asBytes sql).any (isOneOf ['\x7b']) = true
  · simp only [rewriteMarkers_eq]
    rw [if_neg (by simp [hbrace])]
    rfl
  · have hnone := scan_no_brace (Bool.eq_false_iff.mpr hbrace)
    have hnesting : validateNesting sql = .ok () := by
      rw [validateNesting, if_neg (nestingDepth_ne_none hnone 0)]
    have htranslate : translateEscapesInner u sql false outputs 0
        = .ok (⟨sql, none⟩, executableMarkerCount sql) := by
      rw [translateEscapesInner, translateInner, translateRound, findEscape,
        openEscape_eq_none hnone]
      simp
    rw [if_pos (by simpa using hbrace), hnesting, htranslate, rewriteMarkers_eq]
    rfl

/-- The byte loop and the step-by-step rewrite agree on every text, and so do the translation for
execution and its reference. -/
theorem translation_agrees (u : CharTables) (sql : List Char) :
    rewriteParamMarkers sql = .ok (rewriteParamMarkersReference sql) ∧
      ∀ outputs, translateForExecution u sql false outputs =
        translateForExecutionReference u sql outputs :=
  ⟨rewriteParamMarkers_eq sql, translateForExecution_eq u sql⟩

end MssqlTds.Odbc
