import MssqlTds.Error
import MssqlTds.Lib.Unicode
import MssqlTds.Odbc.Text

/-!
# Escapes that become literals

`{encrypt N'…'}` becomes a hexadecimal literal and `{interval …}` a string literal.
-/

namespace MssqlTds.Odbc

open Unicode

/-- The SQLSTATE of an escape error. -/
inductive SqlState where
  /-- Syntax error. -/
  | s42000
  /-- Invalid value. -/
  | s22018
  /-- Truncation. -/
  | s22001
  deriving DecidableEq, Repr

/-- A malformed or unrecognised escape sequence. -/
structure EscapeError where
  state : SqlState
  message : String
  deriving DecidableEq, Repr

/-- How a translation can fail; `fault` is a Rust panic. -/
inductive EscapeFailure where
  | escape (e : EscapeError)
  | fault (e : Error)
  deriving DecidableEq, Repr

abbrev EscapeResult := Except EscapeFailure

def syntaxError {α : Type} (message : String) : EscapeResult α :=
  .error (.escape ⟨.s42000, message⟩)

/-- `ok_or_else`. -/
def orFail {α : Type} (failure : EscapeResult α) : Option α → EscapeResult α
  | some a => .ok a
  | none => failure

/-! ### Encrypt -/

/-- The obfuscation of a password byte in a login record. -/
def scrambleLoginByte (b : UInt8) : UInt8 := (((b &&& 0x0f) <<< 4) ||| (b >>> 4)) ^^^ 0xa5

/-- The body of a literal whose quote is already read, with doubled quotes undone, and the text
behind it. -/
def takeLiteral : List Char → Option (List Char × List Char)
  | [] => none
  | '\'' :: '\'' :: t => (takeLiteral t).map fun (literal, rest) => ('\'' :: literal, rest)
  | '\'' :: t => some ([], t)
  | c :: t => (takeLiteral t).map fun (literal, rest) => (c :: literal, rest)

def hexDigit (n : ℕ) : Char := "0123456789ABCDEF".toList.getD n '0'

def hexByte (b : UInt8) : List Char := [hexDigit (b.toNat / 16), hexDigit (b.toNat % 16)]

def translateEncrypt (remainder : List Char) : EscapeResult (List Char) := do
  let rest := trimStart remainder
  let rest ← orFail
    (syntaxError "Malformed \x7bencrypt ...\x7d escape: the literal must be prefixed with N")
    (stripPrefixChar 'N' rest <|> stripPrefixChar 'n' rest)
  let rest ← orFail (syntaxError "Malformed \x7bencrypt ...\x7d escape: expected a quoted literal")
    (stripPrefixChar '\'' rest)
  let (literal, rest) ← orFail
    (syntaxError "Malformed \x7bencrypt ...\x7d escape: unterminated literal") (takeLiteral rest)
  if rest.any (!isWhitespace ·) then
    syntaxError "Malformed \x7bencrypt ...\x7d escape: unexpected text after the literal"
  else pure ('0' :: 'x' :: (utf16le literal).flatMap fun b => hexByte (scrambleLoginByte b))

/-! ### Interval -/

inductive IntervalField where
  | year | month | day | hour | minute | second
  deriving DecidableEq, Repr

namespace IntervalField

def parse (word : List Char) : Option IntervalField :=
  if eqIgnoreAsciiCase word "YEAR".toList then some year
  else if eqIgnoreAsciiCase word "MONTH".toList then some month
  else if eqIgnoreAsciiCase word "DAY".toList then some day
  else if eqIgnoreAsciiCase word "HOUR".toList then some hour
  else if eqIgnoreAsciiCase word "MINUTE".toList then some minute
  else if eqIgnoreAsciiCase word "SECOND".toList then some second
  else none

def name : IntervalField → List Char
  | year => "YEAR".toList
  | month => "MONTH".toList
  | day => "DAY".toList
  | hour => "HOUR".toList
  | minute => "MINUTE".toList
  | second => "SECOND".toList

end IntervalField

def maxIntervalPrecision : ℕ := 9
def defaultIntervalPrecision : ℕ := 2
def defaultIntervalScale : ℕ := 6

structure IntervalQualifier where
  leading : IntervalField
  trailing : Option IntervalField
  precision : ℕ
  scale : ℕ

structure IntervalParts where
  leading : ℕ
  month : ℕ
  hour : ℕ
  minute : ℕ
  second : ℕ
  /-- Nanoseconds. -/
  fraction : ℕ

/-- The word in front of a text, and the rest. -/
def takeWord (u : CharTables) (text : List Char) : Option (List Char × List Char) :=
  let text := trimStart text
  let word := text.takeWhile u.isAlphanumeric
  if word = [] then none else some (word, text.dropWhile u.isAlphanumeric)

/-- `(p[,s])` behind the leading field: precision, scale and the rest. -/
def parsePrecision (rest : List Char) : Option (ℕ × ℕ × List Char) :=
  match stripPrefixChar '(' rest with
  | none => some (defaultIntervalPrecision, defaultIntervalScale, rest)
  | some inner => do
    let (spec, remainder) ← splitOnce ')' inner
    match spec.splitOn ',' with
    | [precision] =>
      pure (← parseUnsigned 32 (trim precision), defaultIntervalScale, trimStart remainder)
    | [precision, scale] =>
      pure (← parseUnsigned 32 (trim precision), ← parseUnsigned 32 (trim scale),
        trimStart remainder)
    | _ => none

/-- `(s)` behind the trailing field: the scale and the rest. -/
def parseScale (scale : ℕ) (trailing : IntervalField) (rest : List Char) :
    Option (ℕ × List Char) :=
  match stripPrefixChar '(' rest with
  | some inner => do
    let (spec, remainder) ← splitOnce ')' inner
    pure (← parseUnsigned 32 (trim spec), trimStart remainder)
  | none => some (if trailing ≠ .second then 0 else scale, rest)

/-- Parse `FIELD [(p[,s])] [TO FIELD [(s)]]`. -/
def parseIntervalQualifier (u : CharTables) (text : List Char) : Option IntervalQualifier := do
  let (leadingWord, rest) ← takeWord u (trim text)
  let leading ← IntervalField.parse leadingWord
  let (precision, scale, rest) ← parsePrecision (trimStart rest)
  if rest = [] then
    pure ⟨leading, none, precision, if leading ≠ .second then 0 else scale⟩
  else
    let (toWord, rest) ← takeWord u rest
    if !eqIgnoreAsciiCase toWord "TO".toList then none
    else
      let (trailingWord, rest) ← takeWord u (trimStart rest)
      let trailing ← IntervalField.parse trailingWord
      let (scale, rest) ← parseScale scale trailing (trimStart rest)
      if rest ≠ [] then none
      else pure ⟨leading, some trailing, precision, if trailing ≠ .second then 0 else scale⟩

/-- The fields of a value of the given shape. -/
def intervalFields (leading : IntervalField) (trailing : Option IntervalField)
    (value : List Char) : Option (List (List Char)) :=
  match leading, trailing with
  | _, none => some [value]
  | .year, some .month => some (value.splitOn '-')
  | .day, some .hour => some (value.splitOn ' ')
  | .day, some .minute | .day, some .second => do
    let (day, time) ← splitOnce ' ' value
    pure (day :: time.splitOn ':')
  | .hour, some .minute | .hour, some .second | .minute, some .second => some (value.splitOn ':')
  | _, _ => none

def expectedFields (leading : IntervalField) (trailing : Option IntervalField) : ℕ :=
  match leading, trailing with
  | _, none => 1
  | .day, some .minute => 3
  | .day, some .second => 4
  | .hour, some .second => 3
  | _, _ => 2

/-- Where the numbers of a value go. -/
def intervalParts (leading : IntervalField) (trailing : Option IntervalField) (fraction : ℕ)
    (nums : List ℕ) : Option IntervalParts :=
  match leading, trailing, nums with
  | _, none, n :: _ => some ⟨n, 0, 0, 0, 0, fraction⟩
  | .year, some .month, n :: month :: _ => some ⟨n, month, 0, 0, 0, fraction⟩
  | .day, some .hour, n :: hour :: _ => some ⟨n, 0, hour, 0, 0, fraction⟩
  | .day, some .minute, n :: hour :: minute :: _ => some ⟨n, 0, hour, minute, 0, fraction⟩
  | .day, some .second, n :: hour :: minute :: second :: _ =>
    some ⟨n, 0, hour, minute, second, fraction⟩
  | .hour, some .minute, n :: minute :: _ => some ⟨n, 0, 0, minute, 0, fraction⟩
  | .hour, some .second, n :: minute :: second :: _ => some ⟨n, 0, 0, minute, second, fraction⟩
  | .minute, some .second, n :: second :: _ => some ⟨n, 0, 0, 0, second, fraction⟩
  | _, _, _ => none

def isNumber (t : List Char) : Bool := t ≠ [] && t.all (·.isDigit)

/-- The nanoseconds of a fraction, which only a value that ends in seconds may have. -/
def parseFraction (leading : IntervalField) (trailing : Option IntervalField) :
    Option (List Char) → Option ℕ
  | none => some 0
  | some f =>
    let endsInSecond := trailing = some .second ∨ (trailing = none ∧ leading = .second)
    if ¬ endsInSecond ∨ f = [] ∨ f.length > maxIntervalPrecision ∨ f.any (!·.isDigit) then none
    else (parseUnsigned 32 f).map (· * 10 ^ (maxIntervalPrecision - f.length))

/-- Parse the quoted value against the shape its qualifier implies. -/
def parseIntervalValue (value : List Char) (leading : IntervalField)
    (trailing : Option IntervalField) : Option IntervalParts := do
  let (value, fractionText) := match splitOnce '.' value with
    | some (v, f) => (v, some f)
    | none => (value, none)
  let fraction ← parseFraction leading trailing fractionText
  let fields ← intervalFields leading trailing value
  if fields.length ≠ expectedFields leading trailing ∨ fields.any (!isNumber ·) then none
  else intervalParts leading trailing fraction (← fields.mapM (parseUnsigned 64))

def intervalValueText (q : IntervalQualifier) (parts : IntervalParts) (fraction : List Char) :
    Option (List Char) :=
  let leading := (toString parts.leading).toList
  match q.leading, q.trailing with
  | .second, none => some (leading ++ fraction)
  | _, none => some leading
  | .year, some .month => some (leading ++ '-' :: padded 2 parts.month)
  | .day, some .hour => some (leading ++ ' ' :: padded 2 parts.hour)
  | .day, some .minute =>
    some (leading ++ ' ' :: padded 2 parts.hour ++ ':' :: padded 2 parts.minute)
  | .day, some .second =>
    some (leading ++ ' ' :: padded 2 parts.hour ++ ':' :: padded 2 parts.minute ++
      ':' :: padded 2 parts.second ++ fraction)
  | .hour, some .minute => some (leading ++ ':' :: padded 2 parts.minute)
  | .hour, some .second =>
    some (leading ++ ':' :: padded 2 parts.minute ++ ':' :: padded 2 parts.second ++ fraction)
  | .minute, some .second => some (leading ++ ':' :: padded 2 parts.second ++ fraction)
  | _, _ => none

/-- The qualifier of an interval, in the form in which it is sent. -/
def intervalQualifierText (q : IntervalQualifier) : List Char :=
  let precision := (toString q.precision).toList
  let scale := (toString q.scale).toList
  match q.leading, q.trailing with
  | .second, none => "SECOND(".toList ++ precision ++ ',' :: scale ++ ")".toList
  | f, none => f.name ++ '(' :: precision ++ ")".toList
  | f, some .second =>
    f.name ++ '(' :: precision ++ ") TO SECOND(".toList ++ scale ++ ")".toList
  | f, some g => f.name ++ '(' :: precision ++ ") TO ".toList ++ g.name

/-- `{interval …}` as a string literal; `body` is all that stands between the braces. -/
def translateInterval (u : CharTables) (body : List Char) : EscapeResult (List Char) := do
  let malformed {α : Type} : EscapeResult α := .error (.escape ⟨.s22018,
    "Invalid interval value in ODBC escape '\x7b" ++ String.ofList body ++ "\x7d'"⟩)
  let rest := trimStart body
  let rest ← orFail malformed
    (if eqIgnoreAsciiCase (rest.take 8) "interval".toList then some (rest.drop 8) else none)
  let rest := trimStart rest
  let (negative, rest) := match stripPrefixChar '-' rest with
    | some r => (true, r)
    | none => (false, (stripPrefixChar '+' rest).getD rest)
  let rest ← orFail malformed (stripPrefixChar '\'' (trimStart rest))
  let (value, rest) ← orFail malformed (splitOnce '\'' rest)
  let q ← orFail malformed (parseIntervalQualifier u rest)
  if q.precision > maxIntervalPrecision ∨ q.scale > maxIntervalPrecision then malformed
  else
    let parts ← orFail malformed (parseIntervalValue (trim value) q.leading q.trailing)
    if parts.leading ≥ 10 ^ q.precision then malformed
    else if q.trailing = some .month ∧ parts.month > 11 then malformed
    else if parts.hour > 23 ∨ parts.minute > 59 ∨ parts.second > 59 then malformed
    else if parts.fraction % 10 ^ (maxIntervalPrecision - q.scale) ≠ 0 then
      .error (.escape ⟨.s22001, "Fractional seconds in ODBC escape '\x7b" ++ String.ofList body ++
        "\x7d' exceed the declared scale of " ++ toString q.scale⟩)
    else
      let fraction :=
        if q.scale = 0 then [] else ('.' :: padded 9 parts.fraction).take (q.scale + 1)
      let text ← orFail malformed (intervalValueText q parts fraction)
      pure ("'INTERVAL ".toList ++ (if negative then '-' else '+') :: "''".toList ++ text ++
        "'' ".toList ++ intervalQualifierText q ++ "'".toList)

end MssqlTds.Odbc
