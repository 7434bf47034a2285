import MssqlTds.Error
import MssqlTds.Lib.Utf8Slice
import MssqlTds.Odbc.CodeScan

/-!
# Rewriting parameter markers

Every executable `?` of a statement becomes `@P1`, `@P2`, and so on.  `rewriteParamMarkersReference`
does so step by step with `CodeScan`.  `rewriteParamMarkers` looks at the bytes of the text instead:
it searches for the next delimiter, skips whole literals and comments, and copies what lies between
two markers in one piece.

* `Aligned` : where the byte loop stands in terms of a scanner.
* `rewriteStep_aligned` : one round of the loop is some steps of the scanner.
* `rewriteParamMarkers_eq` : both give the same text and count, and no slice is cut inside a
  character.
-/

namespace MssqlTds.Odbc

open Unicode CodeScan List

/-! ### The reference -/

def paramName (count : ℕ) : List Char := '@' :: 'P' :: (toString count).toList

/-- Append a step to the rewritten text. -/
def pushStep (acc : List Char × ℕ) (step : Step) : List Char × ℕ :=
  if step.isMarker then (acc.1 ++ paramName (acc.2 + 1), acc.2 + 1)
  else (acc.1 ++ step.text, acc.2)

def rewriteParamMarkersReference (sql : List Char) : List Char × ℕ :=
  (scan sql).foldl pushStep ([], 0)

/-! ### The byte loop -/

/-- `&sql[start..stop]`. -/
def strSlice (sql : List Char) (start stop : ℕ) : TdsResult (List Char) :=
  match slice sql start stop with
  | some piece => .ok piece
  | none => .error (.panic "byte index is not a char boundary")

/-- `bytes[start..].iter().position(p)`. -/
def positionFrom (bytes : List UInt8) (start : ℕ) (p : UInt8 → Bool) : TdsResult (Option ℕ) :=
  if start ≤ bytes.length then .ok ((bytes.drop start).findIdx? p)
  else .error (.panic "range start index out of range")

def isOneOf (chars : List Char) (b : UInt8) : Bool := (chars.map byteOf).contains b

/-- The offset behind the closer of a quoted region whose body starts at `start`; a doubled closer
is an escaped one.  An unterminated region runs to the end of the text. -/
def skipQuotedWithin (bytes : List UInt8) (closer : Char) : ℕ → ℕ → TdsResult ℕ
  | 0, _ => .error .outOfFuel
  | fuel + 1, start => do
    match ← positionFrom bytes start (isOneOf [closer]) with
    | none => pure bytes.length
    | some i =>
      let close := start + i
      if bytes[close + 1]? ≠ some (byteOf closer) then pure (close + 1)
      else skipQuotedWithin bytes closer fuel (close + 2)

def skipQuoted (bytes : List UInt8) (start : ℕ) (closer : Char) : TdsResult ℕ :=
  skipQuotedWithin bytes closer (bytes.length + 1) start

/-- Whether the code `--` at `pos` stays code because it opens `--(*` or closes `*)--`.  What the
scanner looks behind at is a lone `*` or the `*/` of a block comment. -/
def isCanonicalExtensionDash (bytes : List UInt8) (pos : ℕ) (blockCommentEnd : Option ℕ) : Bool :=
  let opens := bytes[pos + 2]? = some (byteOf '(') ∧ bytes[pos + 3]? = some (byteOf '*')
  let closes := pos ≥ 2 ∧ bytes[pos - 1]? = some (byteOf ')') ∧
    (bytes[pos - 2]? = some (byteOf '*') ∨ blockCommentEnd = some (pos - 1))
  opens ∨ closes

structure MarkerLoop where
  out : List Char
  count : ℕ
  /-- Up to here the text is in `out`. -/
  copied : ℕ
  pos : ℕ
  /-- One past the most recent block comment. -/
  blockCommentEnd : Option ℕ

/-- One round of the loop, in front of a delimiter. -/
def rewriteStep (sql : List Char) (bytes : List UInt8) (l : MarkerLoop) : TdsResult MarkerLoop := do
  let b := bytes[l.pos]?
  if b = some (byteOf '?') then
    let piece ← strSlice sql l.copied l.pos
    let count := l.count + 1
    pure { l with
      out := l.out ++ piece ++ paramName count
      count
      pos := l.pos + 1
      copied := l.pos + 1 }
  else if b = some (byteOf '\'') then
    pure { l with pos := ← skipQuoted bytes (l.pos + 1) '\'' }
  else if b = some (byteOf '"') then
    pure { l with pos := ← skipQuoted bytes (l.pos + 1) '"' }
  else if b = some (byteOf '[') then
    pure { l with pos := ← skipQuoted bytes (l.pos + 1) ']' }
  else if b = some (byteOf '-') ∧ bytes[l.pos + 1]? = some (byteOf '-') ∧
      ¬ isCanonicalExtensionDash bytes l.pos l.blockCommentEnd then
    match ← positionFrom bytes (l.pos + 2) (isOneOf ['\n', '\r']) with
    | some stop => pure { l with pos := l.pos + 2 + stop + 1 }
    | none => pure { l with pos := bytes.length }
  else if b = some (byteOf '/') ∧ bytes[l.pos + 1]? = some (byteOf '*') then
    let comment ← strSlice sql (l.pos + 2) bytes.length
    match findPair '*' '/' comment with
    | some stop =>
      let close := l.pos + 2 + stop + 2
      pure { l with pos := close, blockCommentEnd := some close }
    | none => pure { l with pos := bytes.length }
  else pure { l with pos := l.pos + 1 }

/-- The bytes at which the loop stops. -/
def delimiters : List Char := ['?', '\'', '"', '[', '-', '/']

def rewriteLoop (sql : List Char) (bytes : List UInt8) : ℕ → MarkerLoop → TdsResult (List Char × ℕ)
  | 0, _ => .error .outOfFuel
  | fuel + 1, l => do
    match ← positionFrom bytes l.pos (isOneOf delimiters) with
    | none =>
      let tail ← strSlice sql l.copied bytes.length
      pure (l.out ++ tail, l.count)
    | some skip =>
      let l ← rewriteStep sql bytes { l with pos := l.pos + skip }
      rewriteLoop sql bytes fuel l

def rewriteParamMarkers (sql : List Char) : TdsResult (List Char × ℕ) :=
  let bytes := asBytes sql
  if !bytes.any (isOneOf ['?']) then .ok (sql, 0)
  else rewriteLoop sql bytes (bytes.length + 1) ⟨[], 0, 0, 0, none⟩

/-! ### Regions without markers -/

/-- The scanner passes over `region`, in which there is no marker. -/
structure Skips (s : CodeScan) (region : List Char) (s' : CodeScan) : Prop where
  scans : ∃ sts, Scans s sts s' ∧ textOf sts = region ∧ ∀ step ∈ sts, step.isMarker = false

section

variable {s s' s'' : CodeScan} {region region' : List Char} {step : Step}

theorem Skips.refl : Skips s [] s :=
  ⟨[], .refl s, rfl, fun _ h => absurd h not_mem_nil⟩

theorem Skips.trans (h : Skips s region s') (h' : Skips s' region' s'') :
    Skips s (region ++ region') s'' := by
  obtain ⟨sts, hscans, rfl, hall⟩ := h.scans
  obtain ⟨sts', hscans', rfl, hall'⟩ := h'.scans
  refine ⟨sts ++ sts', hscans.trans hscans', textOf_append sts sts', ?_⟩
  intro step hmem
  rcases mem_append.mp hmem with hmem | hmem
  · exact hall step hmem
  · exact hall' step hmem

theorem Skips.of_nextStep (h : s.nextStep = some (step, s')) (hmarker : step.isMarker = false) :
    Skips s step.text s' := by
  refine ⟨[step], .cons h (.refl s'), by simp [textOf], ?_⟩
  intro st hmem
  rw [mem_singleton.mp hmem]
  exact hmarker

theorem Skips.rest_eq (h : Skips s region s') : s.rest = region ++ s'.rest := by
  obtain ⟨sts, hscans, rfl, -⟩ := h.scans
  exact hscans.textOf_append_rest.symm

/-- A region without markers is copied. -/
theorem Skips.foldl_pushStep (h : Skips s region s') (out : List Char) (count : ℕ) :
    s.steps.foldl pushStep (out, count) = s'.steps.foldl pushStep (out ++ region, count) := by
  obtain ⟨sts, hscans, rfl, hall⟩ := h.scans
  rw [hscans.steps_eq, foldl_append]
  clear hscans h
  induction sts generalizing out with
  | nil => simp
  | cons step sts ih =>
    have hmarker := hall step mem_cons_self
    rw [foldl_cons, pushStep, hmarker, if_neg Bool.false_ne_true,
      ih _ fun st hmem => hall st (mem_cons_of_mem step hmem), textOf_cons, append_assoc]

/-- Characters outside of code that stand for themselves. -/
theorem skips_plain {a b : List Char} (hrest : s.rest = a ++ b) (ha : ∀ c ∈ a, Plain s.state c)
    (hstate : s.state ≠ .normal) : ∃ s', Skips s a s' ∧ s'.rest = b ∧ s'.state = s.state := by
  obtain ⟨sts, s', hscans, hrest', hstate', htext, hall⟩ := scans_plain hrest ha hstate
  exact ⟨s', ⟨sts, hscans, htext, fun step hmem => by simp [Step.isMarker, hall step hmem]⟩, hrest',
    hstate'⟩

theorem skips_lineComment {a b : List Char} {c : Char} (hrest : s.rest = a ++ c :: b)
    (ha : ∀ x ∈ a, x ∉ ['\n', '\r']) (hc : c ∈ ['\n', '\r']) (hstate : s.state = .lineComment) :
    ∃ s', Skips s (a ++ [c]) s' ∧ s'.rest = b ∧ s'.state = .normal ∧ s'.prev1 = some c := by
  obtain ⟨s₁, hskips, hrest₁, hstate₁⟩ := skips_plain hrest
    (fun x hx => by rw [hstate]; simpa [Plain] using ha x hx) (by simp [hstate])
  rw [hstate] at hstate₁
  have hreact : s₁.react c b = (.normal, false) := by
    simp only [mem_cons, not_mem_nil, or_false] at hc
    simp [react, hstate₁, hc]
  have hstep := nextStep_single hrest₁ hreact
  exact ⟨_, hskips.trans (.of_nextStep hstep (by simp [Step.isMarker, hstate₁])), rfl, rfl, rfl⟩

/-- A block comment: up to the first `*/`, or to the end of the text. -/
theorem skips_blockComment {r : List Char} (hrest : s.rest = r) (hstate : s.state = .blockComment) :
    (findPair '*' '/' r = none ∧ ∃ s', Skips s r s' ∧ s'.rest = []) ∨
      ∃ a b s', findPair '*' '/' r = some (asBytes a).length ∧ r = a ++ '*' :: '/' :: b ∧
        Skips s (a ++ ['*', '/']) s' ∧ s'.rest = b ∧ s'.state = .normal ∧
        s'.prev1 = some '*' := by
  induction r generalizing s with
  | nil => exact .inl ⟨rfl, s, .refl, hrest⟩
  | cons c r ih =>
    by_cases hclose : c = '*' ∧ r.head? = some '/'
    · obtain ⟨rfl, hhead⟩ := hclose
      obtain ⟨b, rfl⟩ : ∃ b, r = '/' :: b := List.head?_eq_some_iff.mp hhead
      have hstep := nextStep_double hrest
        (show s.react '*' ('/' :: b) = (.normal, true) by simp [react, hstate])
      have hskip := Skips.of_nextStep hstep (by simp [Step.isMarker, hstate])
      exact .inr ⟨[], b, _, by simp [findPair], rfl, hskip, rfl, rfl, rfl⟩
    · have hstep := nextStep_single hrest
        (show s.react c r = (.blockComment, false) by simp [react, hstate, hclose])
      have hskip := Skips.of_nextStep hstep (by simp [Step.isMarker, hstate])
      have hfind : findPair '*' '/' (c :: r) =
          (findPair '*' '/' r).map (· + (String.utf8EncodeChar c).length) := by
        cases r with
        | nil => rfl
        | cons d r =>
          rw [findPair, if_neg]
          simpa using hclose
      rw [hfind]
      rcases @ih ⟨r, .blockComment, some c, s.prev1⟩ rfl rfl with
        ⟨hnone, s', hskips, hnil⟩ | ⟨a, b, s', hsome, rfl, hskips, hb, hnormal, hprev⟩
      · exact .inl ⟨by rw [hnone]; rfl, s', hskip.trans hskips, hnil⟩
      · refine .inr ⟨c :: a, b, s', ?_, rfl, hskip.trans hskips, hb, hnormal, hprev⟩
        rw [hsome, Option.map_some, asBytes_cons, length_append, Nat.add_comm]

end

/-! ### Looking behind -/

/-- The text ends with a `*`, or with the block comment that ends at `blockCommentEnd`. -/
def StarAtEnd (done : List Char) (blockCommentEnd : Option ℕ) : Prop :=
  done.getLast? = some '*' ∨ blockCommentEnd = some (asBytes done).length

/-- What the scanner remembers of its last two steps, in terms of the text behind it. -/
structure LookBehind (done : List Char) (blockCommentEnd : Option ℕ) (s : CodeScan) : Prop where
  pos : ∀ e, blockCommentEnd = some e → 0 < e
  bound : ∀ e, blockCommentEnd = some e → e ≤ (asBytes done).length
  star : s.prev1 = some '*' ↔ StarAtEnd done blockCommentEnd
  paren : s.prev2 = some '*' ∧ s.prev1 = some ')' ↔
    ∃ q, done = q ++ [')'] ∧ StarAtEnd q blockCommentEnd

section

variable {done region : List Char} {blockCommentEnd : Option ℕ} {s s' : CodeScan} {c : Char}

theorem length_asBytes_lt (hregion : region ≠ []) :
    (asBytes done).length < (asBytes (done ++ region)).length := by
  obtain ⟨c, r, rfl⟩ := exists_cons_of_ne_nil hregion
  rw [asBytes_append, asBytes_cons, length_append, length_append]
  have := length_pos_iff.mpr (utf8EncodeChar_ne_nil c)
  omega

theorem LookBehind.not_end (h : LookBehind done blockCommentEnd s) (hregion : region ≠ []) :
    blockCommentEnd ≠ some (asBytes (done ++ region)).length := by
  intro heq
  have := h.bound _ heq
  have := @length_asBytes_lt done region hregion
  omega

theorem LookBehind.single (h : LookBehind done blockCommentEnd s) (rest : List Char)
    (state : State) :
    LookBehind (done ++ [c]) blockCommentEnd ⟨rest, state, some c, s.prev1⟩ where
  pos := h.pos
  bound e he := Nat.le_of_lt (Nat.lt_of_le_of_lt (h.bound e he) (length_asBytes_lt (by simp)))
  star := by
    have hne := h.not_end (cons_ne_nil c [])
    simp [StarAtEnd, -asBytes_append, hne]
  paren := by
    constructor
    · rintro ⟨hstar, hparen⟩
      cases hparen
      exact ⟨done, rfl, h.star.mp hstar⟩
    · rintro ⟨q, hq, hstar⟩
      obtain ⟨rfl, hc⟩ := append_inj' hq rfl
      cases hc
      exact ⟨h.star.mpr hstar, rfl⟩

/-- Behind a literal or a line comment. -/
theorem LookBehind.behind (h : LookBehind done blockCommentEnd s) (hlast : region.getLast? = some c)
    (hprev : s'.prev1 = some c) (hc : c ≠ '*' ∧ c ≠ ')') :
    LookBehind (done ++ region) blockCommentEnd s' := by
  have hregion : region ≠ [] := by
    rintro rfl
    cases hlast
  have hend : (done ++ region).getLast? = some c := by
    rw [List.getLast?_append, hlast, Option.some_or]
  refine ⟨h.pos, ?_, ?_, ?_⟩
  · intro e he
    exact Nat.le_of_lt (Nat.lt_of_le_of_lt (h.bound e he) (length_asBytes_lt hregion))
  · simp [StarAtEnd, -asBytes_append, h.not_end hregion, hend, hprev, hc.1]
  · constructor
    · rintro ⟨-, hparen⟩
      rw [hprev] at hparen
      exact absurd (Option.some.inj hparen) hc.2
    · rintro ⟨q, hq, -⟩
      rw [hq, List.getLast?_append, List.getLast?_singleton, Option.some_or] at hend
      exact absurd (Option.some.inj hend).symm hc.2

theorem LookBehind.blockComment (hlast : done.getLast? = some '/') (hprev : s'.prev1 = some '*') :
    LookBehind done (some (asBytes done).length) s' := by
  have hne : done ≠ [] := by
    rintro rfl
    cases hlast
  refine ⟨?_, ?_, ?_, ?_⟩
  · rintro e he
    cases he
    have := @length_asBytes_lt [] done hne
    rw [nil_append] at this
    omega
  · rintro e he
    cases he
    exact Nat.le_refl _
  · simp [StarAtEnd, hprev]
  · constructor
    · rintro ⟨-, hparen⟩
      rw [hprev] at hparen
      exact absurd (Option.some.inj hparen) (by decide)
    · rintro ⟨q, rfl, -⟩
      rw [List.getLast?_append, List.getLast?_singleton, Option.some_or] at hlast
      exact absurd (Option.some.inj hlast) (by decide)

theorem lookBehind_new (sql : List Char) : LookBehind [] none (CodeScan.new sql) :=
  ⟨by simp, by simp, by simp [CodeScan.new, StarAtEnd], by simp [CodeScan.new]⟩

theorem length_le_asBytes (t : List Char) : t.length ≤ (asBytes t).length := by
  induction t with
  | nil => exact Nat.le_refl _
  | cons c t ih =>
    have := length_pos_iff.mpr (utf8EncodeChar_ne_nil c)
    rw [asBytes_cons, length_append, length_cons]
    omega

/-- The byte in front of the position behind `a`. -/
theorem getElem?_asBytes_pred {a b : List Char} {d : Char} (hd : d.toNat < 128)
    (ha : 0 < (asBytes a).length) :
    (asBytes (a ++ b))[(asBytes a).length - 1]? = some (byteOf d) ↔ a.getLast? = some d := by
  rw [← getElem?_asBytes_last a hd, asBytes_append,
    List.getElem?_append_left (Nat.sub_lt ha Nat.one_pos), List.getLast?_eq_getElem?]

/-- The byte behind `a` and some ASCII characters. -/
theorem getElem?_asBytes_past (a p b : List Char) {d : Char} (hp : ∀ c ∈ p, c.toNat < 128)
    (hd : d.toNat < 128) :
    (asBytes (a ++ (p ++ b)))[(asBytes a).length + p.length]? = some (byteOf d) ↔
      b.head? = some d := by
  rw [← length_append_ascii a hp, ← append_assoc]
  exact getElem?_asBytes_append _ _ hd

/-- The test on the bytes is the scanner's. -/
theorem isCanonicalExtensionDash_eq (h : LookBehind done blockCommentEnd s) (r : List Char) :
    isCanonicalExtensionDash (asBytes (done ++ '-' :: '-' :: r)) (asBytes done).length
      blockCommentEnd = s.canonicalExtension r := by
  have hopens : ((asBytes (done ++ '-' :: '-' :: r))[(asBytes done).length + 2]? =
        some (byteOf '(') ∧
      (asBytes (done ++ '-' :: '-' :: r))[(asBytes done).length + 3]? = some (byteOf '*')) ↔
      r.take 2 = ['(', '*'] := by
    refine (and_congr_left'
      (getElem?_asBytes_past done ['-', '-'] r (by simp) (by decide))).trans ?_
    cases r with
    | nil => simp
    | cons c r =>
      rw [List.head?_cons, Option.some_inj, take_succ_cons, List.cons.injEq]
      refine and_congr_right fun hc => ?_
      subst hc
      refine (getElem?_asBytes_past done ['-', '-', '('] r (by simp) (by decide)).trans ?_
      cases r <;> simp
  have hcloses : ((asBytes done).length ≥ 2 ∧
      (asBytes (done ++ '-' :: '-' :: r))[(asBytes done).length - 1]? = some (byteOf ')') ∧
      ((asBytes (done ++ '-' :: '-' :: r))[(asBytes done).length - 2]? = some (byteOf '*') ∨
        blockCommentEnd = some ((asBytes done).length - 1))) ↔
      s.prev2 = some '*' ∧ s.prev1 = some ')' := by
    have hq (q : List Char) : (asBytes (q ++ [')'])).length = (asBytes q).length + 1 :=
      length_append_ascii q (by simp)
    rw [h.paren]
    constructor
    · rintro ⟨htwo, hparen, hstar⟩
      rw [getElem?_asBytes_pred (by decide) (by omega)] at hparen
      obtain ⟨q, rfl⟩ := List.getLast?_eq_some_iff.mp hparen
      refine ⟨q, rfl, ?_⟩
      rw [hq] at htwo hstar
      rcases hstar with hstar | hend
      · left
        rw [append_assoc, show (asBytes q).length + 1 - 2 = (asBytes q).length - 1 by omega,
          getElem?_asBytes_pred (by decide) (by omega)] at hstar
        exact hstar
      · exact .inr hend
    · rintro ⟨q, rfl, hstar⟩
      have hpos : 0 < (asBytes q).length := by
        rcases hstar with hstar | hend
        · obtain ⟨q', rfl⟩ := List.getLast?_eq_some_iff.mp hstar
          exact Nat.lt_of_le_of_lt (Nat.zero_le _) (@length_asBytes_lt q' ['*'] (by simp))
        · exact h.pos _ hend
      have hlen := hq q
      refine ⟨by omega, ?_, ?_⟩
      · rw [getElem?_asBytes_pred (by decide) (by omega)]
        simp
      · rw [hq]
        rcases hstar with hstar | hend
        · left
          rw [append_assoc, show (asBytes q).length + 1 - 2 = (asBytes q).length - 1 by omega,
            getElem?_asBytes_pred (by decide) hpos]
          exact hstar
        · exact .inr hend
  unfold isCanonicalExtensionDash canonicalExtension
  rw [decide_eq_decide, hopens, hcloses]

end

/-! ### Literals -/

/-- The states inside a literal. -/
def IsQuoted (state : State) : Prop :=
  state = .singleQuote ∨ state = .doubleQuote ∨ state = .bracket

section

variable {s : CodeScan}

theorem closer_ascii (state : State) : state.closer.toNat < 128 := by
  cases state <;> decide

theorem plain_of_quoted (h : IsQuoted s.state) {c : Char} :
    Plain s.state c ↔ c ≠ s.state.closer := by
  rcases h with h | h | h <;> rw [h] <;> rfl

theorem IsQuoted.ne_normal {state : State} (h : IsQuoted state) : state ≠ .normal := by
  rcases h with rfl | rfl | rfl <;> decide

/-- The characters of a literal in front of a closer. -/
theorem skips_quoted {a b : List Char} (h : IsQuoted s.state) (hrest : s.rest = a ++ b)
    (ha : ∀ c ∈ a, c ∉ [s.state.closer]) : ∃ s', Skips s a s' ∧ s'.rest = b ∧ s'.state = s.state :=
  skips_plain hrest (fun c hc => (plain_of_quoted h).mpr (by simpa using ha c hc)) h.ne_normal

theorem react_closer (h : IsQuoted s.state) (rest : List Char) :
    s.react s.state.closer rest =
      if rest.head? = some s.state.closer then (s.state, true) else (.normal, false) := by
  rcases h with h | h | h <;> simp [react, h]

/-- Searching behind `done` finds the first of the characters. -/
theorem positionFrom_spec {ds : List Char} (hds : ∀ d ∈ ds, d.toNat < 128) (done t : List Char) :
    (positionFrom (asBytes (done ++ t)) (asBytes done).length (isOneOf ds) = .ok none ∧
      ∀ c ∈ t, c ∉ ds) ∨
      ∃ a c b, t = a ++ c :: b ∧ (∀ x ∈ a, x ∉ ds) ∧ c ∈ ds ∧
        positionFrom (asBytes (done ++ t)) (asBytes done).length (isOneOf ds)
          = .ok (some (asBytes a).length) := by
  have hposition : positionFrom (asBytes (done ++ t)) (asBytes done).length (isOneOf ds)
      = .ok ((asBytes t).findIdx? fun b => (ds.map byteOf).contains b) := by
    rw [positionFrom, if_pos, asBytes_append, drop_left]
    · rfl
    · rw [asBytes_append, length_append]
      omega
  rw [hposition]
  rcases findIdx?_asBytes hds t with ⟨hall, hnone⟩ | ⟨a, c, b, rfl, ha, hc, hsome⟩
  · exact .inl ⟨by rw [hnone], hall⟩
  · exact .inr ⟨a, c, b, rfl, ha, hc, by rw [hsome]⟩

/-- Skipping a literal passes over the same characters as the scanner. -/
theorem skipQuotedWithin_spec {fuel : ℕ} (hquoted : IsQuoted s.state) (done : List Char)
    (hfuel : s.rest.length < fuel) :
    ∃ region s',
      skipQuotedWithin (asBytes (done ++ s.rest)) s.state.closer fuel (asBytes done).length
        = .ok (asBytes (done ++ region)).length ∧
      Skips s region s' ∧
      (s'.rest ≠ [] → s'.state = .normal ∧ s'.prev1 = some s.state.closer ∧
        region.getLast? = some s.state.closer) := by
  induction fuel generalizing s done with
  | zero => omega
  | succ fuel ih =>
    rw [skipQuotedWithin]
    rcases positionFrom_spec
      (show ∀ d ∈ [s.state.closer], d.toNat < 128 by simp [closer_ascii]) done s.rest with
      ⟨hnone, hall⟩ | ⟨a, c, b, hrest, ha, hc, hsome⟩
    · -- unterminated: both run to the end
      obtain ⟨s', hskips, hrest', -⟩ := skips_quoted hquoted (append_nil s.rest).symm hall
      refine ⟨s.rest, s', ?_, hskips, fun hne => absurd hrest' hne⟩
      rw [hnone]
      rfl
    · obtain rfl : c = s.state.closer := by simpa using hc
      obtain ⟨s₁, hskips, hrest₁, hstate₁⟩ := skips_quoted hquoted hrest ha
      have hreact := react_closer (by rwa [hstate₁]) b (s := s₁)
      rw [hstate₁] at hreact
      -- the byte behind the closer is looked at as a character
      have hclose : (asBytes done).length + (asBytes a).length + 1 =
          (asBytes (done ++ a ++ [s.state.closer])).length := by
        rw [length_append_ascii _ (by simp [closer_ascii]), asBytes_append, length_append]
        rfl
      have hnext : (asBytes (done ++ s.rest))[(asBytes done).length + (asBytes a).length + 1]? =
          some (byteOf s.state.closer) ↔ b.head? = some s.state.closer := by
        rw [hclose, hrest, show done ++ (a ++ s.state.closer :: b) =
          (done ++ a ++ [s.state.closer]) ++ b by simp]
        exact getElem?_asBytes_append _ _ (closer_ascii s.state)
      have hnormal : s₁.state ≠ .normal := hstate₁ ▸ hquoted.ne_normal
      rw [hsome]
      by_cases hdouble : b.head? = some s.state.closer
      · rw [if_pos hdouble] at hreact
        obtain ⟨b, rfl⟩ := List.head?_eq_some_iff.mp hdouble
        have hstep := nextStep_double hrest₁ hreact
        have hskip₁ := Skips.of_nextStep hstep (by simp [Step.isMarker, hnormal])
        have hdone : done ++ s.rest = (done ++ (a ++ [s.state.closer, s.state.closer])) ++ b := by
          simp [hrest]
        have hpos : (asBytes done).length + (asBytes a).length + 2 =
            (asBytes (done ++ (a ++ [s.state.closer, s.state.closer]))).length := by
          simp [utf8EncodeChar_ascii (closer_ascii s.state), Nat.add_assoc]
        obtain ⟨region, s', hrun, hskips', hend⟩ :=
          @ih ⟨b, s.state, some s.state.closer, s₁.prev1⟩ hquoted
            (done ++ (a ++ [s.state.closer, s.state.closer]))
            (by rw [hrest] at hfuel; simp at hfuel ⊢; omega)
        refine ⟨a ++ [s.state.closer, s.state.closer] ++ region, s', ?_,
          (hskips.trans hskip₁).trans hskips', ?_⟩
        · have hif : ¬ (asBytes (done ++ s.rest))[(asBytes done).length + (asBytes a).length + 1]? ≠
              some (byteOf s.state.closer) := by
            rw [not_not, hnext]
            rfl
          refine Eq.trans (if_neg hif) ?_
          rw [hdone, hpos, hrun]
          simp
        · intro hne
          obtain ⟨hnormal, hprev, hlast⟩ := hend hne
          exact ⟨hnormal, hprev, by rw [List.getLast?_append, hlast, Option.some_or]⟩
      · rw [if_neg hdouble] at hreact
        have hstep := nextStep_single hrest₁ hreact
        have hskip₁ := Skips.of_nextStep hstep (by simp [Step.isMarker, hnormal])
        refine ⟨a ++ [s.state.closer], _, ?_, hskips.trans hskip₁, fun _ => ⟨rfl, rfl, by simp⟩⟩
        have hif : (asBytes (done ++ s.rest))[(asBytes done).length + (asBytes a).length + 1]? ≠
            some (byteOf s.state.closer) := by
          intro heq
          exact hdouble (hnext.mp heq)
        refine Eq.trans (if_pos hif) ?_
        rw [hclose, append_assoc]
        rfl

end

/-! ### The loop and the scanner -/

/-- The loop stands where the scanner does: `done` is in its output, `mid` is still to be copied. -/
structure Aligned (sql : List Char) (l : MarkerLoop) (done mid : List Char) (s : CodeScan) :
    Prop where
  text : sql = done ++ (mid ++ s.rest)
  copied : l.copied = (asBytes done).length
  pos : l.pos = (asBytes (done ++ mid)).length
  state : s.rest ≠ [] → s.state = .normal
  behind : s.rest ≠ [] → LookBehind (done ++ mid) l.blockCommentEnd s

section

variable {sql done mid : List Char} {l : MarkerLoop} {s : CodeScan}

/-- Both have passed over a region without markers. -/
theorem Aligned.skip (h : Aligned sql l done mid s) {region : List Char} {s' : CodeScan}
    (hskips : Skips s region s') {l' : MarkerLoop} (hout : l'.copied = l.copied)
    (hpos : l'.pos = (asBytes (done ++ mid ++ region)).length)
    (hlive : s'.rest ≠ [] → s'.state = .normal ∧
      LookBehind (done ++ mid ++ region) l'.blockCommentEnd s') :
    Aligned sql l' done (mid ++ region) s' := by
  refine ⟨?_, hout.trans h.copied, ?_, fun hne => (hlive hne).1, ?_⟩
  · rw [h.text, hskips.rest_eq, append_assoc]
  · rw [hpos, append_assoc]
  · intro hne
    rw [← append_assoc]
    exact (hlive hne).2

/-- What a round of the loop does: it stays in line with a scanner that has advanced. -/
def Advances (sql : List Char) (l : MarkerLoop) (mid : List Char) (s : CodeScan) (l' : MarkerLoop) :
    Prop :=
  ∃ done' mid' s', Aligned sql l' done' mid' s' ∧ s'.rest.length < s.rest.length ∧
    s.steps.foldl pushStep (l.out ++ mid, l.count) =
      s'.steps.foldl pushStep (l'.out ++ mid', l'.count)

/-- A round that only skips. -/
theorem Aligned.advances (h : Aligned sql l done mid s) {region : List Char} {s' : CodeScan}
    (hskips : Skips s region s') (hregion : region ≠ []) {pos : ℕ} {blockCommentEnd : Option ℕ}
    (hpos : pos = (asBytes (done ++ mid ++ region)).length)
    (hlive : s'.rest ≠ [] → s'.state = .normal ∧
      LookBehind (done ++ mid ++ region) blockCommentEnd s') :
    Advances sql l mid s { l with pos, blockCommentEnd } := by
  refine ⟨done, mid ++ region, s', h.skip hskips rfl hpos hlive, ?_, ?_⟩
  · rw [hskips.rest_eq, length_append]
    have := length_pos_iff.mpr hregion
    omega
  · rw [hskips.foldl_pushStep, append_assoc]

variable {c : Char} {b : List Char}

theorem Aligned.byte (h : Aligned sql l done mid s) (d : Char) (hd : d.toNat < 128) :
    (asBytes sql)[l.pos]? = some (byteOf d) ↔ s.rest.head? = some d := by
  rw [h.text, h.pos, ← append_assoc]
  exact getElem?_asBytes_append _ _ hd

theorem Aligned.pos_past (h : Aligned sql l done mid s) (p : List Char)
    (hp : ∀ d ∈ p, d.toNat < 128) : l.pos + p.length = (asBytes (done ++ mid ++ p)).length := by
  rw [length_append_ascii _ hp, h.pos]

theorem Aligned.nextByte (h : Aligned sql l done mid s) (hrest : s.rest = c :: b)
    (hc : c.toNat < 128) (d : Char) (hd : d.toNat < 128) :
    (asBytes sql)[l.pos + 1]? = some (byteOf d) ↔ b.head? = some d := by
  rw [h.text, h.pos, hrest, ← append_assoc]
  exact getElem?_asBytes_past _ [c] b (by simpa using hc) hd

/-- A literal that opens with `c`. -/
theorem rewriteStep_quoted (h : Aligned sql l done mid s) (hrest : s.rest = c :: b)
    (hc : c.toNat < 128) (hmarker : c ≠ '?') {state : State} (hquoted : IsQuoted state)
    (hreact : s.react c b = (state, false)) :
    ∃ pos, skipQuoted (asBytes sql) (l.pos + 1) state.closer = .ok pos ∧
      Advances sql l mid s { l with pos } := by
  have hne : s.rest ≠ [] := by simp [hrest]
  have hstep := nextStep_single hrest hreact
  have hopen := Skips.of_nextStep hstep (by simp [Step.isMarker, hmarker])
  have hpos : l.pos + 1 = (asBytes (done ++ mid ++ [c])).length :=
    h.pos_past [c] (by simpa using hc)
  have hsql : sql = (done ++ mid ++ [c]) ++ b := by simp [h.text, hrest]
  have hfuel : b.length < (asBytes sql).length + 1 := by
    rw [hsql, asBytes_append, length_append]
    have := length_le_asBytes b
    omega
  obtain ⟨region, s', hrun, hskips, hend⟩ := @skipQuotedWithin_spec
    ⟨b, state, some c, s.prev1⟩ _ hquoted (done ++ mid ++ [c]) hfuel
  rw [← hsql, ← hpos] at hrun
  refine ⟨_, hrun, ?_⟩
  refine h.advances (hopen.trans hskips) (by simp) (by simp) ?_
  intro hlive
  obtain ⟨hnormal, hprev, hlast⟩ := hend hlive
  refine ⟨hnormal, (h.behind hne).behind ?_ hprev ?_⟩
  · rw [List.getLast?_append, hlast, Option.some_or]
  · change state.closer ≠ '*' ∧ state.closer ≠ ')'
    rcases hquoted with rfl | rfl | rfl <;> decide

/-- A step of one character that is no marker. -/
theorem Aligned.advances_single (h : Aligned sql l done mid s) (hrest : s.rest = c :: b)
    (hc : c.toNat < 128) (hmarker : c ≠ '?') (hreact : s.react c b = (.normal, false)) :
    Advances sql l mid s { l with pos := l.pos + 1 } := by
  have hstep := nextStep_single hrest hreact
  have hskip := Skips.of_nextStep hstep (by simp [Step.isMarker, hmarker])
  refine h.advances hskip (by simp) (h.pos_past [c] (by simpa using hc)) ?_
  intro hne
  exact ⟨rfl, (h.behind (by simp [hrest])).single b .normal⟩

/-- A marker is replaced by the name of its parameter. -/
theorem rewriteStep_marker (h : Aligned sql l done mid s) (hrest : s.rest = '?' :: b) :
    strSlice sql l.copied l.pos = .ok mid ∧
      Advances sql l mid s { l with
        out := l.out ++ mid ++ paramName (l.count + 1)
        count := l.count + 1
        pos := l.pos + 1
        copied := l.pos + 1 } := by
  have hne : s.rest ≠ [] := by simp [hrest]
  have hreact : s.react '?' b = (.normal, false) := by
    rw [react_plain _ b, h.state hne]
    rw [h.state hne]
    simp [Plain]
  have hstep := nextStep_single hrest hreact
  have hpos : l.pos + 1 = (asBytes (done ++ mid ++ ['?'])).length :=
    h.pos_past ['?'] (by simp)
  refine ⟨?_, done ++ mid ++ ['?'], [], ⟨b, .normal, some '?', s.prev1⟩,
    ⟨?_, ?_, ?_, fun _ => rfl, ?_⟩, ?_, ?_⟩
  · rw [strSlice, h.text, h.copied, h.pos, slice_append]
  · simp [h.text, hrest]
  · exact hpos
  · rw [append_nil]
    exact hpos
  · intro _
    rw [append_nil]
    exact (h.behind hne).single b .normal
  · simp [hrest]
  · rw [steps_of_some hstep, foldl_cons, pushStep, if_pos]
    · simp
    · simp [Step.isMarker, h.state hne]

theorem rewriteStep_lineComment (h : Aligned sql l done mid s) (hrest : s.rest = '-' :: '-' :: b)
    (hreact : s.react '-' ('-' :: b) = (.lineComment, true)) :
    ∃ stop, positionFrom (asBytes sql) (l.pos + 2) (isOneOf ['\n', '\r']) = .ok stop ∧
      Advances sql l mid s { l with
        pos := match stop with
          | some stop => l.pos + 2 + stop + 1
          | none => (asBytes sql).length } := by
  have hne : s.rest ≠ [] := by simp [hrest]
  have hopen := Skips.of_nextStep (nextStep_double hrest hreact) (by simp [Step.isMarker])
  have hpos : l.pos + 2 = (asBytes (done ++ mid ++ ['-', '-'])).length :=
    h.pos_past ['-', '-'] (by simp)
  have hsql : sql = (done ++ mid ++ ['-', '-']) ++ b := by simp [h.text, hrest]
  rw [hpos, hsql]
  rcases positionFrom_spec (show ∀ d ∈ ['\n', '\r'], d.toNat < 128 by simp)
    (done ++ mid ++ ['-', '-']) b with ⟨hnone, hall⟩ | ⟨a, c, b', rfl, ha, hc, hsome⟩
  · refine ⟨none, hnone, ?_⟩
    obtain ⟨s', hskips, hrest', -⟩ := @skips_plain ⟨b, .lineComment, some '-', s.prev1⟩ b []
      (append_nil b).symm (fun x hx => by simpa [Plain] using hall x hx) (by simp)
    rw [← hsql]
    refine h.advances (hopen.trans hskips) (by simp) (by simp [hsql]) ?_
    intro hlive
    exact absurd hrest' hlive
  · refine ⟨_, hsome, ?_⟩
    obtain ⟨s', hskips, -, hnormal, hprev⟩ :=
      @skips_lineComment ⟨a ++ c :: b', .lineComment, some '-', s.prev1⟩ a b' c rfl ha hc rfl
    have hclast : c.toNat < 128 ∧ c ≠ '*' ∧ c ≠ ')' := by
      simp only [mem_cons, not_mem_nil, or_false] at hc
      rcases hc with rfl | rfl <;> decide
    rw [← hsql]
    refine h.advances (hopen.trans hskips) (by simp) ?_ ?_
    · simp [utf8EncodeChar_ascii hclast.1, Nat.add_assoc]
    · intro _
      refine ⟨hnormal, (h.behind hne).behind ?_ hprev hclast.2⟩
      rw [List.getLast?_append, List.getLast?_append]
      rfl

theorem rewriteStep_blockComment (h : Aligned sql l done mid s) (hrest : s.rest = '/' :: '*' :: b)
    (hreact : s.react '/' ('*' :: b) = (.blockComment, true)) :
    strSlice sql (l.pos + 2) (asBytes sql).length = .ok b ∧
      Advances sql l mid s (match findPair '*' '/' b with
        | some stop =>
          { l with pos := l.pos + 2 + stop + 2, blockCommentEnd := some (l.pos + 2 + stop + 2) }
        | none => { l with pos := (asBytes sql).length }) := by
  have hopen := Skips.of_nextStep (nextStep_double hrest hreact) (by simp [Step.isMarker])
  have hpos : l.pos + 2 = (asBytes (done ++ mid ++ ['/', '*'])).length :=
    h.pos_past ['/', '*'] (by simp)
  have hsql : sql = (done ++ mid ++ ['/', '*']) ++ b := by simp [h.text, hrest]
  refine ⟨?_, ?_⟩
  · have hslice := slice_append (done ++ mid ++ ['/', '*']) b []
    rw [append_nil, ← hsql, ← hpos] at hslice
    rw [strSlice, hslice]
  rcases @skips_blockComment ⟨b, .blockComment, some '/', s.prev1⟩ b rfl rfl with
    ⟨hnone, s', hskips, hrest'⟩ | ⟨a, b', s', hsome, rfl, hskips, -, hnormal, hprev⟩
  · rw [hnone]
    refine h.advances (hopen.trans hskips) (by simp) (by simp [hsql]) ?_
    intro hlive
    exact absurd hrest' hlive
  · rw [hsome]
    have hclose : l.pos + 2 + (asBytes a).length + 2 =
        (asBytes (done ++ mid ++ (['/', '*'] ++ (a ++ ['*', '/'])))).length := by
      rw [hpos]
      simp only [asBytes_append, length_append, Nat.add_assoc]
      rfl
    refine h.advances (hopen.trans hskips) (by simp) hclose ?_
    intro _
    refine ⟨hnormal, ?_⟩
    rw [hclose]
    refine LookBehind.blockComment ?_ hprev
    rw [List.getLast?_append, List.getLast?_append, List.getLast?_append]
    rfl

/-- One round of the loop is some steps of the scanner. -/
theorem rewriteStep_aligned (h : Aligned sql l done mid s) (hrest : s.rest = c :: b)
    (hc : c ∈ delimiters) :
    ∃ l', rewriteStep sql (asBytes sql) l = .ok l' ∧ Advances sql l mid s l' := by
  have hne : s.rest ≠ [] := by simp [hrest]
  have hnormal := h.state hne
  have hbyte (d : Char) (hd : d.toNat < 128) :
      (asBytes sql)[l.pos]? = some (byteOf d) ↔ c = d := by
    rw [h.byte d hd, hrest, List.head?_cons, Option.some_inj]
  have hopen (state : State) (hquoted : IsQuoted state) (hascii : c.toNat < 128) (hm : c ≠ '?')
      (hreact : s.react c b = (state, false)) :=
    rewriteStep_quoted h hrest hascii hm hquoted hreact
  unfold rewriteStep
  simp only [hbyte '?' (by decide), hbyte '\'' (by decide), hbyte '"' (by decide),
    hbyte '[' (by decide), hbyte '-' (by decide), hbyte '/' (by decide)]
  simp only [delimiters, mem_cons, not_mem_nil, or_false] at hc
  rcases hc with rfl | rfl | rfl | rfl | rfl | rfl
  · obtain ⟨hslice, hadvances⟩ := rewriteStep_marker h hrest
    rw [if_pos rfl, hslice]
    exact ⟨_, rfl, hadvances⟩
  · obtain ⟨pos, hskip, hadvances⟩ := hopen .singleQuote (.inl rfl) (by decide) (by decide)
      (by simp [react, hnormal])
    change skipQuoted _ _ '\'' = _ at hskip
    rw [hskip]
    exact ⟨_, rfl, hadvances⟩
  · obtain ⟨pos, hskip, hadvances⟩ := hopen .doubleQuote (.inr (.inl rfl)) (by decide) (by decide)
      (by simp [react, hnormal])
    change skipQuoted _ _ '"' = _ at hskip
    rw [hskip]
    exact ⟨_, rfl, hadvances⟩
  · obtain ⟨pos, hskip, hadvances⟩ := hopen .bracket (.inr (.inr rfl)) (by decide) (by decide)
      (by simp [react, hnormal])
    change skipQuoted _ _ ']' = _ at hskip
    rw [hskip]
    exact ⟨_, rfl, hadvances⟩
  · rw [if_neg (by decide), if_neg (by decide), if_neg (by decide), if_neg (by decide)]
    simp only [true_and, h.nextByte hrest (by decide) '-' (by decide)]
    by_cases hdash : b.head? = some '-'
    · obtain ⟨b, rfl⟩ := List.head?_eq_some_iff.mp hdash
      have hsql : sql = (done ++ mid) ++ '-' :: '-' :: b := by simp [h.text, hrest]
      have hext := isCanonicalExtensionDash_eq (h.behind hne) b
      rw [← hsql, ← h.pos] at hext
      rw [hext]
      cases hcode : s.canonicalExtension b with
      | true =>
        exact ⟨_, rfl, h.advances_single hrest (by decide) (by decide)
          (by simp [react, hnormal, hcode])⟩
      | false =>
        obtain ⟨stop, hposition, hadvances⟩ := rewriteStep_lineComment h hrest
          (by simp [react, hnormal, hcode])
        rw [if_pos (by simp), hposition]
        refine ⟨_, ?_, hadvances⟩
        cases stop <;> rfl
    · rw [if_neg (by simp [hdash]), if_neg (by simp)]
      exact ⟨_, rfl, h.advances_single hrest (by decide) (by decide)
        (by simp [react, hnormal, hdash])⟩
  · rw [if_neg (by decide), if_neg (by decide), if_neg (by decide), if_neg (by decide),
      if_neg (by simp)]
    simp only [true_and, h.nextByte hrest (by decide) '*' (by decide)]
    by_cases hstar : b.head? = some '*'
    · obtain ⟨b, rfl⟩ := List.head?_eq_some_iff.mp hstar
      obtain ⟨hslice, hadvances⟩ := rewriteStep_blockComment h hrest (by simp [react, hnormal])
      rw [if_pos hstar, hslice]
      refine ⟨_, ?_, hadvances⟩
      change (match findPair '*' '/' b with
        | some stop => _
        | none => _) = _
      cases findPair '*' '/' b <;> rfl
    · rw [if_neg hstar]
      exact ⟨_, rfl, h.advances_single hrest (by decide) (by decide)
        (by simp [react, hnormal, hstar])⟩

/-- Text without delimiters in front of the next one. -/
theorem Aligned.skip_code (h : Aligned sql l done mid s) {a : List Char} (hrest : s.rest = a ++ b)
    (ha : ∀ x ∈ a, x ∉ delimiters) :
    ∃ s', Skips s a s' ∧ s'.rest = b ∧
      Aligned sql { l with pos := l.pos + (asBytes a).length } done (mid ++ a) s' := by
  have hlen : l.pos + (asBytes a).length = (asBytes (done ++ mid ++ a)).length := by
    rw [h.pos, asBytes_append (done ++ mid) a, length_append]
  by_cases hnil : s.rest = []
  · obtain ⟨rfl, rfl⟩ := append_eq_nil_iff.mp (hrest ▸ hnil)
    exact ⟨s, .refl, hnil, h.skip .refl rfl hlen (fun hne => absurd hnil hne)⟩
  suffices hgen : ∃ s', Skips s a s' ∧ s'.rest = b ∧ s'.state = .normal ∧
      LookBehind (done ++ mid ++ a) l.blockCommentEnd s' by
    obtain ⟨s', hskips, hrest', hnormal, hbehind⟩ := hgen
    exact ⟨s', hskips, hrest', h.skip hskips rfl hlen fun _ => ⟨hnormal, hbehind⟩⟩
  have hnormal := h.state hnil
  have hbehind := h.behind hnil
  clear h hlen hnil
  -- the scanner takes one character at a time and remembers it
  induction a generalizing s mid with
  | nil => exact ⟨s, .refl, hrest, hnormal, by rwa [append_nil]⟩
  | cons x a ih =>
    have hx := ha x mem_cons_self
    have hreact : s.react x (a ++ b) = (.normal, false) := by
      rw [react_plain _ _, hnormal]
      rw [hnormal]
      simp only [delimiters, mem_cons, not_or] at hx
      simp [Plain, hx]
    have hstep := nextStep_single hrest hreact
    have hskip := Skips.of_nextStep hstep
      (by simp only [delimiters, mem_cons, not_or] at hx; simp [Step.isMarker, hx.1])
    obtain ⟨s', hskips, hrest', hnormal', hbehind'⟩ :=
      @ih (mid ++ [x]) ⟨a ++ b, .normal, some x, s.prev1⟩ rfl
        (fun y hy => ha y (mem_cons_of_mem x hy)) rfl
        (by rw [← append_assoc]; exact hbehind.single _ _)
    refine ⟨s', hskip.trans hskips, hrest', hnormal', ?_⟩
    simpa using hbehind'

/-- The loop finishes what the scanner still has to do. -/
theorem rewriteLoop_eq {fuel : ℕ} (h : Aligned sql l done mid s) (hfuel : s.rest.length < fuel) :
    rewriteLoop sql (asBytes sql) fuel l
      = .ok (s.steps.foldl pushStep (l.out ++ mid, l.count)) := by
  induction fuel generalizing l done mid s with
  | zero => omega
  | succ fuel ih =>
    have hsql : sql = (done ++ mid) ++ s.rest := by rw [h.text, append_assoc]
    have hposition := positionFrom_spec (show ∀ d ∈ delimiters, d.toNat < 128 by simp [delimiters])
      (done ++ mid) s.rest
    rw [← hsql, ← h.pos] at hposition
    rw [rewriteLoop]
    rcases hposition with ⟨hnone, hall⟩ | ⟨a, c, b, hrest, ha, hc, hsome⟩
    · obtain ⟨s', hskips, hrest', -⟩ := h.skip_code (append_nil s.rest).symm hall
      have hslice := slice_append done (mid ++ s.rest) []
      rw [append_nil, ← h.text, ← h.copied] at hslice
      rw [hnone, hskips.foldl_pushStep, steps_of_rest_nil hrest']
      rw [strSlice, hslice]
      simp only [foldl_nil, append_assoc]
      rfl
    · obtain ⟨s₁, hskips, hrest₁, haligned⟩ := h.skip_code hrest ha
      obtain ⟨l', hstep, done', mid', s', haligned', hlt, hfold⟩ :=
        rewriteStep_aligned haligned hrest₁ hc
      rw [hsome]
      change (rewriteStep sql (asBytes sql) { l with pos := l.pos + (asBytes a).length } >>=
        rewriteLoop sql (asBytes sql) fuel) = _
      rw [hstep]
      have hlen : s₁.rest.length ≤ s.rest.length := by
        rw [hskips.rest_eq, length_append]
        omega
      rw [hskips.foldl_pushStep, append_assoc, hfold]
      exact ih haligned' (by omega)

end

/-- The byte loop gives the text and the count of the reference; no slice is cut inside a
character. -/
theorem rewriteParamMarkers_eq (sql : List Char) :
    rewriteParamMarkers sql = .ok (rewriteParamMarkersReference sql) := by
  have hstart : Aligned sql ⟨[], 0, 0, 0, none⟩ [] [] (CodeScan.new sql) :=
    ⟨rfl, rfl, rfl, fun _ => rfl, fun _ => lookBehind_new sql⟩
  unfold rewriteParamMarkers rewriteParamMarkersReference
  by_cases hany : (asBytes sql).any (isOneOf ['?']) = true
  · rw [if_neg (by simp [hany])]
    exact rewriteLoop_eq hstart (Nat.lt_succ_of_le (length_le_asBytes sql))
  · -- without a marker every step is copied
    rw [if_pos (by simpa using hany)]
    have hnone : ∀ step ∈ scan sql, step.isMarker = false := by
      intro step hstep
      by_contra hmarker
      refine hany (any_eq_true.mpr ⟨byteOf '?', ?_, by simp [isOneOf]⟩)
      have hch : step.ch ∈ sql := by
        rw [show sql = (CodeScan.new sql).rest from rfl, ← textOf_steps (CodeScan.new sql)]
        exact mem_flatMap.mpr ⟨step, hstep, ch_mem_text hstep⟩
      simp only [Step.isMarker, Bool.and_eq_true, decide_eq_true_eq, Bool.not_eq_false] at hmarker
      rw [hmarker.2] at hch
      exact mem_flatMap.mpr ⟨'?', hch, by simp [utf8EncodeChar_ascii]⟩
    obtain ⟨s', hscans, hrest⟩ := scans_steps (CodeScan.new sql)
    have hskips : Skips (CodeScan.new sql) sql s' :=
      ⟨_, hscans, textOf_steps _, hnone⟩
    have hfold := hskips.foldl_pushStep [] 0
    rw [steps_of_rest_nil hrest] at hfold
    exact congrArg Except.ok hfold.symm

end MssqlTds.Odbc
