import MssqlTds.Connection.Response
import MssqlTds.Message.EncryptedParameters
import MssqlTds.Security.CellRoundTrip
import MssqlTds.Security.KeyStore

/-!
# Encrypting parameters

Before a statement with parameters is sent under Always Encrypted, the server is asked which of them
go to encrypted columns (`sp_describe_parameter_encryption`).  Its answer has a table of keys and a
row for each parameter.  `applyParameterEncryption` encrypts the parameters that the rows name, in
place.

The server is not trusted: rows may be missing, doubled, or name parameters that were not supplied.
-/

namespace MssqlTds

open Lib Security EState

/-- A row of the answer, about one parameter. -/
structure ParameterEncryptionInfo where
  /-- Counted from one. -/
  parameterOrdinal : Int32
  parameterName : String
  cipherAlgorithmId : UInt8
  encryptionType : UInt8
  cekOrdinal : Int32
  normalizationRuleVersion : UInt8

/-- The encryption type of a parameter that the server takes in the clear. -/
def encryptionTypePlaintext : UInt8 := 0

def ParameterEncryptionInfo.isEncrypted (info : ParameterEncryptionInfo) : Bool :=
  info.encryptionType ≠ encryptionTypePlaintext

structure DescribeParameterEncryptionResult where
  cekEntries : List (Int32 × CekTableEntry)
  parameters : List ParameterEncryptionInfo

def DescribeParameterEncryptionResult.cekEntryFor (describe : DescribeParameterEncryptionResult)
    (cekOrdinal : Int32) : Option CekTableEntry :=
  describe.cekEntries.lookup cekOrdinal

/-! ### Which parameter a row is about -/

/-- The row has the parameter's name, up to case. -/
def nameMatches (info : ParameterEncryptionInfo) (p : RpcParameter) : Bool :=
  match p.name with
  | some name => eqIgnoreAsciiCase (String.ofList name) info.parameterName
  | none => false

/-- The parameter with the row's name, otherwise the unnamed one at its ordinal. -/
def matchDescribeParamIndex (params : List RpcParameter) (info : ParameterEncryptionInfo) :
    Option ℕ :=
  (params.findIdx? (nameMatches info)).or
    -- a negative ordinal becomes a large one
    (match (info.parameterOrdinal.toInt % 2 ^ 64).toNat with
    | 0 => none
    | i + 1 => match params[i]? with
      | some p => if p.name.isNone then some i else none
      | none => none)

/-! ### Encryption in place -/

/-- What a call works on: the parameters, the keys kept for the output parameters, the key cache,
and the number of random vectors drawn. -/
structure EncryptionState (Provider : Type) where
  params : List RpcParameter
  outputParamCeks : List (String × Key)
  keys : KeyState Provider
  draws : ℕ

/-- What a call is given besides. -/
structure EncryptionEnv (Provider : Type) where
  providers : Providers Provider
  registry : ColumnEncryptionKeyStoreProviderRegistry Provider
  trustedKeyPaths : List String
  crypto : Crypto
  codecs : Codecs
  databaseCollation : SqlCollation
  /-- The random vectors, in the order in which they are drawn. -/
  random : ℕ → TdsResult (Vector UInt8 16)

abbrev EncryptM (Provider : Type) := EStateM Error (EncryptionState Provider)

def reportedEncrypted (describe : DescribeParameterEncryptionResult) (params : List RpcParameter)
    (index : ℕ) : Bool :=
  describe.parameters.any fun info =>
    info.isEncrypted && matchDescribeParamIndex params info == some index

/-- No parameter that must be encrypted was left out by the server. -/
def checkForced (describe : DescribeParameterEncryptionResult) (params : List RpcParameter) :
    TdsResult Unit :=
  params.zipIdx.forM fun (p, index) =>
    if p.forceColumnEncryption && !reportedEncrypted describe params index then
      let name := (p.name.map String.ofList).getD "<positional>"
      .error (.columnEncryptionError
        (s!"Parameter {name} has ForceColumnEncryption set, but the server did not report it as " ++
          "encrypted; refusing to send it as plaintext."))
    else .ok ()

namespace EncryptM

variable {Provider : Type}

def lift {α : Type} (result : TdsResult α) : EncryptM Provider α :=
  match result with
  | .ok a => pure a
  | .error error => throw error

/-- The plaintext key of a table entry. -/
def unwrap (env : EncryptionEnv Provider) (entry : CekTableEntry) : EncryptM Provider Key :=
  fun state =>
    match decryptCek env.providers env.registry env.trustedKeyPaths entry state.keys with
    | (.ok key, keys) => .ok key { state with keys }
    | (.error error, keys) => .error error { state with keys }

def draw (env : EncryptionEnv Provider) : EncryptM Provider (TdsResult (Vector UInt8 16)) :=
  fun state => .ok (env.random state.draws) { state with draws := state.draws + 1 }

end EncryptM

open EncryptM

section

variable {Provider : Type} (env : EncryptionEnv Provider)
  (describe : DescribeParameterEncryptionResult)

/-- The metadata that goes with a ciphertext. -/
def encryptionMetadata (info : ParameterEncryptionInfo) (entry : CekTableEntry) :
    RpcEncryptionMetadata where
  cipherAlgorithmId := info.cipherAlgorithmId
  encryptionType := info.encryptionType
  databaseId := entry.databaseId
  cekId := entry.cekId
  cekVersion := entry.cekVersion
  cekMdVersion := entry.cekMdVersion
  normalizationRuleVersion := info.normalizationRuleVersion

def encryptWith (info : ParameterEncryptionInfo) (entry : CekTableEntry) (index : ℕ)
    (param : RpcParameter) : EncryptM Provider Unit := do
  let plaintextCek ← unwrap env entry
  modify fun state => { state with
    outputParamCeks := (normalizeParamName info.parameterName, plaintextCek) ::
      state.outputParamCeks }
  let (value, hadConversionLoss) ←
    lift (param.valueForEncryption env.codecs env.databaseCollation)
  let random ← draw env
  let ciphertext ← lift (encryptParameter env.crypto random value plaintextCek
    info.cipherAlgorithmId info.encryptionType info.normalizationRuleVersion)
  modify fun state => { state with
    params := state.params.set index { param with
      encrypted := some ⟨ciphertext, encryptionMetadata info entry, hadConversionLoss⟩ } }

def encryptRow (info : ParameterEncryptionInfo) : EncryptM Provider Unit :=
  if !info.isEncrypted then pure ()
  else match describe.cekEntryFor info.cekOrdinal with
    | none => throw (.columnEncryptionError
        ("sp_describe_parameter_encryption referenced unknown CEK ordinal " ++
          s!"{info.cekOrdinal} for parameter {info.parameterName}"))
    | some entry => do
      let params := (← get).params
      match matchDescribeParamIndex params info with
      | none => throw (.columnEncryptionError
          ("sp_describe_parameter_encryption returned encryption info for parameter " ++
            s!"{info.parameterName} that was not supplied to the call"))
      | some index => match params[index]? with
        | none => throw (.panic "index out of bounds")
        | some param =>
          if param.isOutput && param.name.isNone then throw (.usageError
            ("Encrypted positional OUTPUT stored-procedure parameters are not supported because " ++
              "their returned value cannot be matched back to a column encryption key; pass " ++
              "the output parameter by name so it can be decrypted on return."))
          else encryptWith env info entry index param

/-- Encrypt the parameters that the server wants encrypted. -/
def applyParameterEncryption : EncryptM Provider Unit := do
  modify fun state => { state with outputParamCeks := [] }
  lift (checkForced describe (← get).params)
  if describe.parameters.any (·.isEncrypted) then
    describe.parameters.forM (encryptRow env describe)

/-! ### What a row does -/

variable {env describe} {info : ParameterEncryptionInfo} {s s' : EncryptionState Provider}

theorem lift_eq_ok {α : Type} {result : TdsResult α} {a : α} {s₁ : EncryptionState Provider} :
    lift result s = .ok a s₁ ↔ result = .ok a ∧ s₁ = s := by
  cases result with
  | error error =>
    constructor
    · intro h
      cases h
    · rintro ⟨h, -⟩
      cases h
  | ok b =>
    constructor
    · intro h
      cases h
      exact ⟨rfl, rfl⟩
    · rintro ⟨h, rfl⟩
      cases h
      rfl

/-- An encrypted value made of a parameter under the key of an entry. -/
structure MadeFrom (env : EncryptionEnv Provider) (info : ParameterEncryptionInfo)
    (entry : CekTableEntry) (param : RpcParameter) (encrypted : EncryptedRpcValue) : Prop where
  metadata : encrypted.metadata = encryptionMetadata info entry
  ciphertext : ∃ key before after value draw,
    decryptCek env.providers env.registry env.trustedKeyPaths entry before = (.ok key, after) ∧
    param.valueForEncryption env.codecs env.databaseCollation =
      .ok (value, encrypted.hadConversionLoss) ∧
    encryptParameter env.crypto (env.random draw) value key info.cipherAlgorithmId
      info.encryptionType info.normalizationRuleVersion = .ok encrypted.ciphertext

/-- The encrypted value of a parameter was made under a key. -/
def SealedUnder (env : EncryptionEnv Provider) (key : Key) (param : RpcParameter)
    (encrypted : EncryptedRpcValue) : Prop :=
  ∃ value draw, param.valueForEncryption env.codecs env.databaseCollation =
      .ok (value, encrypted.hadConversionLoss) ∧
    encryptParameter env.crypto (env.random draw) value key encrypted.metadata.cipherAlgorithmId
      encrypted.metadata.encryptionType encrypted.metadata.normalizationRuleVersion =
        .ok encrypted.ciphertext

theorem encryptWith_ok {entry : CekTableEntry} {index : ℕ} {param : RpcParameter}
    (h : encryptWith env info entry index param s = .ok () s') :
    ∃ encrypted, MadeFrom env info entry param encrypted ∧
      s'.params = s.params.set index { param with encrypted := some encrypted } ∧
      ∃ key, SealedUnder env key param encrypted ∧
        s'.outputParamCeks = (normalizeParamName info.parameterName, key) :: s.outputParamCeks := by
  obtain ⟨key, s₁, hkey, h₁⟩ := bind_eq_ok.mp h
  obtain ⟨_, s₂, hkept, h₂⟩ := bind_eq_ok.mp h₁
  obtain ⟨⟨value, hadConversionLoss⟩, s₃, hlift, h₃⟩ := bind_eq_ok.mp h₂
  obtain ⟨random, s₄, hrandom, h₄⟩ := bind_eq_ok.mp h₃
  obtain ⟨ciphertext, s₅, hencrypt, h₅⟩ := bind_eq_ok.mp h₄
  obtain ⟨hvalue, rfl⟩ := lift_eq_ok.mp hlift
  obtain ⟨hciphertext, rfl⟩ := lift_eq_ok.mp hencrypt
  cases h₅
  cases hrandom
  cases hkept
  unfold unwrap at hkey
  split at hkey
  · next keys hunwrap =>
    cases hkey
    exact ⟨⟨ciphertext, encryptionMetadata info entry, hadConversionLoss⟩,
      ⟨rfl, key, _, _, value, _, hunwrap, hvalue, hciphertext⟩, rfl, key,
      ⟨value, _, hvalue, hciphertext⟩, rfl⟩
  · cases hkey

/-- **What a row does**: it encrypts the parameter it is about, under the key it names. -/
theorem encryptRow_ok (h : encryptRow env describe info s = .ok () s')
    (hencrypted : info.isEncrypted = true) :
    ∃ entry index param encrypted, describe.cekEntryFor info.cekOrdinal = some entry ∧
      matchDescribeParamIndex s.params info = some index ∧ s.params[index]? = some param ∧
      MadeFrom env info entry param encrypted ∧
      s'.params = s.params.set index { param with encrypted := some encrypted } ∧
      ∃ key, SealedUnder env key param encrypted ∧
        s'.outputParamCeks = (normalizeParamName info.parameterName, key) :: s.outputParamCeks := by
  unfold encryptRow at h
  rw [hencrypted] at h
  cases hentry : describe.cekEntryFor info.cekOrdinal with
  | none =>
    rw [hentry] at h
    cases h
  | some entry =>
    rw [hentry] at h
    obtain ⟨state, s₁, hget, h⟩ := bind_eq_ok.mp h
    cases hget
    cases hindex : matchDescribeParamIndex s.params info with
    | none =>
      simp only [hindex] at h
      cases h
    | some index =>
      simp only [hindex] at h
      cases hparam : s.params[index]? with
      | none =>
        simp only [hparam] at h
        cases h
      | some param =>
        simp only [hparam] at h
        split at h
        · cases h
        · obtain ⟨encrypted, hmade, hkept⟩ := encryptWith_ok h
          exact ⟨entry, index, param, encrypted, rfl, rfl, hparam, hmade, hkept⟩

theorem encryptRow_plaintext (h : encryptRow env describe info s = .ok () s')
    (hplaintext : info.isEncrypted = false) : s' = s := by
  unfold encryptRow at h
  rw [hplaintext] at h
  cases h
  rfl

/-! ### What the rows do -/

/-- An encrypted row is about the parameter. -/
def MapsTo (rows : List ParameterEncryptionInfo) (params : List RpcParameter) (i : ℕ) : Prop :=
  ∃ info ∈ rows, info.isEncrypted = true ∧ matchDescribeParamIndex params info = some i

/-- The parameter carries a ciphertext that was made under the key of a row about it. -/
def EncryptedBy (env : EncryptionEnv Provider) (describe : DescribeParameterEncryptionResult)
    (rows : List ParameterEncryptionInfo) (params : List RpcParameter) (i : ℕ)
    (original : RpcParameter) (encrypted : EncryptedRpcValue) : Prop :=
  ∃ info ∈ rows, info.isEncrypted = true ∧ matchDescribeParamIndex params info = some i ∧
    ∃ entry, describe.cekEntryFor info.cekOrdinal = some entry ∧
      MadeFrom env info entry original encrypted

/-- How far the parameters are encrypted when some of the rows have been gone through. -/
structure Progress (env : EncryptionEnv Provider) (describe : DescribeParameterEncryptionResult)
    (params : List RpcParameter) (rows : List ParameterEncryptionInfo)
    (current : List RpcParameter) : Prop where
  length : current.length = params.length
  parameter : ∀ i original, params[i]? = some original → ∃ encrypted,
    current[i]? = some { original with encrypted := encrypted } ∧
    (MapsTo rows params i →
      ∃ value, encrypted = some value ∧ EncryptedBy env describe rows params i original value) ∧
    (¬ MapsTo rows params i → encrypted = original.encrypted)

theorem nameMatches_eq (p : RpcParameter) : nameMatches info p =
    (p.name.map fun name => eqIgnoreAsciiCase (String.ofList name) info.parameterName).getD
      false := by
  unfold nameMatches
  cases p.name <;> rfl

/-- Rows are matched by names alone. -/
theorem matchDescribeParamIndex_congr {params params' : List RpcParameter}
    (h : params.map (·.name) = params'.map (·.name)) :
    matchDescribeParamIndex params info = matchDescribeParamIndex params' info := by
  have hfind : ∀ ps : List RpcParameter, ps.findIdx? (nameMatches info) =
      (ps.map (·.name)).findIdx? fun name =>
        (name.map fun name => eqIgnoreAsciiCase (String.ofList name) info.parameterName).getD
          false := by
    intro ps
    rw [List.findIdx?_map]
    congr 1
    funext p
    exact nameMatches_eq p
  have hunnamed : ∀ (ps : List RpcParameter) (i : ℕ),
      (match ps[i]? with
        | some p => if p.name.isNone then some i else none
        | none => none) =
      match (ps.map (·.name))[i]? with
        | some name => if name.isNone then some i else none
        | none => none := by
    intro ps i
    rw [List.getElem?_map]
    cases ps[i]? <;> rfl
  unfold matchDescribeParamIndex
  simp only [hfind, hunnamed, h]

variable {params current : List RpcParameter} {rows : List ParameterEncryptionInfo} {i : ℕ}
  {original : RpcParameter}

theorem Progress.names (h : Progress env describe params rows current) :
    current.map (·.name) = params.map (·.name) := by
  apply List.ext_getElem?
  intro i
  rw [List.getElem?_map, List.getElem?_map]
  cases hparam : params[i]? with
  | none =>
    have hnone : current[i]? = none := by
      rw [List.getElem?_eq_none_iff, h.length]
      exact List.getElem?_eq_none_iff.mp hparam
    rw [hnone]
  | some original =>
    obtain ⟨encrypted, hcurrent, -⟩ := h.parameter i original hparam
    rw [hcurrent]
    rfl

theorem Progress.refl (params : List RpcParameter) : Progress env describe params [] params := by
  refine ⟨rfl, fun i original hparam => ⟨original.encrypted, hparam, ?_, fun _ => rfl⟩⟩
  rintro ⟨info, hmem, -⟩
  cases hmem

theorem mapsTo_concat :
    MapsTo (rows ++ [info]) params i ↔ MapsTo rows params i ∨
      (info.isEncrypted = true ∧ matchDescribeParamIndex params info = some i) := by
  constructor
  · rintro ⟨row, hmem, hrow⟩
    rcases List.mem_append.mp hmem with hmem | hmem
    · exact .inl ⟨row, hmem, hrow⟩
    · obtain rfl := List.mem_singleton.mp hmem
      exact .inr hrow
  · rintro (⟨row, hmem, hrow⟩ | hrow)
    · exact ⟨row, List.mem_append_left _ hmem, hrow⟩
    · exact ⟨info, List.mem_append_right _ (List.mem_singleton_self info), hrow⟩

theorem EncryptedBy.concat {encrypted : EncryptedRpcValue}
    (h : EncryptedBy env describe rows params i original encrypted) :
    EncryptedBy env describe (rows ++ [info]) params i original encrypted := by
  obtain ⟨row, hmem, hrow⟩ := h
  exact ⟨row, List.mem_append_left _ hmem, hrow⟩

/-- A row leaves the parameters alone that it is not about. -/
theorem Progress.skip (h : Progress env describe params rows current)
    (hparam : params[i]? = some original)
    (hother : ¬ (info.isEncrypted = true ∧ matchDescribeParamIndex params info = some i)) :
    ∃ encrypted, current[i]? = some { original with encrypted := encrypted } ∧
      (MapsTo (rows ++ [info]) params i → ∃ value, encrypted = some value ∧
        EncryptedBy env describe (rows ++ [info]) params i original value) ∧
      (¬ MapsTo (rows ++ [info]) params i → encrypted = original.encrypted) := by
  have hmaps : MapsTo (rows ++ [info]) params i ↔ MapsTo rows params i := by
    rw [mapsTo_concat, or_iff_left hother]
  obtain ⟨encrypted, hcurrent, hdone, hnot⟩ := h.parameter i original hparam
  refine ⟨encrypted, hcurrent, fun hmap => ?_, fun hmap => hnot (mt hmaps.mpr hmap)⟩
  obtain ⟨value, hvalue, hby⟩ := hdone (hmaps.mp hmap)
  exact ⟨value, hvalue, hby.concat⟩

/-- One more row. -/
theorem Progress.row (h : Progress env describe params rows s.params)
    (hrow : encryptRow env describe info s = .ok () s') :
    Progress env describe params (rows ++ [info]) s'.params := by
  cases hencrypted : info.isEncrypted with
  | false =>
    obtain rfl := encryptRow_plaintext hrow hencrypted
    refine ⟨h.length, fun i original hparam => h.skip hparam ?_⟩
    rw [hencrypted]
    simp
  | true =>
    obtain ⟨entry, index, param, encrypted, hentry, hindex, hcurrent, hmade, hset, -⟩ :=
      encryptRow_ok hrow hencrypted
    rw [matchDescribeParamIndex_congr h.names] at hindex
    refine ⟨by rw [hset, List.length_set, h.length], fun i original hparam => ?_⟩
    by_cases hi : index = i
    · -- the parameter of the row, as it is before the row or after earlier ones
      subst hi
      obtain ⟨before, hbefore, -⟩ := h.parameter index original hparam
      obtain rfl := Option.some.inj (hcurrent.symm.trans hbefore)
      have hlt : index < s.params.length := (List.getElem?_eq_some_iff.mp hcurrent).1
      refine ⟨some encrypted, by rw [hset, List.getElem?_set_self hlt], fun _ => ?_, fun hnot => ?_⟩
      · refine ⟨encrypted, rfl, info, List.mem_append_right _ (List.mem_singleton_self info),
          hencrypted, hindex, entry, hentry, hmade.metadata, ?_⟩
        exact hmade.ciphertext
      · exact absurd (mapsTo_concat.mpr (.inr ⟨hencrypted, hindex⟩)) hnot
    · rw [hset, List.getElem?_set_ne hi]
      refine h.skip hparam ?_
      rintro ⟨-, hindex'⟩
      exact hi (Option.some.inj (hindex.symm.trans hindex'))

/-- **A whole run over the rows.** -/
theorem Progress.run (rest : List ParameterEncryptionInfo) :
    ∀ {rows : List ParameterEncryptionInfo} {s s' : EncryptionState Provider},
      Progress env describe params rows s.params →
      rest.forM (encryptRow env describe) s = .ok () s' →
      Progress env describe params (rows ++ rest) s'.params := by
  induction rest with
  | nil =>
    intro rows s s' h hrun
    cases hrun
    rwa [List.append_nil]
  | cons info rest ih =>
    intro rows s s' h hrun
    obtain ⟨_, s₁, hrow, hrest⟩ := bind_eq_ok.mp hrun
    have hall := ih (h.row hrow) hrest
    rwa [List.append_assoc] at hall

/-! ### No downgrade -/

theorem mapsTo_of_checkForced (h : checkForced describe params = .ok ()) {p : RpcParameter}
    (hp : params[i]? = some p) (hforced : p.forceColumnEncryption = true) :
    MapsTo describe.parameters params i := by
  have hcheck := forM_eq_ok_iff.mp h (p, i) (List.mk_mem_zipIdx_iff_getElem?.mpr hp)
  simp only [hforced, Bool.true_and] at hcheck
  split at hcheck
  · cases hcheck
  · next hreported =>
    simp only [Bool.not_eq_true', Bool.not_eq_false] at hreported
    obtain ⟨info, hmem, hinfo⟩ := List.any_eq_true.mp hreported
    simp only [Bool.and_eq_true, beq_iff_eq] at hinfo
    exact ⟨info, hmem, hinfo⟩

/-- **What a successful call does to the parameters.** -/
theorem progress_of_apply (h : applyParameterEncryption env describe s = .ok () s') :
    Progress env describe s.params describe.parameters s'.params ∧
      ∀ i p, s.params[i]? = some p → p.forceColumnEncryption = true →
        MapsTo describe.parameters s.params i := by
  obtain ⟨_, s₁, hclear, h₁⟩ := bind_eq_ok.mp h
  cases hclear
  obtain ⟨s₂, _, hget, h₂⟩ := bind_eq_ok.mp h₁
  cases hget
  obtain ⟨_, s₃, hlift, h₃⟩ := bind_eq_ok.mp h₂
  obtain ⟨hcheck, rfl⟩ := lift_eq_ok.mp hlift
  refine ⟨?_, fun i p hp hforced => mapsTo_of_checkForced hcheck hp hforced⟩
  by_cases hany : describe.parameters.any (·.isEncrypted) = true
  · rw [if_pos hany] at h₃
    have hstart : Progress env describe s.params []
        ({ s with outputParamCeks := [] } : EncryptionState Provider).params := Progress.refl _
    exact Progress.run describe.parameters hstart h₃
  · -- no row is encrypted, so no parameter is mapped to
    rw [if_neg hany] at h₃
    cases h₃
    refine ⟨rfl, fun i original hparam => ⟨original.encrypted, hparam, ?_, fun _ => rfl⟩⟩
    rintro ⟨info, hmem, hencrypted, -⟩
    exact absurd (List.any_eq_true.mpr ⟨info, hmem, hencrypted⟩) hany

end

/-! A statement with two parameters, of which the server wants one encrypted. -/

/-- One key, wrapped once, and a store that unwraps it. -/
def oneKeyEnv : EncryptionEnv Unit where
  providers := fun _ _ _ _ _ => .ok (List.replicate 32 0)
  registry := ⟨[("STORE", ())]⟩
  trustedKeyPaths := []
  crypto := .transparent
  codecs := .latin1
  databaseCollation := .default
  random := fun _ => .ok (.replicate 16 0)

def oneKeyAnswer : DescribeParameterEncryptionResult where
  cekEntries := [(1, ⟨5, 1, 1, .replicate 8 0, [⟨[1], "store", "path", "RSA_OAEP"⟩]⟩)]
  parameters := [⟨1, "@A", 2, 1, 1, 1⟩, ⟨2, "@b", 0, 0, 0, 0⟩]

/-- The first parameter must be encrypted. -/
def twoParameters : EncryptionState Unit where
  params := [{ RpcParameter.new (some ['@', 'a']) 0 (.int (some 7)) with
      forceColumnEncryption := true }, .new (some ['@', 'b']) 0 (.int (some 8))]
  outputParamCeks := []
  keys := ⟨.new, []⟩
  draws := 0

theorem twoParameters_encrypted :
    (match applyParameterEncryption oneKeyEnv oneKeyAnswer twoParameters with
      | .ok _ s => s.params.map (·.encrypted.isSome)
      | .error _ _ => []) = [true, false] := by
  decide +kernel

/-- An encrypted integer. -/
def sealedInt (v : Int32) : RpcParameter :=
  { RpcParameter.new (some ['@', 'a']) 0 (.int (some v)) with
    encrypted := some ⟨some [1, 2, 3], ⟨2, 1, 5, 1, 1, .replicate 8 0, 1⟩, false⟩ }

theorem samePublicPart_sealedInt (v v' : Int32) :
    SamePublicPart oneKeyEnv.codecs .default (sealedInt v) (sealedInt v') :=
  ⟨rfl, rfl, ⟨_, _, rfl, rfl, rfl, rfl⟩,
    ⟨_, PacketWriter.Emits.fixedBytes [TdsDataType.intN.code, 4],
      PacketWriter.Emits.fixedBytes [TdsDataType.intN.code, 4]⟩⟩

end MssqlTds
