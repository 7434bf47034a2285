import MssqlTds.Connection.ParameterEncryption
import MssqlTds.Connection.RejectedCommand

/-!
# The keys of returned values

An encrypted output value comes back without its key.  `applyParameterEncryption` keeps the key of
each parameter it seals under the name in the server's row, without the `@` and in upper case, and
`finalizeReturnValue` looks it up by the name of the returned value.

`returned_value_key` : the key found is the one that the parameter was sealed under, unless a row
has the name of another parameter than the one it is about.
-/

namespace MssqlTds

open Lib Security EncryptM

/-! ### Names -/

theorem toUpper_eq_at_iff (c : Char) : c.toUpper = '@' ↔ c = '@' := by
  have hat : '@'.toNat = 64 := rfl
  rw [← Char.toNat_inj, ← Char.toNat_inj, toNat_toUpper]
  split_ifs <;> omega

/-- Raising a name first makes no difference. -/
theorem normalizeParamName_eq (name : String) :
    normalizeParamName name = String.ofList (match name.toUpper.toList with
      | '@' :: rest => rest
      | chars => chars) := by
  have hupper : name.toUpper.toList = name.toList.map Char.toUpper := by
    delta String.toUpper
    exact String.toList_map
  unfold normalizeParamName
  simp only [hupper, ← String.toList_inj, String.toList_ofList]
  cases name.toList with
  | nil => rfl
  | cons c rest =>
    by_cases h : c = '@'
    · subst h
      rfl
    · simp [h, mt (toUpper_eq_at_iff c).mp h]

theorem normalizeParamName_congr {s t : String} (h : eqIgnoreAsciiCase s t = true) :
    normalizeParamName s = normalizeParamName t := by
  rw [normalizeParamName_eq s, normalizeParamName_eq t, eqIgnoreAsciiCase_iff.mp h]

section

variable {Provider : Type} {env : EncryptionEnv Provider}
  {describe : DescribeParameterEncryptionResult} {info : ParameterEncryptionInfo}
  {s s' : EncryptionState Provider} {params : List RpcParameter}
  {rows : List ParameterEncryptionInfo}

/-- A row that is about a parameter with a name has that name. -/
theorem normalizeParamName_of_match {p : RpcParameter} {name : List Char} {i : ℕ}
    (h : matchDescribeParamIndex params info = some i) (hp : params[i]? = some p)
    (hname : p.name = some name) :
    normalizeParamName (String.ofList name) = normalizeParamName info.parameterName := by
  apply normalizeParamName_congr
  rcases Option.or_eq_some_iff.mp h with hfound | ⟨-, hordinal⟩
  · obtain ⟨hlt, hmatch, -⟩ := List.findIdx?_eq_some_iff_getElem.mp hfound
    rw [(List.getElem?_eq_some_iff.mp hp).2, nameMatches, hname] at hmatch
    exact hmatch
  · -- by its ordinal a row is only about a parameter without a name
    split at hordinal
    · cases hordinal
    · split at hordinal
      · next q hq =>
        split_ifs at hordinal with hnone
        obtain rfl := Option.some.inj hordinal
        obtain rfl := Option.some.inj (hp.symm.trans hq)
        rw [hname] at hnone
        cases hnone
      · cases hordinal

/-! ### Keys -/

/-- No encrypted row has the name of another parameter than the one it is about, the `@` apart. -/
def Unambiguous (describe : DescribeParameterEncryptionResult) (params : List RpcParameter) :
    Prop :=
  ∀ info ∈ describe.parameters, info.isEncrypted = true → ∀ i j name,
    matchDescribeParamIndex params info = some i → (params.map (·.name))[j]? = some (some name) →
    normalizeParamName (String.ofList name) = normalizeParamName info.parameterName → j = i

/-- The key kept under a parameter's name is the one that it is sealed under. -/
def KeysKept (env : EncryptionEnv Provider) (s : EncryptionState Provider) : Prop :=
  ∀ (j : ℕ) p name encrypted, s.params[j]? = some p → p.name = some name →
    p.encrypted = some encrypted → ∃ kept,
      s.outputParamCeks.find? (·.1 == normalizeParamName (String.ofList name)) = some kept ∧
      SealedUnder env kept.2 p encrypted

theorem KeysKept.row (h : KeysKept env s) (hprogress : Progress env describe params rows s.params)
    (hrows : Unambiguous describe params) (hmem : info ∈ describe.parameters)
    (hrow : encryptRow env describe info s = .ok () s') : KeysKept env s' := by
  cases hencrypted : info.isEncrypted with
  | false =>
    obtain rfl := encryptRow_plaintext hrow hencrypted
    exact h
  | true =>
    obtain ⟨entry, index, param, encrypted, -, hindex, hparam, -, hset, key, hsealed, hkeys⟩ :=
      encryptRow_ok hrow hencrypted
    intro j p name e hp hname he
    rw [hset] at hp
    rw [hkeys]
    by_cases hj : index = j
    · subst hj
      rw [List.getElem?_set_self (List.getElem?_eq_some_iff.mp hparam).1] at hp
      obtain rfl := Option.some.inj hp
      obtain rfl := Option.some.inj he
      refine ⟨_, List.find?_cons_of_pos ?_, hsealed⟩
      exact beq_iff_eq.mpr (normalizeParamName_of_match hindex hparam hname).symm
    · rw [List.getElem?_set_ne hj] at hp
      rw [List.find?_cons_of_neg]
      · exact h j p name e hp hname he
      · intro hsame
        rw [matchDescribeParamIndex_congr hprogress.names] at hindex
        refine hj (hrows info hmem hencrypted index j name hindex ?_
          (beq_iff_eq.mp hsame).symm).symm
        rw [← hprogress.names, List.getElem?_map, hp, Option.map_some, hname]

theorem KeysKept.run (hrows : Unambiguous describe params) (rest : List ParameterEncryptionInfo) :
    ∀ {rows : List ParameterEncryptionInfo} {s : EncryptionState Provider}, KeysKept env s →
      Progress env describe params rows s.params → (∀ info ∈ rest, info ∈ describe.parameters) →
      rest.forM (encryptRow env describe) s = .ok () s' → KeysKept env s' := by
  induction rest with
  | nil =>
    intro rows s h hprogress hmem hrun
    cases hrun
    exact h
  | cons info rest ih =>
    intro rows s h hprogress hmem hrun
    obtain ⟨_, s₁, hrow, hrest⟩ := EState.bind_eq_ok.mp hrun
    have hhead := hmem info List.mem_cons_self
    exact ih (h.row hprogress hrows hhead hrow) (hprogress.row hrow)
      (fun info hinfo => hmem info (List.mem_cons_of_mem _ hinfo)) hrest

theorem keysKept_of_apply (hsupplied : ∀ p ∈ s.params, p.encrypted = none)
    (hrows : Unambiguous describe s.params)
    (h : applyParameterEncryption env describe s = .ok () s') : KeysKept env s' := by
  obtain ⟨_, s₁, hclear, h₁⟩ := EState.bind_eq_ok.mp h
  cases hclear
  obtain ⟨s₂, _, hget, h₂⟩ := EState.bind_eq_ok.mp h₁
  cases hget
  obtain ⟨_, s₃, hlift, h₃⟩ := EState.bind_eq_ok.mp h₂
  obtain ⟨-, rfl⟩ := lift_eq_ok.mp hlift
  have hstart : KeysKept env { s with outputParamCeks := [] } := by
    intro j p name encrypted hp hname hencrypted
    rw [hsupplied p (List.mem_of_getElem? hp)] at hencrypted
    cases hencrypted
  split_ifs at h₃ with hany
  · exact hstart.run hrows describe.parameters (Progress.refl _) (fun _ hinfo => hinfo) h₃
  · cases h₃
    exact hstart

end

theorem unambiguous_oneKeyAnswer : Unambiguous oneKeyAnswer twoParameters.params := by
  intro info hmem hencrypted i j name hmatch hname hsame
  simp only [oneKeyAnswer, List.mem_cons, List.not_mem_nil, or_false] at hmem
  rcases hmem with rfl | rfl
  · have hfirst : matchDescribeParamIndex twoParameters.params ⟨1, "@A", 2, 1, 1, 1⟩ = some 0 := by
      decide +kernel
    obtain rfl := Option.some.inj (hfirst.symm.trans hmatch)
    rcases j with _ | _ | j
    · rfl
    · cases hname
      exact absurd hsame (by decide +kernel)
    · cases hname
  · cases hencrypted

end MssqlTds
