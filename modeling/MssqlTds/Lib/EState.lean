import Mathlib.Tactic.Common

/-!
# Running computations with state and errors

A computation in `EStateM ε σ` keeps its state when it fails.  The simp lemmas below run one
step of it on a given state, and `bind_ok` and `bind_error` run the first half of a sequence.

`Keeps P E m` says that `m` preserves `P` when it succeeds and ends in `E` when it fails.
`Respects R m` compares two runs of `m`: from related states it gives the same result and leads to
related states again.
-/

namespace EState

variable {ε σ α β : Type} {s : σ}

@[simp] theorem bind_apply (x : EStateM ε σ α) (f : α → EStateM ε σ β) :
    (x >>= f) s = match x s with
      | .ok a s' => f a s'
      | .error e s' => .error e s' := rfl

@[simp] theorem pure_apply (a : α) : (pure a : EStateM ε σ α) s = .ok a s := rfl

theorem map_apply (f : α → β) (x : EStateM ε σ α) :
    (f <$> x) s = match x s with
      | .ok a s' => .ok (f a) s'
      | .error e s' => .error e s' := rfl

@[simp] theorem get_apply : (get : EStateM ε σ σ) s = .ok s s := rfl

@[simp] theorem modify_apply (f : σ → σ) : (modify f : EStateM ε σ PUnit) s = .ok ⟨⟩ (f s) := rfl

@[simp] theorem throw_apply (e : ε) : (throw e : EStateM ε σ α) s = .error e s := rfl

@[simp] theorem ite_apply {c : Prop} [Decidable c] (x y : EStateM ε σ α) :
    (if c then x else y) s = if c then x s else y s := by
  split <;> rfl

/-- A conditional step before the rest of a sequence. -/
theorem when_bind {c : Prop} [Decidable c] (x : EStateM ε σ Unit) (y : EStateM ε σ α) :
    (if c then x >>= fun _ => y else y) = (if c then x else pure ()) >>= fun _ => y := by
  split <;> rfl

variable {f : α → EStateM ε σ β} {x : EStateM ε σ α}

theorem bind_ok {a : α} {s' : σ}
    (h : x s = .ok a s') : (x >>= f) s = f a s' := by
  rw [bind_apply, h]

theorem bind_error {e : ε} {s' : σ}
    (h : x s = .error e s') : (x >>= f) s = .error e s' := by
  rw [bind_apply, h]

/-- A sequence succeeds if both of its parts do. -/
theorem bind_eq_ok {b : β} {s' : σ} :
    (x >>= f) s = .ok b s' ↔ ∃ a s₁, x s = .ok a s₁ ∧ f a s₁ = .ok b s' := by
  rw [bind_apply]
  cases hx : x s with
  | error e s₁ =>
    constructor
    · intro h
      cases h
    · rintro ⟨a, s₂, h, -⟩
      cases h
  | ok a s₁ =>
    refine ⟨fun h => ⟨a, s₁, rfl, h⟩, ?_⟩
    rintro ⟨a', s₂, h, hb⟩
    cases h
    exact hb

@[simp] theorem result_pure (a : α) : (pure a : Except ε α) = .ok a := rfl

@[simp] theorem result_ok_bind (a : α) (f : α → Except ε β) :
    ((.ok a : Except ε α) >>= f) = f a := rfl

@[simp] theorem result_error_bind (e : ε) (f : α → Except ε β) :
    ((.error e : Except ε α) >>= f) = .error e := rfl

/-- A sequence of results succeeds if both of its parts do. -/
theorem result_bind_eq_ok {x : Except ε α} {f : α → Except ε β} {b : β} :
    (x >>= f) = .ok b ↔ ∃ a, x = .ok a ∧ f a = .ok b := by
  cases x with
  | error e =>
    constructor
    · intro h
      cases h
    · rintro ⟨a, h, -⟩
      cases h
  | ok a =>
    refine ⟨fun h => ⟨a, rfl, h⟩, ?_⟩
    rintro ⟨a', h, hb⟩
    cases h
    exact hb

/-- The state a computation ends in, whether it succeeds or fails. -/
def finalState (x : EStateM ε σ α) (s : σ) : σ :=
  match x s with
  | .ok _ s' => s'
  | .error _ s' => s'

/-- A success has reached a state with `P`, a failure one with `E`. -/
def Ends (P E : σ → Prop) : EStateM.Result ε σ α → Prop
  | .ok _ s => P s
  | .error _ s => E s

/-- From a state with `P`, success leads to a state with `P` and failure to one with `E`. -/
def Keeps (P E : σ → Prop) (x : EStateM ε σ α) : Prop := ∀ s, P s → Ends P E (x s)

section Keeps

variable {P E : σ → Prop} {x : EStateM ε σ α}

theorem Keeps.pure (a : α) : Keeps P E (pure a : EStateM ε σ α) := fun _ hs => hs

theorem Keeps.throw (h : ∀ s, P s → E s) (e : ε) : Keeps P E (throw e : EStateM ε σ α) :=
  fun s hs => h s hs

theorem Keeps.modify {f : σ → σ} (h : ∀ s, P s → P (f s)) :
    Keeps P E (modify f : EStateM ε σ PUnit) := h

theorem Keeps.bind (hx : Keeps P E x) (hf : ∀ a, Keeps P E (f a)) :
    Keeps P E (x >>= f) := by
  intro s hs
  have h := hx s hs
  rw [bind_apply]
  cases hxs : x s with
  | ok a s' =>
    rw [hxs] at h
    exact hf a s' h
  | error e s' =>
    rw [hxs] at h
    exact h

/-- Reading the state first: the rest may use that the state read has `P`. -/
theorem Keeps.get_bind {f : σ → EStateM ε σ α} (h : ∀ s, P s → Keeps P E (f s)) :
    Keeps P E (get >>= f) := fun s hs => h s hs s hs

theorem Keeps.ite {c : Prop} [Decidable c] {y : EStateM ε σ α} (hx : Keeps P E x)
    (hy : Keeps P E y) : Keeps P E (if c then x else y) := by
  split
  · exact hx
  · exact hy

theorem Keeps.finalState (h : Keeps P E x) (hPE : ∀ s, P s → E s) (hs : P s) :
    E (finalState x s) := by
  have := h s hs
  unfold EState.finalState
  cases hx : x s with
  | ok a s' =>
    rw [hx] at this
    exact hPE s' this
  | error e s' =>
    rw [hx] at this
    exact this

end Keeps

/-! ### Two runs -/

/-- The same success or failure, in related states. -/
inductive SameResult (R : σ → σ → Prop) : EStateM.Result ε σ α → EStateM.Result ε σ α → Prop
  | ok (a : α) {s s' : σ} (h : R s s') : SameResult R (.ok a s) (.ok a s')
  | error (e : ε) {s s' : σ} (h : R s s') : SameResult R (.error e s) (.error e s')

/-- From related states the same result, in related states again. -/
def Respects (R : σ → σ → Prop) (x : EStateM ε σ α) : Prop :=
  ∀ s s', R s s' → SameResult R (x s) (x s')

section Respects

variable {R : σ → σ → Prop} {x : EStateM ε σ α}

theorem Respects.pure (a : α) : Respects R (pure a : EStateM ε σ α) := fun _ _ h => .ok a h

theorem Respects.modify {f : σ → σ} (h : ∀ s s', R s s' → R (f s) (f s')) :
    Respects R (modify f : EStateM ε σ PUnit) := fun s s' hR => .ok _ (h s s' hR)

theorem Respects.bind (hx : Respects R x) (hf : ∀ a, Respects R (f a)) :
    Respects R (x >>= f) := by
  intro s s' hR
  have h := hx s s' hR
  rw [bind_apply, bind_apply]
  revert h
  generalize x s = result
  generalize x s' = result'
  intro h
  cases h with
  | ok a h => exact hf a _ _ h
  | error e h => exact .error e h

theorem Respects.map (hx : Respects R x) (f : α → β) : Respects R (f <$> x) :=
  hx.bind fun a => .pure (f a)

/-- A state may be read for what related states have in common. -/
theorem Respects.get_bind {f : σ → EStateM ε σ α}
    (h : ∀ s s', R s s' → SameResult R (f s s) (f s' s')) : Respects R (get >>= f) := h

end Respects

end EState
