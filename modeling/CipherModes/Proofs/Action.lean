import CipherModes.Provider

/-!
# Sequences of actions

A sequence of actions succeeds only if each of them does, the next one in the
state that the one before it left.
-/

set_option autoImplicit false

/-- What is made of a result in two steps. -/
theorem CipherModes.Except.map_map {ε α β γ : Type} (result : Except ε α) (first : α → β)
    (next : β → γ) : (result.map first).map next = result.map fun value => next (first value) := by
  cases result <;> rfl

namespace CipherModes.Action

variable {σ α β : Type} {action : Action σ α} {rest : α → Action σ β} {state middle final : σ}

theorem bind_apply (action : Action σ α) (rest : α → Action σ β) (state : σ) :
    (action >>= rest) state =
      match action state with
      | (.ok value, middle) => rest value middle
      | (.error error, middle) => (.error error, middle) := by
  simp only [bind, ExceptT.bind, ExceptT.mk, StateT.bind]
  cases action state with
  | mk result middle => cases result <;> rfl

theorem bind_of_ok {value : α} (success : action state = (.ok value, middle)) :
    (action >>= rest) state = rest value middle := by
  rw [bind_apply, success]

theorem bind_of_error {error : CipherError} (failed : action state = (.error error, middle)) :
    (action >>= rest) state = (.error error, middle) := by
  rw [bind_apply, failed]

theorem bind_eq_ok {result : β} (success : (action >>= rest) state = (.ok result, final)) :
    ∃ value middle, action state = (.ok value, middle) ∧
      rest value middle = (.ok result, final) := by
  cases first : action state with
  | mk outcome middle =>
      cases outcome with
      | error error =>
          rw [bind_of_error first] at success
          cases success
      | ok value => exact ⟨value, middle, rfl, by rwa [bind_of_ok first] at success⟩

/-! ## What is made of a result -/

variable {made : α → β}

theorem error_of_map {error : CipherError}
    (failed : (action >>= fun value => pure (made value)) state = (.error error, final)) :
    action state = (.error error, final) := by
  cases first : action state with
  | mk outcome middle =>
      cases outcome with
      | error other =>
          rw [bind_of_error first] at failed
          cases failed
          rfl
      | ok value =>
          rw [bind_of_ok first] at failed
          cases failed

theorem state_of_map (action : Action σ α) (made : α → β) (state : σ) :
    ((action >>= fun value => pure (made value)) state).2 = (action state).2 := by
  rw [bind_apply]
  cases action state with
  | mk outcome middle => cases outcome <;> rfl

theorem result_of_map (action : Action σ α) (made : α → β) (state : σ) :
    ((action >>= fun value => pure (made value)) state).1 = (action state).1.map made := by
  rw [bind_apply]
  cases action state with
  | mk outcome middle => cases outcome <;> rfl

end CipherModes.Action
