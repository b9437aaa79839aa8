import CipherModes.Proofs.Action

/-!
# What operations establish

An operation is told by what holds before it and what then holds of its result
and of the state after it. Such statements are put together along the operation.
-/

set_option autoImplicit false

namespace CipherModes

variable {σ α β : Type}

/-- From every state with the one property, an operation comes to a result and a state with the
other. -/
def Establishes (before : σ → Prop) (operation : StateM σ α) (after : α → σ → Prop) : Prop :=
  ∀ state, before state → after (operation state).1 (operation state).2

namespace Establishes

variable {before : σ → Prop} {between : α → σ → Prop} {after : β → σ → Prop}
  {operation : StateM σ α} {rest : α → StateM σ β}

theorem pure {value : β} (holds : ∀ state, before state → after value state) :
    Establishes before (Pure.pure value) after := holds

theorem bind (between : α → σ → Prop) (first : Establishes before operation between)
    (second : ∀ value, Establishes (between value) (rest value) after) :
    Establishes before (operation >>= rest) after :=
  fun state holds => second _ _ (first state holds)

theorem mono {stronger : σ → Prop} {weaker : α → σ → Prop}
    (establishes : Establishes before operation between)
    (strengthen : ∀ state, stronger state → before state)
    (weaken : ∀ value state, between value state → weaker value state) :
    Establishes stronger operation weaker :=
  fun state holds => weaken _ _ (establishes state (strengthen state holds))

end Establishes

/-- From every state with the first property, an action succeeds with a value and a state of the
second, or fails in a state with the third. -/
def Action.Establishes (before : σ → Prop) (action : Action σ α) (success : α → σ → Prop)
    (failure : σ → Prop) : Prop :=
  ∀ state, before state →
    match action state with
    | (.ok value, next) => success value next
    | (.error _, next) => failure next

/-- What holds before an action still holds however it ends. -/
abbrev Action.Maintains (holds : σ → Prop) (action : Action σ α) : Prop :=
  action.Establishes holds (fun _ => holds) holds

namespace Action.Establishes

variable {before : σ → Prop} {between : α → σ → Prop} {success : β → σ → Prop}
  {failure : σ → Prop} {action : Action σ α} {rest : α → Action σ β}

theorem pure {value : β} (holds : ∀ state, before state → success value state) :
    Action.Establishes before (Pure.pure value) success failure := holds

theorem throw {error : CipherError} (holds : ∀ state, before state → failure state) :
    Action.Establishes (α := β) before (MonadExcept.throw error) success failure := holds

theorem bind (between : α → σ → Prop) (first : action.Establishes before between failure)
    (second : ∀ value, (rest value).Establishes (between value) success failure) :
    (action >>= rest).Establishes before success failure := by
  intro state holds
  have halfway := first state holds
  rw [bind_apply]
  cases ran : action state with
  | mk result middle =>
      rw [ran] at halfway
      cases result with
      | error error => exact halfway
      | ok value => exact second value middle halfway

theorem mono {stronger : σ → Prop} {weaker : α → σ → Prop} {failed : σ → Prop}
    (establishes : action.Establishes before between failure)
    (strengthen : ∀ state, stronger state → before state)
    (weaken : ∀ value state, between value state → weaker value state)
    (weakenFailure : ∀ state, failure state → failed state) :
    action.Establishes stronger weaker failed := by
  intro state holds
  have ended := establishes state (strengthen state holds)
  cases ran : action state with
  | mk result next =>
      rw [ran] at ended
      cases result with
      | error error => exact weakenFailure next ended
      | ok value => exact weaken value next ended

/-- What holds however an action ends can be told apart by how it ends. -/
theorem of_outcome {kept : σ → Prop} {accepts : α → Prop}
    (outcome : ∀ state, before state →
      kept (action state).2 ∧ ∀ value, (action state).1 = .ok value → accepts value) :
    action.Establishes before (fun value next => accepts value ∧ kept next) kept := by
  intro state holds
  obtain ⟨last, accepted⟩ := outcome state holds
  cases ran : action state with
  | mk result next =>
      rw [ran] at last accepted
      cases result with
      | error error => exact last
      | ok value => exact ⟨accepted value rfl, last⟩

theorem ok_of_eq {state next : σ} {value : α}
    (establishes : action.Establishes before between failure) (holds : before state)
    (ran : action state = (.ok value, next)) : between value next := by
  have ended := establishes state holds
  rwa [ran] at ended

theorem error_of_eq {state next : σ} {error : CipherError}
    (establishes : action.Establishes before between failure) (holds : before state)
    (ran : action state = (.error error, next)) : failure next := by
  have ended := establishes state holds
  rwa [ran] at ended

end Action.Establishes

end CipherModes
