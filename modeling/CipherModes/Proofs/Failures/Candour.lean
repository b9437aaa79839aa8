import CipherModes.Backend.Recorded
import CipherModes.Proofs.Action
import CipherModes.ProviderCache

/-!
# Telling the first failure

An operation is candid if it stops at the first call that fails and tells that
failure. What it still does is to give handles back, which may fail as well and
is never told. Candour passes from operations to sequences of them: what follows
a failure has to be no more than that.
-/

set_option autoImplicit false

namespace CipherModes

/-- The call failed with an error, and it is none that gives a handle back. -/
def Event.Fails (event : Event) (error : BackendError) : Prop :=
  event.call.operation.isRelease = false ∧ event.reply.result = .error error

variable {τ α β : Type} {record : τ → List Event}

/-- Where an operation keeps its record, it adds to it calls that give handles back, if any, and
comes to such a value. -/
def OnlyReleases (record : τ → List Event) (accepts : α → Prop) (operation : StateM τ α) : Prop :=
  ∀ state, ∃ made, record (operation state).2 = record state ++ made ∧
    (∀ event ∈ made, event.call.operation.isRelease = true) ∧ accepts (operation state).1

/-- Of the calls that an operation adds to its record, one that fails is followed by none but those
that give handles back, and its error is told. So a value that tells no error came of no failure. -/
def Candid (record : τ → List Event) (tells : BackendError → α → Prop) (operation : StateM τ α) :
    Prop :=
  ∀ state, ∃ made, record (operation state).2 = record state ++ made ∧
    ∀ done event rest error, made = done ++ event :: rest → event.Fails error →
      (∀ later ∈ rest, later.call.operation.isRelease = true) ∧ tells error (operation state).1

/-- The result is the error of a call. -/
abbrev TellsError (error : BackendError) (result : Except CipherError α) : Prop :=
  result = .error (.backend error)

/-- The result that comes with some data is the error of a call. -/
abbrev TellsBeside (error : BackendError) (outcome : Except CipherError Unit × α) : Prop :=
  outcome.1 = .error (.backend error)

/-- The result of an operation that also may find a precondition broken is the error of a call. -/
abbrev TellsFault (error : BackendError) (outcome : Except Fault Unit × α) : Prop :=
  outcome.1 = .error (.error (.backend error))

/-- Whatever the error, the message is said not to be authentic. -/
abbrev TellsForgery (_error : BackendError) (outcome : Except Fault Unit × α) : Prop :=
  outcome.1 = .error (.error .authentication)

/-- Runs an action, and gives something back if it fails. -/
def Action.orRelease (action : Action τ α) (release : StateM τ Unit) : Action τ α := fun state =>
  match action state with
  | (.error error, state) => (.error error, (release state).2)
  | (.ok value, state) => (.ok value, state)

namespace OnlyReleases

theorem pure {accepts : α → Prop} {value : α} (accepted : accepts value) :
    OnlyReleases record accepts (Pure.pure value) :=
  fun _ => ⟨[], (List.append_nil _).symm, nofun, accepted⟩

/-- After it was all given back, a value is returned. -/
theorem returns {release : StateM τ Unit} {accepts : α → Prop} {value : α}
    (releases : OnlyReleases record (fun _ => True) release) (accepted : accepts value) :
    OnlyReleases record accepts (release >>= fun _ => Pure.pure value) := by
  intro state
  obtain ⟨made, added, closing, -⟩ := releases state
  exact ⟨made, added, closing, accepted⟩

end OnlyReleases

namespace Candid

variable {operation : StateM τ α} {rest : α → StateM τ β} {between : BackendError → α → Prop}
  {tells : BackendError → β → Prop}

theorem of_silent {operation : StateM τ β}
    (silent : ∀ state, record (operation state).2 = record state) :
    Candid record tells operation := by
  intro state
  refine ⟨[], (silent state).trans (List.append_nil _).symm, ?_⟩
  intro done event rest error whole
  simp at whole

theorem pure (value : β) : Candid record tells (Pure.pure value) := .of_silent fun _ => rfl

/-- What follows a failure gives back what there is and passes the failure on. -/
theorem bind (first : Candid record between operation)
    (second : ∀ value, Candid record tells (rest value))
    (passes : ∀ error value, between error value →
      OnlyReleases record (tells error) (rest value)) :
    Candid record tells (operation >>= rest) := by
  intro state
  change ∃ made, record (rest (operation state).1 (operation state).2).2 = record state ++ made ∧ _
  obtain ⟨earlier, added, told⟩ := first state
  obtain ⟨later, addedNext, toldNext⟩ := second (operation state).1 (operation state).2
  refine ⟨earlier ++ later, by rw [addedNext, added, List.append_assoc], ?_⟩
  intro done event after error whole failed
  rcases List.append_eq_append_iff.mp whole with ⟨middle, same, split⟩ | ⟨middle, same, split⟩
  · obtain ⟨released, reported⟩ := toldNext middle event after error split failed
    exact ⟨released, reported⟩
  · cases middle with
    | nil =>
        obtain ⟨released, reported⟩ := toldNext [] event after error split.symm failed
        exact ⟨released, reported⟩
    | cons head middle =>
        obtain ⟨rfl, rfl⟩ := List.cons.inj split
        obtain ⟨released, reported⟩ := told done event middle error same failed
        obtain ⟨others, appended, closing, passed⟩ :=
          passes error _ reported (operation state).2
        have alike : others = later := List.append_cancel_left (appended.symm.trans addedNext)
        exact ⟨List.forall_mem_append.mpr ⟨released, alike ▸ closing⟩, passed⟩

theorem mono {weaker : BackendError → α → Prop} (candid : Candid record between operation)
    (weaken : ∀ error value, between error value → weaker error value) :
    Candid record weaker operation := by
  intro state
  obtain ⟨made, added, told⟩ := candid state
  exact ⟨made, added, fun done event rest error whole failed =>
    (told done event rest error whole failed).imp_right (weaken error _)⟩

theorem of_onlyReleases {operation : StateM τ β}
    (releases : OnlyReleases record (fun _ => True) operation) : Candid record tells operation := by
  intro state
  obtain ⟨made, added, closing, -⟩ := releases state
  refine ⟨made, added, ?_⟩
  rintro done event rest error rfl ⟨held, -⟩
  rw [closing event (by simp)] at held
  cases held

/-! ## Actions -/

theorem actionBind {action : Action τ α} {rest : α → Action τ β}
    (first : Candid record TellsError action)
    (second : ∀ value, Candid record TellsError (rest value)) :
    Candid record TellsError (action >>= rest : Action τ β) := by
  have same : (action >>= rest : Action τ β) =
      (show StateM τ (Except CipherError α) from action) >>= ExceptT.bindCont rest := rfl
  rw [same]
  apply bind first
  · rintro (error | value)
    · exact .pure _
    · exact second value
  · rintro error result rfl
    exact .pure rfl

theorem orRelease {action : Action τ α} {release : StateM τ Unit}
    (candid : Candid record TellsError action)
    (releases : OnlyReleases record (fun _ => True) release) :
    Candid record TellsError (action.orRelease release) := by
  let afterwards : Except CipherError α → StateM τ (Except CipherError α)
    | .error error => release >>= fun _ => Pure.pure (.error error)
    | .ok value => Pure.pure (.ok value)
  have same : action.orRelease release =
      (show StateM τ (Except CipherError α) from action) >>= afterwards := by
    funext state
    simp only [Action.orRelease, Bind.bind, StateT.bind]
    cases action state with
    | mk result next => cases result <;> rfl
  rw [same]
  apply bind candid
  · rintro (error | value)
    · exact .of_onlyReleases (releases.returns trivial)
    · exact .pure _
  · rintro error result rfl
    exact releases.returns rfl

theorem throw (error : CipherError) :
    Candid record TellsError (MonadExcept.throw error : Action τ α) :=
  .of_silent fun _ => rfl

theorem ofExcept (result : Except CipherError α) :
    Candid record TellsError (Action.ofExcept result : Action τ α) :=
  .of_silent fun _ => rfl

/-! ## Calls -/

variable {σ : Type}

/-- One call, whose error is told. -/
theorem of_answer (backend : Backend σ) {operation : StateM (Recorded σ) α} {tells : BackendError → α → Prop}
    (request : Call)
    (same : ∀ state, (operation state).2 = (backend.recorded.answer request state).2)
    (told : ∀ state error, (backend.recorded.answer request state).1.result = .error error →
      tells error (operation state).1) :
    Candid Recorded.events tells operation := by
  intro state
  refine ⟨[⟨request, (backend.answer request state.inner).1⟩], by rw [same]; rfl, ?_⟩
  intro done event rest error whole failed
  cases done with
  | nil =>
      obtain ⟨rfl, rfl⟩ := List.cons.inj whole
      exact ⟨nofun, told state error failed.2⟩
  | cons head others => simp at whole

theorem tryBackend {action : Action (Recorded σ) β}
    (candid : Candid Recorded.events TellsError action) :
    Candid (fun state : Caching α (Recorded σ) => state.backend.events) TellsError
      (Caching.tryBackend action) :=
  fun state => candid state.backend

end Candid

end CipherModes
