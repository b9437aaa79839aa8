import CipherModes.Backend.Interposed
import CipherModes.Backend.Recorded
import CipherModes.Proofs.Accounts.Backend

/-!
# Accounts through a plan and a record

A backend keeps its accounts behind a plan, as long as the plan lets everything
be given back, and under a record, in which all that was given back is seen to
have been taken.
-/

set_option autoImplicit false

namespace CipherModes

variable {σ : Type} {backend : Backend σ}

/-! ## Planned failures -/

/-- Whatever else it lets fail, a plan lets everything be given back. -/
def Plan.SparesReleases (plan : Plan) : Prop :=
  ∀ operation number, operation.isRelease = true → plan.fault operation number = none

namespace Plan

variable {plan : Plan} {made : List Operation} {call : Call} {reply : Reply call}

/-- A plan itself never lets a call succeed that issues a handle. -/
theorem error_of_answer? (planned : plan.answer? made call = some reply)
    (other : ∀ handle name output, call ≠ .getProperty handle name output) :
    ∃ error, reply.result = .error error := by
  unfold answer? at planned
  split at planned
  · cases planned
    exact ⟨_, rfl⟩
  · split at planned
    · exact absurd rfl (other _ _ _)
    · cases planned

theorem answer?_of_release (spares : plan.SparesReleases)
    (release : call.operation.isRelease = true) : plan.answer? made call = none := by
  cases call with
  | closeProvider provider => simp only [answer?, spares _ _ release]
  | destroyKey key => simp only [answer?, spares _ _ release]
  | crypt direction => cases direction <;> cases release
  | _ => cases release

end Plan

namespace Backend.Accounting

theorem answer_of_planned {plan : Plan} {call : Call} {reply : Reply call} {state : Interposed σ}
    (planned : plan.answer? state.made call = some reply) :
    (backend.interposed plan).answer call state =
      (reply, { state with made := call.operation :: state.made }) := by
  simp only [Backend.interposed, planned]

theorem answer_of_unplanned {plan : Plan} {call : Call} {state : Interposed σ}
    (unplanned : plan.answer? state.made call = none) :
    (backend.interposed plan).answer call state =
      ((backend.answer call state.inner).1,
        ⟨(backend.answer call state.inner).2, call.operation :: state.made⟩) := by
  simp only [Backend.interposed, unplanned]

/-- Failures change nothing, so the accounts are those of the backend behind the plan. -/
def interposed (accounting : backend.Accounting) {plan : Plan} (spares : plan.SparesReleases) :
    (backend.interposed plan).Accounting where
  Lasts state := accounting.Lasts state.inner
  Exact providers keys state := accounting.Exact providers keys state.inner
  lasts_before {call state} lasts := by
    cases planned : plan.answer? state.made call with
    | some reply => rwa [answer_of_planned planned] at lasts
    | none =>
        rw [answer_of_unplanned planned] at lasts
        exact accounting.lasts_before lasts
  exact_of_same := accounting.exact_of_same
  kept {call providers keys state} keeps lasts exact := by
    cases planned : plan.answer? state.made call with
    | some reply => rwa [answer_of_planned planned]
    | none =>
        rw [answer_of_unplanned planned] at lasts ⊢
        exact accounting.kept keeps lasts exact
  refused {call error providers keys state} held failed lasts exact := by
    cases planned : plan.answer? state.made call with
    | some reply => rwa [answer_of_planned planned]
    | none =>
        rw [answer_of_unplanned planned] at failed lasts ⊢
        exact accounting.refused held failed lasts exact
  opened {algorithm flags raw providers keys state} success lasts exact := by
    cases planned : plan.answer? state.made (.openProvider algorithm flags) with
    | some reply =>
        obtain ⟨error, failed⟩ := Plan.error_of_answer? planned nofun
        rw [answer_of_planned planned, failed] at success
        cases success
    | none =>
        rw [answer_of_unplanned planned] at success lasts ⊢
        exact accounting.opened success lasts exact
  imported {key secret providers keys state} success lasts exact := by
    cases planned : plan.answer? state.made (.importKey key.provider.raw secret) with
    | some reply =>
        obtain ⟨error, failed⟩ := Plan.error_of_answer? planned nofun
        rw [answer_of_planned planned, failed] at success
        cases success
    | none =>
        rw [answer_of_unplanned planned] at success lasts ⊢
        exact accounting.imported success lasts exact
  closed {provider providers keys state} unheld covered lasts exact := by
    have planned : plan.answer? state.made (.closeProvider provider.raw) = none :=
      Plan.answer?_of_release spares rfl
    rw [answer_of_unplanned planned] at lasts ⊢
    exact accounting.closed unheld covered lasts exact
  destroyed {key providers keys state} lasts exact := by
    have planned : plan.answer? state.made (.destroyKey key.raw) = none :=
      Plan.answer?_of_release spares rfl
    rw [answer_of_unplanned planned] at lasts ⊢
    exact accounting.destroyed lasts exact

end Backend.Accounting

/-! ## Recorded releases -/

/-- If the call gives something back, it succeeded. -/
def Event.ReleasesWell (event : Event) : Prop :=
  event.call.operation.isRelease = true → event.reply.result.isOk = true

instance (event : Event) : Decidable event.ReleasesWell :=
  inferInstanceAs (Decidable (_ → _))

theorem Call.isRelease_of_keepsHandles {call : Call} (keeps : call.KeepsHandles) :
    call.operation.isRelease = false := by
  cases call with
  | closeProvider | destroyKey => cases keeps
  | crypt direction => cases direction <;> rfl
  | _ => rfl

namespace Backend.Accounting

theorem releasesWell_of_answer {call : Call} {state : Recorded σ}
    (before : ∀ event ∈ state.events, event.ReleasesWell)
    (last : call.operation.isRelease = true →
      (backend.answer call state.inner).1.result.isOk = true) :
    ∀ event ∈ (backend.recorded.answer call state).2.events, event.ReleasesWell :=
  List.forall_mem_append.mpr ⟨before, List.forall_mem_singleton.mpr last⟩

theorem releasesWell_of_held {call : Call} {state : Recorded σ}
    (held : call.operation.isRelease = false)
    (before : ∀ event ∈ state.events, event.ReleasesWell) :
    ∀ event ∈ (backend.recorded.answer call state).2.events, event.ReleasesWell := by
  apply releasesWell_of_answer before
  rw [held]
  exact nofun

/-- All that was given back according to the record was taken back. -/
def recorded (accounting : backend.Accounting) : backend.recorded.Accounting where
  Lasts state := accounting.Lasts state.inner
  Exact providers keys state :=
    accounting.Exact providers keys state.inner ∧ ∀ event ∈ state.events, event.ReleasesWell
  lasts_before lasts := accounting.lasts_before lasts
  exact_of_same exact members perm := ⟨accounting.exact_of_same exact.1 members perm, exact.2⟩
  kept keeps lasts exact :=
    ⟨accounting.kept keeps lasts exact.1,
      releasesWell_of_held (Call.isRelease_of_keepsHandles keeps) exact.2⟩
  refused held failed lasts exact :=
    ⟨accounting.refused held failed lasts exact.1, releasesWell_of_held held exact.2⟩
  opened success lasts exact := by
    obtain ⟨fresh, added⟩ := accounting.opened success lasts exact.1
    exact ⟨fresh, added, releasesWell_of_held rfl exact.2⟩
  imported success lasts exact :=
    ⟨accounting.imported success lasts exact.1, releasesWell_of_held rfl exact.2⟩
  closed unheld covered lasts exact := by
    obtain ⟨success, removed⟩ := accounting.closed unheld covered lasts exact.1
    exact ⟨success, removed,
      releasesWell_of_answer exact.2 fun _ => congrArg Except.isOk success⟩
  destroyed lasts exact := by
    obtain ⟨success, removed⟩ := accounting.destroyed lasts exact.1
    exact ⟨success, removed,
      releasesWell_of_answer exact.2 fun _ => congrArg Except.isOk success⟩

/-! ## What every call keeps -/

/-- What every call keeps can stand beside the accounts. -/
def alongside (accounting : backend.Accounting) (invariant : σ → Prop)
    (stable : ∀ call state, invariant state → invariant (backend.answer call state).2) :
    backend.Accounting where
  Lasts := accounting.Lasts
  Exact providers keys state := invariant state ∧ accounting.Exact providers keys state
  lasts_before := accounting.lasts_before
  exact_of_same exact members perm := ⟨exact.1, accounting.exact_of_same exact.2 members perm⟩
  kept keeps lasts exact := ⟨stable _ _ exact.1, accounting.kept keeps lasts exact.2⟩
  refused held failed lasts exact :=
    ⟨stable _ _ exact.1, accounting.refused held failed lasts exact.2⟩
  opened success lasts exact := by
    obtain ⟨fresh, added⟩ := accounting.opened success lasts exact.2
    exact ⟨fresh, stable _ _ exact.1, added⟩
  imported success lasts exact :=
    ⟨stable _ _ exact.1, accounting.imported success lasts exact.2⟩
  closed unheld covered lasts exact := by
    obtain ⟨success, removed⟩ := accounting.closed unheld covered lasts exact.2
    exact ⟨success, stable _ _ exact.1, removed⟩
  destroyed lasts exact := by
    obtain ⟨success, removed⟩ := accounting.destroyed lasts exact.2
    exact ⟨success, stable _ _ exact.1, removed⟩

end Backend.Accounting

end CipherModes
