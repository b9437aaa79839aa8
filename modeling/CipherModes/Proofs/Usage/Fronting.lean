import CipherModes.Proofs.Accounts.Layers
import CipherModes.Proofs.Accounts.Record
import CipherModes.Proofs.Token.Outcomes

/-!
# In front of a token

Something in front of a token may let calls fail that never reach it, and may
answer questions about properties by itself. All else that is told comes from
the token. Calls that are made one after another, each allowed where it is made,
are seen as such in the record.
-/

set_option autoImplicit false

namespace CipherModes

variable {σ : Type} {backend : Backend σ}

namespace Token

variable {token next : Token} {call : Call} {reply : Reply call}

/-- How a call can be answered in front of a token. -/
inductive Fronted (token : Token) (call : Call) : Reply call → Token → Prop where
  | passed : Fronted token call (token.answer call).1 (token.answer call).2
  | failed {reply : Reply call} {error : BackendError} (failed : reply.result = .error error) :
      Fronted token call reply token
  | told {reply : Reply call} (reads : call.operation = .getProperty) :
      Fronted token call reply token

namespace Fronted

theorem effect (fronted : token.Fronted call reply next) : token.Effect call next := by
  cases fronted with
  | passed => exact token.answer_effect call
  | failed | told => exact .nothing call

theorem of_ok {value : call.Value} (fronted : token.Fronted call reply next)
    (success : reply.result = .ok value) (writes : call.operation ≠ .getProperty) :
    (token.answer call).1.result = .ok value ∧ next = (token.answer call).2 := by
  cases fronted with
  | passed => exact ⟨success, rfl⟩
  | failed failed =>
      rw [success] at failed
      cases failed
  | told reads => exact absurd reads writes

theorem unchanged_of_reading (fronted : token.Fronted call reply next)
    (reads : call.operation = .getProperty) : next = token := by
  have effect := fronted.effect
  cases effect with
  | nothing => rfl
  | opened | closed | imported | destroyed | switched => cases reads

end Fronted

end Token

/-- A backend that stands in front of a token. -/
structure Backend.Fronting (backend : Backend σ) where
  token : σ → Token
  answered : ∀ call state, (token state).Fronted call (backend.answer call state).1
    (token (backend.answer call state).2)

def Token.fronting : Token.backend.Fronting := ⟨id, fun _ _ => .passed⟩

namespace Backend.Fronting

/-- A plan lets calls fail and overrides properties. -/
def interposed (front : backend.Fronting) (plan : Plan) :
    (backend.interposed plan).Fronting where
  token state := front.token state.inner
  answered call state := by
    cases planned : plan.answer? state.made call with
    | none =>
        rw [Accounting.answer_of_unplanned planned]
        exact front.answered call state.inner
    | some reply =>
        rw [Accounting.answer_of_planned planned]
        by_cases reads : call.operation = .getProperty
        · exact .told reads
        · have other : ∀ handle name output, call ≠ .getProperty handle name output := by
            rintro handle name output rfl
            exact reads rfl
          obtain ⟨error, failed⟩ := Plan.error_of_answer? planned other
          exact .failed failed

def recorded (front : backend.Fronting) : backend.recorded.Fronting where
  token state := front.token state.inner
  answered call state := front.answered call state.inner

/-! ## Allowed calls -/

variable {front : backend.Fronting} {allowed weaker : Token → Call → Prop} {initial state : σ}

/-- From one state to another, calls were made that were allowed on the token at the time. -/
inductive Proceeds (front : backend.Fronting) (allowed : Token → Call → Prop) (initial : σ) :
    σ → Prop where
  | start : Proceeds front allowed initial initial
  | answer {state : σ} (before : Proceeds front allowed initial state) {call : Call}
      (fits : allowed (front.token state) call) :
      Proceeds front allowed initial (backend.answer call state).2

namespace Proceeds

theorem handlesIssued_le (proceeds : front.Proceeds allowed initial state) :
    (front.token initial).handlesIssued ≤ (front.token state).handlesIssued := by
  induction proceeds with
  | start => exact Nat.le_refl _
  | answer before fits ih =>
      exact Nat.le_trans ih (front.answered _ _).effect.handlesIssued_le

/-- The record tells that each call was allowed where it was made. -/
theorem of_recorded {initial : σ} {state : Recorded σ}
    (proceeds : front.recorded.Proceeds allowed { inner := initial } state) :
    backend.Leads initial state.events state.inner ∧
      ∀ done event rest, state.events = done ++ event :: rest →
        allowed (front.token (backend.replay initial done)) event.call := by
  induction proceeds with
  | start => exact ⟨.nothing, fun done event rest whole => by simp at whole⟩
  | @answer state before call fits ih =>
      obtain ⟨leads, allowedBefore⟩ := ih
      refine ⟨leads.answer call, ?_⟩
      intro done event rest whole
      rcases List.eq_nil_or_concat rest with rfl | ⟨others, last, rfl⟩
      · obtain ⟨rfl, same⟩ := List.append_inj' whole rfl
        cases same
        rw [leads.replay_eq]
        exact fits
      · rw [List.concat_eq_append, ← List.cons_append, ← List.append_assoc] at whole
        exact allowedBefore done event others (List.append_inj' whole rfl).1

end Proceeds

/-! ## What holds of the token -/

/-- As long as there are handles left, only allowed calls were made and something holds of the
token. -/
def Holds (front : backend.Fronting) (allowed : Token → Call → Prop) (initial : σ)
    (fact : Token → Prop) (state : σ) : Prop :=
  (front.token state).handlesIssued < Handle.limit →
    front.Proceeds allowed initial state ∧ fact (front.token state)

namespace Holds

variable {fact goal : Token → Prop}

theorem mono (holds : front.Holds allowed initial fact state)
    (weaken : ∀ token, fact token → goal token) : front.Holds allowed initial goal state :=
  fun lasts => (holds lasts).imp_right (weaken _)

theorem step {request : Call} (holds : front.Holds allowed initial fact state)
    (fits : ∀ token, fact token → allowed token request)
    (keeps : ∀ token next, fact token →
      token.Fronted request (backend.answer request state).1 next →
        next.handlesIssued < Handle.limit → goal next) :
    front.Holds allowed initial goal (backend.answer request state).2 := by
  intro lasts
  have fronted := front.answered request state
  obtain ⟨proceeds, known⟩ := holds (Nat.lt_of_le_of_lt fronted.effect.handlesIssued_le lasts)
  exact ⟨proceeds.answer (fits _ known), keeps _ _ known fronted lasts⟩

end Holds

end Backend.Fronting

end CipherModes
