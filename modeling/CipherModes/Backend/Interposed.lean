import CipherModes.Backend.Call

/-!
# A backend that fails on purpose

A plan can be put in front of any backend. It says which calls fail, counting
calls of each kind from one, and which properties are answered with given bytes
whatever handle they are asked of. All other calls pass through.
-/

set_option autoImplicit false

namespace CipherModes

/-- Which calls do not reach the backend. -/
structure Plan where
  /-- The status with which the call of that kind and number fails. -/
  fault : Operation → Nat → Option Status := fun _ _ => none
  /-- The bytes that a property of that name is answered with. -/
  property : String → Option Bytes := fun _ => none

structure Interposed (σ : Type) where
  inner : σ
  made : List Operation := []

namespace Plan

/-- The answer that a plan gives in place of the backend. -/
def answer? (plan : Plan) (made : List Operation) (call : Call) : Option (Reply call) :=
  match plan.fault call.operation (made.count call.operation + 1) with
  | some status => some (.fail status)
  | none =>
      match call with
      | .getProperty handle name output =>
          (plan.property name).map fun value =>
            if value.length ≤ output.length then
              { result := .ok value.length, output := Bytes.overlay value output, tagOutput := [] }
            else (.fail .bufferTooSmall : Reply (.getProperty handle name output))
      | _ => none

theorem keepsLengths_answer? {plan : Plan} {made : List Operation} {call : Call}
    {reply : Reply call} (answered : plan.answer? made call = some reply) :
    reply.KeepsLengths := by
  unfold answer? at answered
  split at answered
  · cases answered
    exact Reply.keepsLengths_fail _
  · split at answered
    · rw [Option.map_eq_some_iff] at answered
      obtain ⟨value, _, equal⟩ := answered
      split at equal
      · cases equal
        exact ⟨Bytes.length_overlay _ _ (by assumption), rfl⟩
      · cases equal
        exact Reply.keepsLengths_fail _
    · exact absurd answered (by simp)

end Plan

namespace Backend

variable {σ : Type}

/-- Puts a plan in front of a backend. -/
def interposed (plan : Plan) (backend : Backend σ) : Backend (Interposed σ) where
  answer call state :=
    let made := call.operation :: state.made
    match plan.answer? state.made call with
    | some reply => (reply, { state with made })
    | none =>
        let (reply, inner) := backend.answer call state.inner
        (reply, { inner, made })
  describe state := backend.describe state.inner
  keepsLengths call state := by
    cases answered : plan.answer? state.made call with
    | some reply => simpa [answered] using Plan.keepsLengths_answer? answered
    | none => simpa [answered] using backend.keepsLengths call state.inner

end Backend

end CipherModes
