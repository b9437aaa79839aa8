import CipherModes.Gcm.Ordered

/-!
# Runs of GCM with ordered nonces

Which GCM is accepted, which nonces pass the checks, and what a seal leaves of
the least nonce.
-/

set_option autoImplicit false

namespace CipherModes

/-- A precondition on the nonce of a seal, not on its message. -/
def Precondition.ConcernsNonce : Precondition → Prop
  | .nonceLength | .counterRemains | .nonceIncreases => True
  | _ => False

end CipherModes

namespace CipherModes.Gcm.Ordered

variable {σ : Type} {backend : Backend σ} {ordered : Ordered} {state next : σ}
  {destination output nonce plaintext aad : Bytes} {number : Nat} {precondition : Precondition}
  {fault : Fault}

theorem ofGcm_eq_ok_iff {gcm : Gcm} :
    ofGcm gcm = .ok ordered ↔
      gcm.nonceSize = standardNonceSize ∧ gcm.tagSize = standardTagSize ∧
        ordered = { gcm, minNext := 0 } := by
  unfold ofGcm
  split
  · simp_all
  · split
    · simp_all
    · simp_all [eq_comm]

theorem nonceNumber_eq_ok_iff :
    ordered.nonceNumber nonce = .ok number ↔
      (nonce.length = standardNonceSize ∧
        Bytes.ofBigEndian (nonce.drop 4) ≠ 0xffffffffffffffff ∧
        ordered.minNext ≤ Bytes.ofBigEndian nonce) ∧ number = Bytes.ofBigEndian nonce := by
  unfold nonceNumber
  split
  · simp_all
  · split
    · simp_all
    · split
      · rename_i below
        simp [Nat.not_le_of_lt below]
      · simp_all [eq_comm]

theorem concernsNonce_of_nonceNumber (refused : ordered.nonceNumber nonce = .error precondition) :
    precondition.ConcernsNonce := by
  unfold nonceNumber at refused
  split at refused
  · cases refused
    trivial
  · split at refused
    · cases refused
      trivial
    · split at refused
      · cases refused
        trivial
      · cases refused

theorem sealInto_of_refused (refused : ordered.nonceNumber nonce = .error precondition) :
    ordered.sealInto backend destination nonce plaintext aad state =
      ((.error (.broken precondition), destination, ordered), state) := by
  simp only [sealInto, refused]
  rfl

theorem sealInto_of_fault (passed : ordered.nonceNumber nonce = .ok number)
    (failed : ordered.gcm.sealInto backend destination nonce plaintext aad state =
      ((.error fault, output), next)) :
    ordered.sealInto backend destination nonce plaintext aad state =
      ((.error fault, output, ordered), next) := by
  simp only [sealInto, passed, bind, StateT.bind, failed]
  rfl

theorem sealInto_of_ok (passed : ordered.nonceNumber nonce = .ok number)
    (success : ordered.gcm.sealInto backend destination nonce plaintext aad state =
      ((.ok (), output), next)) :
    ordered.sealInto backend destination nonce plaintext aad state =
      ((.ok (), output, { ordered with minNext := number + 1 }), next) := by
  simp only [sealInto, passed, bind, StateT.bind, success]
  rfl

end CipherModes.Gcm.Ordered
