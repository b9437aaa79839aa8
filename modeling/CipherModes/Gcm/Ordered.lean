import CipherModes.Gcm.Cipher

/-!
# GCM with ordered nonces

Records are sealed under nonces that only grow: a prefix of four bytes and a
counter of eight, read together as one number. The greatest counter is never
used. Only a seal that succeeded moves the bound.
-/

set_option autoImplicit false

namespace CipherModes.Gcm

variable {σ : Type}

/-- A GCM of standard sizes and the least nonce that it may still use. -/
structure Ordered where
  gcm : Gcm
  /-- Above every nonce sealed so far. -/
  minNext : Nat
  deriving DecidableEq, Repr

namespace Ordered

def ofGcm (gcm : Gcm) : Except CipherError Ordered :=
  if gcm.nonceSize ≠ standardNonceSize then .error (.invalidNonceSize gcm.nonceSize)
  else if gcm.tagSize ≠ standardTagSize then .error (.invalidTagSize gcm.tagSize)
  else .ok { gcm, minNext := 0 }

def create (backend : Backend σ) (cipher : AesCipher) : Action (Driven σ) Ordered := do
  let gcm ← Gcm.create backend cipher standardNonceSize standardTagSize
  Caching.tryBackend (Action.ofExcept (ofGcm gcm))

/-- The number of a nonce that may be sealed under. -/
def nonceNumber (ordered : Ordered) (nonce : Bytes) : Except Precondition Nat :=
  if nonce.length ≠ standardNonceSize then .error .nonceLength
  else if Bytes.ofBigEndian (nonce.drop 4) = 0xffffffffffffffff then .error .counterRemains
  else if Bytes.ofBigEndian nonce < ordered.minNext then .error .nonceIncreases
  else .ok (Bytes.ofBigEndian nonce)

/-- Seals a message: the result, the destination and the GCM afterwards. -/
def sealInto (backend : Backend σ) (ordered : Ordered)
    (destination nonce plaintext aad : Bytes) :
    StateM σ (Except Fault Unit × Bytes × Ordered) := do
  match ordered.nonceNumber nonce with
  | .error precondition => return (.error (.broken precondition), destination, ordered)
  | .ok value =>
      let (result, destination) ←
        ordered.gcm.sealInto backend destination nonce plaintext aad
      match result with
      | .error fault => return (.error fault, destination, ordered)
      | .ok () => return (.ok (), destination, { ordered with minNext := value + 1 })

/-- Opens a sealed message. Nonces may come in any order. -/
def openInto (backend : Backend σ) (ordered : Ordered)
    (destination nonce sealedText aad : Bytes) : StateM σ (Except Fault Unit × Bytes) :=
  ordered.gcm.openInto backend destination nonce sealedText aad

def describe (ordered : Ordered) : String :=
  "GcmTls \x7b gcm: " ++ ordered.gcm.describe ++ ", min_next_nonce: " ++
    toString ordered.minNext ++ " \x7d"

end Ordered

end CipherModes.Gcm
