import CipherModes.Backend.Call
import CipherModes.CipherError

/-!
# Block ciphers

A block cipher transforms the first block of a source into the first block of a
destination, in either direction. It may have a state and it may fail; what the
destination holds after a failure is up to it, but its length stays.
-/

set_option autoImplicit false

namespace CipherModes

/-- A cipher over blocks of one size, as a state machine. -/
structure BlockCipher (σ : Type) where
  blockSize : Nat
  /-- Transforms a block of the source and answers with the destination. -/
  transform : Direction → (source destination : Bytes) →
    StateM σ (Except CipherError Unit × Bytes)
  /-- The destination is never made longer or shorter. -/
  keepsLength : ∀ direction source destination state,
    (transform direction source destination state).1.2.length = destination.length

namespace BlockCipher

variable {σ : Type}

def NeverFails (cipher : BlockCipher σ) : Prop :=
  ∀ direction source destination state,
    (cipher.transform direction source destination state).1.1 = .ok ()

/-- A call that fails leaves the destination alone. -/
def FailsClean (cipher : BlockCipher σ) : Prop :=
  ∀ direction source destination state error,
    (cipher.transform direction source destination state).1.1 = .error error →
      (cipher.transform direction source destination state).1.2 = destination

end BlockCipher

end CipherModes
