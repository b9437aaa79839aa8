import CipherModes.Backend.Property
import CipherModes.Status

/-!
# What can go wrong above a backend

A cipher operation may fail with an error, which its caller is expected to
meet, or find that its caller broke a precondition. The two are told apart: a
broken precondition is noticed before anything is done.
-/

set_option autoImplicit false

namespace CipherModes

inductive CipherError
  | backend (error : BackendError)
  /-- A provider reported a table of key lengths that makes no sense. -/
  | invalidKeyLengths (lengths : KeyLengths)
  | invalidKeySize (bits : UInt32)
  | invalidBlockSize (bytes : Nat)
  | malformedProperty (name : String)
  /-- Nonce size and tag size both differ from the standard ones. -/
  | unsupportedGcmParameters
  | invalidNonceSize (bytes : Nat)
  | invalidTagSize (bytes : Nat)
  /-- A sealed message was not accepted. -/
  | authentication
  deriving DecidableEq, Repr

def CipherError.message : CipherError → String
  | backend error => error.message
  | invalidKeyLengths lengths =>
      "invalid key length table: min " ++ toString lengths.min.toNat ++ ", max " ++
        toString lengths.max.toNat ++ ", increment " ++ toString lengths.increment.toNat
  | invalidKeySize bits => "invalid key size: " ++ toString bits.toNat ++ " bits"
  | invalidBlockSize bytes => "invalid block size: " ++ toString bytes ++ " bytes"
  | malformedProperty name => "malformed property: " ++ name
  | unsupportedGcmParameters =>
      "GCM tag and nonce size can't be non-standard at the same time"
  | invalidNonceSize bytes => "invalid GCM nonce size: " ++ toString bytes
  | invalidTagSize bytes => "invalid GCM tag size: " ++ toString bytes
  | authentication => "message authentication failed"

/-- What the caller of an operation has to see to. -/
inductive Precondition
  | sourceHoldsBlock
  | destinationHoldsBlock
  | chainIsBlock
  | blockIsNonempty
  | wholeBlocks
  | destinationHoldsSource
  | nonceLength
  | messageFits
  | counterRemains
  | nonceIncreases
  deriving DecidableEq, Repr

def Precondition.message : Precondition → String
  | sourceHoldsBlock => "input not full block"
  | destinationHoldsBlock => "output not full block"
  | chainIsBlock => "IV length must equal block size"
  | blockIsNonempty => "attempt to calculate the remainder with a divisor of zero"
  | wholeBlocks => "input not full blocks"
  | destinationHoldsSource => "output smaller than input"
  | nonceLength => "incorrect nonce length given to GCM"
  | messageFits => "message too large for GCM"
  | counterRemains => "nonce counter must be less than 2^64 - 1"
  | nonceIncreases => "nonce counter must be strictly monotonically increasing"

inductive Fault
  | error (cause : CipherError)
  | broken (precondition : Precondition)
  deriving DecidableEq, Repr

end CipherModes
