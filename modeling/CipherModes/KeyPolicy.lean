import CipherModes.CipherError

/-!
# Which key lengths a provider allows

A table of key lengths names an arithmetic progression: from the least length
in steps of the increment to the greatest. A table without steps names one
length.
-/

set_option autoImplicit false

namespace CipherModes

/-- A length as a 32-bit number, the greatest one standing for all beyond. -/
def lengthWord (length : Nat) : UInt32 := UInt32.ofNat (min length 0xffffffff)

/-- The length in bits of a key of so many bytes, the greatest 32-bit number
standing for all beyond. -/
def keyBits (length : Nat) : UInt32 := lengthWord ((lengthWord length).toNat * 8)

def KeyLengths.WellFormed (lengths : KeyLengths) : Prop :=
  lengths.min ≤ lengths.max ∧ (lengths.increment = 0 → lengths.min = lengths.max)

instance (lengths : KeyLengths) : Decidable lengths.WellFormed :=
  inferInstanceAs (Decidable (_ ∧ _))

/-- A table of key lengths that names a progression. -/
structure AllowedKeyLengths where
  lengths : KeyLengths
  wellFormed : lengths.WellFormed
  deriving DecidableEq, Repr

namespace AllowedKeyLengths

def check (lengths : KeyLengths) : Except CipherError AllowedKeyLengths :=
  if wellFormed : lengths.WellFormed then .ok ⟨lengths, wellFormed⟩
  else .error (.invalidKeyLengths lengths)

def allows (allowed : AllowedKeyLengths) (bits : UInt32) : Bool :=
  if bits < allowed.lengths.min ∨ allowed.lengths.max < bits then false
  else if allowed.lengths.increment = 0 then bits == allowed.lengths.min
  else (bits - allowed.lengths.min) % allowed.lengths.increment == 0

end AllowedKeyLengths

end CipherModes
