import CipherModes.Bytes

/-!
# Handles and provider flags

A handle names a provider or a key of one backend. It is a 64-bit number other
than zero and means nothing elsewhere.
-/

set_option autoImplicit false

namespace CipherModes

structure Handle where
  id : UInt64
  id_ne_zero : id ≠ 0
  deriving DecidableEq, Repr

namespace Handle

def ofId? (id : UInt64) : Option Handle :=
  if nonzero : id ≠ 0 then some ⟨id, nonzero⟩ else none

/-- The handle issued after `count` others: the next number, where the last
number is never passed. -/
def issuedAfter (count : UInt64) : Handle :=
  if wraps : count + 1 = 0 then ⟨count, by rintro rfl; exact absurd wraps (by decide)⟩
  else ⟨count + 1, wraps⟩

def describe (handle : Handle) : String :=
  "RawHandle(0x" ++ String.ofList (Nat.toDigits 16 handle.id.toNat) ++ ")"

end Handle

/-- Options for opening a provider, one bit each. -/
structure ProviderFlags where
  bits : UInt32
  deriving DecidableEq, Repr

namespace ProviderFlags

def none : ProviderFlags := ⟨0⟩

/-- The provider is loaded into the caller's process. -/
def dispatch : ProviderFlags := ⟨1⟩

/-- The provider is opened for keyed hashing. -/
def hmac : ProviderFlags := ⟨8⟩

def union (left right : ProviderFlags) : ProviderFlags := ⟨left.bits ||| right.bits⟩

def contains (flags other : ProviderFlags) : Bool := flags.bits &&& other.bits == other.bits

def describe (flags : ProviderFlags) : String :=
  "ProviderFlags(" ++ toString flags.bits.toNat ++ ")"

end ProviderFlags

end CipherModes
