import CipherModes.Backend.Property

/-!
# Settings of a token

What a token reports and refuses. The table of key lengths is passed on as it
is, so that callers can meet a malformed one; the values that the token itself
depends on are checked.
-/

set_option autoImplicit false

namespace CipherModes

structure Settings where
  fipsMode : Bool := false
  disabledAlgorithms : List String := []
  /-- How long opening a provider takes, in microseconds. -/
  openLatency : UInt64 := 0
  /-- The block length that providers report, in bytes. -/
  blockLength : UInt32 := 16
  /-- The key lengths that providers report, in bits. -/
  keyLengths : KeyLengths := ⟨128, 256, 64⟩
  deriving DecidableEq, Repr

inductive InvalidSetting
  /-- The block length is zero or above 256. -/
  | blockLength (value : UInt32)
  /-- The latency is longer than a second. -/
  | openLatency (value : UInt64)
  | emptyAlgorithm
  deriving DecidableEq, Repr

def InvalidSetting.message : InvalidSetting → String
  | blockLength value =>
      "invalid config: AES block length must be between 1 and 256 bytes, got " ++
        toString value.toNat
  | openLatency value =>
      "invalid config: open latency must be at most 1000000us, got " ++ toString value.toNat
  | emptyAlgorithm => "invalid config: disabled algorithm identifier must not be empty"

namespace Settings

def default : Settings := {}

/-- The first value that a token cannot work with, if there is one. -/
def invalid? (settings : Settings) : Option InvalidSetting :=
  if settings.blockLength = 0 ∨ 256 < settings.blockLength then
    some (.blockLength settings.blockLength)
  else if 1000000 < settings.openLatency then some (.openLatency settings.openLatency)
  else if "" ∈ settings.disabledAlgorithms then some .emptyAlgorithm
  else none

def disables (settings : Settings) (algorithm : String) : Bool :=
  settings.disabledAlgorithms.contains algorithm

end Settings

end CipherModes
