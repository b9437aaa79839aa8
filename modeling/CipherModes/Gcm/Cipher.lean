import CipherModes.Engine
import CipherModes.Gcm.Blockwise

/-!
# GCM made from an AES cipher

With standard sizes a message is sealed by one call on a key of its own; if one
size is not standard, block by block over a cipher of its own. Either way an
opening that fails says nothing but that, and leaves the destination as it was.
-/

set_option autoImplicit false

namespace CipherModes

variable {σ : Type}

inductive Gcm
  /-- One call for each message. -/
  | native (key : ImportedKey)
  /-- One call for each block. -/
  | blockwise (cipher : AesCipher) (mode : Gcm.Blockwise)
  deriving DecidableEq, Repr

namespace Gcm

def nonceSize : Gcm → Nat
  | native _ => standardNonceSize
  | blockwise _ mode => mode.nonceSize

def tagSize : Gcm → Nat
  | native _ => standardTagSize
  | blockwise _ mode => mode.tagSize

def isNative : Gcm → Bool
  | native _ => true
  | blockwise .. => false

def longestPlaintext : Gcm → Nat
  | native _ => maxNativePlaintext
  | blockwise .. => maxPlaintext

/-- Makes a cipher over single blocks and a GCM over it; the cipher's key is
destroyed if the GCM cannot be made. -/
def createBlockwise (backend : Backend σ) (engine : EngineId) (secret : Bytes)
    (nonceSize tagSize : Nat) : Action (Driven σ) (AesCipher × Blockwise) := fun state =>
  match AesCipher.create backend engine secret state with
  | (.error error, state) => (.error error, state)
  | (.ok cipher, state) =>
      match Caching.onBackend
        (Blockwise.derive (cipher.blockCipher backend) nonceSize tagSize) state with
      | (.error error, state) =>
          (.error error, (Caching.onBackend (cipher.key.release backend) state).2)
      | (.ok mode, state) => (.ok (cipher, mode), state)

def create (backend : Backend σ) (cipher : AesCipher) (nonceSize tagSize : Nat) :
    Action (Driven σ) Gcm :=
  if nonceSize = standardNonceSize ∧ tagSize = standardTagSize then do
    let (key, _) ← Driven.importKey backend .gcm cipher.secret
    return native key
  else if nonceSize ≠ standardNonceSize ∧ tagSize ≠ standardTagSize then
    throw .unsupportedGcmParameters
  else do
    let (cipher, mode) ← createBlockwise backend cipher.engine cipher.secret nonceSize tagSize
    return blockwise cipher mode

def sealInto (backend : Backend σ) (gcm : Gcm) (destination nonce plaintext aad : Bytes) :
    StateM σ (Except Fault Unit × Bytes) := do
  if nonce.length ≠ gcm.nonceSize then
    return (.error (.broken .nonceLength), destination)
  else if gcm.longestPlaintext < plaintext.length then
    return (.error (.broken .messageFits), destination)
  else
    match gcm with
    | blockwise cipher mode =>
        mode.sealInto (cipher.blockCipher backend) destination nonce plaintext aad
    | native key => do
        let start := destination.length
        let reply ← backend.call
          (.aeadEncrypt key.raw nonce aad plaintext (Bytes.zeros standardTagSize))
        let staged := destination ++ reply.output
        match reply.result with
        | .error error => return (.error (.error (.backend error)), discardTail staged start)
        | .ok () => return (.ok (), staged ++ reply.tagOutput)

def openInto (backend : Backend σ) (gcm : Gcm) (destination nonce sealedText aad : Bytes) :
    StateM σ (Except Fault Unit × Bytes) := do
  if nonce.length ≠ gcm.nonceSize then
    return (.error (.broken .nonceLength), destination)
  else
    match gcm with
    | blockwise cipher mode =>
        mode.openInto (cipher.blockCipher backend) destination nonce sealedText aad
    | native key =>
        if sealedText.length < standardTagSize ∨
            maxNativePlaintext < sealedText.length - standardTagSize then
          return (.error (.error .authentication), destination)
        else
          let start := destination.length
          let body := sealedText.take (sealedText.length - standardTagSize)
          let tag := sealedText.drop (sealedText.length - standardTagSize)
          let reply ← backend.call (.aeadDecrypt key.raw nonce aad body tag)
          let staged := destination ++ reply.output
          match reply.result with
          | .error _ =>
              return (.error (.error .authentication), discardTail staged start)
          | .ok () => return (.ok (), staged)

def describe (gcm : Gcm) : String :=
  "Gcm \x7b nonce_size: " ++ toString gcm.nonceSize ++ ", tag_size: " ++ toString gcm.tagSize ++
    ", native: " ++ toString gcm.isNative ++ " \x7d"

end Gcm

end CipherModes
