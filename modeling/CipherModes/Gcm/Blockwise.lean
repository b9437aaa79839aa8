import CipherModes.BlockCipher
import CipherModes.Gcm.Blocks

/-!
# GCM over a block cipher

Authenticated encryption with one cipher call for each block, for any nonce
and for tags of twelve to sixteen bytes. Sealing encrypts, then computes the
tag; opening verifies the tag, then decrypts. Messages are appended to a
destination, which is cut back to its old length when anything fails.
-/

set_option autoImplicit false

namespace CipherModes.Gcm

variable {σ : Type}

/-- The hash key of a cipher and the sizes agreed on. -/
structure Blockwise where
  hashKey : Bytes
  nonceSize : Nat
  tagSize : Nat
  deriving DecidableEq, Repr

def discardTail (destination : Bytes) (length : Nat) : Bytes := destination.take length

def encryptInto (cipher : BlockCipher σ) (source buffer : Bytes) :
    StateM σ (Except CipherError Unit × Bytes) :=
  cipher.transform .encrypt source buffer

/-- Adds the encryption of the counters after `counter` to pieces in place, up
to the first call that fails; `keystream` is the buffer for the encryption. -/
def addKeystream (cipher : BlockCipher σ) :
    (counter keystream : Bytes) → List Bytes → StateM σ (Except CipherError Unit × Bytes)
  | _, _, [] => return (.ok (), [])
  | counter, keystream, piece :: rest => do
      let (result, keystream) ← encryptInto cipher (increment counter) keystream
      match result with
      | .error error => return (.error error, piece ++ rest.flatten)
      | .ok () =>
          let (result, rest) ← addKeystream cipher (increment counter) keystream rest
          return (result, Bytes.xor piece keystream ++ rest)

def cryptMessage (cipher : BlockCipher σ) (counter message : Bytes) :
    StateM σ (Except CipherError Unit × Bytes) :=
  addKeystream cipher counter (Bytes.zeros blockSize) (Bytes.chunks blockSize message)

/-- The full tag of a ciphertext: the encrypted counter block added to the
keyed hash. -/
def computeTag (cipher : BlockCipher σ) (hashKey counter aad ciphertext : Bytes) :
    StateM σ (Except CipherError Bytes) := do
  let hash := hashBlocks hashKey (authenticatedBlocks aad ciphertext)
  let (result, mask) ← encryptInto cipher counter (Bytes.zeros blockSize)
  match result with
  | .error error => return .error error
  | .ok () => return .ok (Bytes.xor mask hash)

namespace Blockwise

/-- The sizes that GCM over a block cipher can have; the first that it cannot
have is the error. -/
def checkSizes (cipherBlockSize nonceSize tagSize : Nat) : Except CipherError Unit :=
  if cipherBlockSize ≠ blockSize then .error (.invalidBlockSize cipherBlockSize)
  else if tagSize < minTagSize ∨ standardTagSize < tagSize then .error (.invalidTagSize tagSize)
  else if nonceSize = 0 then .error (.invalidNonceSize nonceSize)
  else .ok ()

/-- Derives the hash key: the encryption of the zero block. -/
def derive (cipher : BlockCipher σ) (nonceSize tagSize : Nat) :
    StateM σ (Except CipherError Blockwise) := do
  match checkSizes cipher.blockSize nonceSize tagSize with
  | .error error => return .error error
  | .ok () =>
      let (result, hashKey) ← encryptInto cipher (Bytes.zeros blockSize) (Bytes.zeros blockSize)
      match result with
      | .error error => return .error error
      | .ok () => return .ok { hashKey, nonceSize, tagSize }

def sealInto (cipher : BlockCipher σ) (gcm : Blockwise) (destination nonce plaintext aad : Bytes) :
    StateM σ (Except Fault Unit × Bytes) := do
  if nonce.length ≠ gcm.nonceSize then
    return (.error (.broken .nonceLength), destination)
  else if maxPlaintext < plaintext.length then
    return (.error (.broken .messageFits), destination)
  else
    let start := destination.length
    let counter := preCounter gcm.hashKey nonce
    let (encrypted, body) ← cryptMessage cipher counter plaintext
    let staged := destination ++ body
    match encrypted with
    | .error error => return (.error (.error error), discardTail staged start)
    | .ok () =>
        match ← computeTag cipher gcm.hashKey counter aad body with
        | .error error => return (.error (.error error), discardTail staged start)
        | .ok tag => return (.ok (), staged ++ tag.take gcm.tagSize)

def openInto (cipher : BlockCipher σ) (gcm : Blockwise)
    (destination nonce sealedText aad : Bytes) : StateM σ (Except Fault Unit × Bytes) := do
  let refuse (destination : Bytes) : Except Fault Unit × Bytes :=
    (.error (.error .authentication), destination)
  if nonce.length ≠ gcm.nonceSize then
    return (.error (.broken .nonceLength), destination)
  else if sealedText.length < gcm.tagSize ∨ maxPlaintext < sealedText.length - gcm.tagSize then
    return refuse destination
  else
    let start := destination.length
    let body := sealedText.take (sealedText.length - gcm.tagSize)
    let tag := sealedText.drop (sealedText.length - gcm.tagSize)
    let counter := preCounter gcm.hashKey nonce
    match ← computeTag cipher gcm.hashKey counter aad body with
    | .error _ => return refuse destination
    | .ok expected =>
        if expected.take gcm.tagSize ≠ tag then return refuse destination
        else
          let (decrypted, body) ← cryptMessage cipher counter body
          let staged := destination ++ body
          match decrypted with
          | .error _ => return refuse (discardTail staged start)
          | .ok () => return (.ok (), staged)

end Blockwise

end CipherModes.Gcm
