import CipherModes.Proofs.Gcm.CounterMode

/-!
# Sealed texts as functions

What GCM computes when no call fails: a ciphertext in counter mode and the front
of its tag. The text that opens to a message is the one that it seals to.
-/

set_option autoImplicit false

namespace CipherModes.Gcm

/-- The encryption of blocks, the hash key and the length of a tag. -/
structure Scheme where
  encrypt : BlockFunction
  hashKey : Bytes
  tagSize : Nat

namespace Scheme

/-- Encrypts or decrypts a message. -/
def body (scheme : Scheme) (nonce message : Bytes) : Bytes :=
  crypt scheme.encrypt (preCounter scheme.hashKey nonce) message

def tag (scheme : Scheme) (nonce aad ciphertext : Bytes) : Bytes :=
  (Bytes.xor (scheme.encrypt (preCounter scheme.hashKey nonce))
    (hashBlocks scheme.hashKey (authenticatedBlocks aad ciphertext))).take scheme.tagSize

def sealedText (scheme : Scheme) (nonce aad plaintext : Bytes) : Bytes :=
  scheme.body nonce plaintext ++ scheme.tag nonce aad (scheme.body nonce plaintext)

/-- The message of a sealed text, if it has one that is not too long. -/
def unsealed? (scheme : Scheme) (longest : Nat) (nonce aad sealedText : Bytes) : Option Bytes :=
  let size := sealedText.length - scheme.tagSize
  if sealedText.length < scheme.tagSize ∨ longest < size then none
  else if scheme.tag nonce aad (sealedText.take size) = sealedText.drop size then
    some (scheme.body nonce (sealedText.take size))
  else none

/-- Blocks stay blocks, and a tag is not longer than one. -/
structure Sound (scheme : Scheme) : Prop where
  keepsSize : scheme.encrypt.KeepsSize
  tagSize_le : scheme.tagSize ≤ standardTagSize

variable {scheme : Scheme} {nonce aad plaintext sealedText : Bytes} {longest : Nat}

theorem length_body (sound : scheme.Sound) (nonce message : Bytes) :
    (scheme.body nonce message).length = message.length :=
  length_crypt sound.keepsSize _ _

theorem body_body (sound : scheme.Sound) (nonce message : Bytes) :
    scheme.body nonce (scheme.body nonce message) = message :=
  crypt_crypt sound.keepsSize _ _

theorem length_tag (sound : scheme.Sound) (nonce aad ciphertext : Bytes) :
    (scheme.tag nonce aad ciphertext).length = scheme.tagSize := by
  rw [tag, List.length_take, Bytes.length_xor, length_hashBlocks, sound.keepsSize]
  exact Nat.min_eq_left sound.tagSize_le

theorem length_sealedText (sound : scheme.Sound) (nonce aad plaintext : Bytes) :
    (scheme.sealedText nonce aad plaintext).length = plaintext.length + scheme.tagSize := by
  rw [Scheme.sealedText, List.length_append, length_body sound, length_tag sound]

theorem unsealed?_of_outside
    (outside : sealedText.length < scheme.tagSize ∨
      longest < sealedText.length - scheme.tagSize) :
    scheme.unsealed? longest nonce aad sealedText = none := by
  simp only [unsealed?, if_pos outside]

theorem unsealed?_of_inside
    (inside : ¬ (sealedText.length < scheme.tagSize ∨
      longest < sealedText.length - scheme.tagSize)) :
    scheme.unsealed? longest nonce aad sealedText =
      if scheme.tag nonce aad (sealedText.take (sealedText.length - scheme.tagSize)) =
          sealedText.drop (sealedText.length - scheme.tagSize) then
        some (scheme.body nonce (sealedText.take (sealedText.length - scheme.tagSize)))
      else none := by
  simp only [unsealed?, if_neg inside]

/-- Opening undoes sealing, and nothing else opens. -/
theorem unsealed?_eq_some_iff (sound : scheme.Sound) :
    scheme.unsealed? longest nonce aad sealedText = some plaintext ↔
      plaintext.length ≤ longest ∧ sealedText = scheme.sealedText nonce aad plaintext := by
  constructor
  · intro opened
    by_cases outside : sealedText.length < scheme.tagSize ∨
        longest < sealedText.length - scheme.tagSize
    · rw [unsealed?_of_outside outside] at opened
      cases opened
    · rw [unsealed?_of_inside outside] at opened
      split at opened
      · rename_i matching
        cases opened
        have parts := List.take_append_drop (sealedText.length - scheme.tagSize) sealedText
        constructor
        · rw [length_body sound, List.length_take]
          omega
        · rw [Scheme.sealedText, body_body sound, matching, parts]
      · cases opened
  · rintro ⟨fits, rfl⟩
    have whole := length_sealedText sound nonce aad plaintext
    have size : (scheme.sealedText nonce aad plaintext).length - scheme.tagSize =
        (scheme.body nonce plaintext).length := by
      rw [whole, length_body sound]
      omega
    have inside : ¬ ((scheme.sealedText nonce aad plaintext).length < scheme.tagSize ∨
        longest < (scheme.sealedText nonce aad plaintext).length - scheme.tagSize) := by
      rw [whole]
      omega
    have ciphertext : (scheme.sealedText nonce aad plaintext).take
        (scheme.body nonce plaintext).length = scheme.body nonce plaintext := List.take_left
    have rest : (scheme.sealedText nonce aad plaintext).drop
        (scheme.body nonce plaintext).length =
          scheme.tag nonce aad (scheme.body nonce plaintext) := List.drop_left
    rw [unsealed?_of_inside inside, size, ciphertext, rest, if_pos rfl, body_body sound]

end Scheme

/-! ## Standard sizes -/

section

variable {encrypt : BlockFunction} {nonce : Bytes}

/-- The scheme of a block function whose hash key is its zero block. -/
def Scheme.ofKey (encrypt : BlockFunction) (tagSize : Nat) : Scheme where
  encrypt
  hashKey := encrypt (Bytes.zeros blockSize)
  tagSize

theorem Scheme.body_ofKey (agreed : nonce.length = standardNonceSize) (tagSize : Nat)
    (message : Bytes) :
    (ofKey encrypt tagSize).body nonce message =
      crypt encrypt (standardCounter nonce) message := by
  rw [body, preCounter, if_pos agreed]
  rfl

theorem Scheme.tag_ofKey (size : encrypt.KeepsSize) (agreed : nonce.length = standardNonceSize)
    (aad ciphertext : Bytes) :
    (ofKey encrypt standardTagSize).tag nonce aad ciphertext =
      fullTag encrypt (standardCounter nonce) aad ciphertext := by
  have whole := length_fullTag size (standardCounter nonce) aad ciphertext
  rw [tag, preCounter, if_pos agreed]
  exact List.take_of_length_le (Nat.le_of_eq whole)

theorem sealDetached_eq (size : encrypt.KeepsSize) (agreed : nonce.length = standardNonceSize)
    (aad plaintext : Bytes) :
    sealDetached encrypt nonce aad plaintext =
      ((Scheme.ofKey encrypt standardTagSize).body nonce plaintext,
        (Scheme.ofKey encrypt standardTagSize).tag nonce aad
          ((Scheme.ofKey encrypt standardTagSize).body nonce plaintext)) := by
  rw [Scheme.tag_ofKey size agreed, Scheme.body_ofKey agreed]
  rfl

theorem openDetached?_eq (size : encrypt.KeepsSize) (agreed : nonce.length = standardNonceSize)
    (aad ciphertext tag : Bytes) :
    openDetached? encrypt nonce aad ciphertext tag =
      if (Scheme.ofKey encrypt standardTagSize).tag nonce aad ciphertext = tag then
        some ((Scheme.ofKey encrypt standardTagSize).body nonce ciphertext)
      else none := by
  rw [Scheme.tag_ofKey size agreed, Scheme.body_ofKey agreed]
  rfl

end

end CipherModes.Gcm
