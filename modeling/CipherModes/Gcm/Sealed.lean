import CipherModes.Gcm.Blocks

/-!
# GCM over a function of blocks

Authenticated encryption with a nonce of twelve bytes and a tag of sixteen, as
one step: the message is added to the encrypted counters, the tag is the
encrypted pre-counter block added to the keyed hash. Opening compares the tag
before it decrypts.
-/

set_option autoImplicit false

namespace CipherModes.Gcm

/-- A permutation of blocks under some key. -/
abbrev BlockFunction := Bytes → Bytes

/-- Adds the encryption of the counters after `counter` to the pieces of a
message. -/
def counterMode (encrypt : BlockFunction) : (counter : Bytes) → List Bytes → Bytes
  | _, [] => []
  | counter, piece :: rest =>
      Bytes.xor piece (encrypt (increment counter)) ++
        counterMode encrypt (increment counter) rest

/-- Encrypts and decrypts: the pieces are blocks and a rest. -/
def crypt (encrypt : BlockFunction) (counter message : Bytes) : Bytes :=
  counterMode encrypt counter (Bytes.chunks blockSize message)

def fullTag (encrypt : BlockFunction) (counter aad ciphertext : Bytes) : Bytes :=
  let hashKey := encrypt (Bytes.zeros blockSize)
  Bytes.xor (encrypt counter) (hashBlocks hashKey (authenticatedBlocks aad ciphertext))

def sealDetached (encrypt : BlockFunction) (nonce aad plaintext : Bytes) : Bytes × Bytes :=
  let ciphertext := crypt encrypt (standardCounter nonce) plaintext
  (ciphertext, fullTag encrypt (standardCounter nonce) aad ciphertext)

/-- The message of a ciphertext, if the tag is its tag. -/
def openDetached? (encrypt : BlockFunction) (nonce aad ciphertext tag : Bytes) : Option Bytes :=
  if fullTag encrypt (standardCounter nonce) aad ciphertext = tag then
    some (crypt encrypt (standardCounter nonce) ciphertext)
  else none

def BlockFunction.KeepsSize (encrypt : BlockFunction) : Prop :=
  ∀ block, (encrypt block).length = blockSize

theorem length_counterMode {encrypt : BlockFunction} (size : encrypt.KeepsSize) {counter : Bytes}
    {pieces : List Bytes} (short : ∀ piece ∈ pieces, piece.length ≤ blockSize) :
    (counterMode encrypt counter pieces).length = pieces.flatten.length := by
  induction pieces generalizing counter with
  | nil => rfl
  | cons piece rest ih =>
      have head := short piece (by simp)
      have whole : (encrypt (increment counter)).length = blockSize := size _
      simp only [counterMode, List.length_append, Bytes.length_xor, List.flatten_cons, whole,
        Nat.min_eq_left head, ih fun later member => short later (by simp [member])]

@[simp]
theorem length_crypt {encrypt : BlockFunction} (size : encrypt.KeepsSize)
    (counter message : Bytes) : (crypt encrypt counter message).length = message.length := by
  have short : ∀ piece ∈ Bytes.chunks blockSize message, piece.length ≤ blockSize :=
    fun _ member => Bytes.length_le_of_mem_pieces member
  rw [crypt, length_counterMode size short, Bytes.flatten_chunks (by decide)]

@[simp]
theorem length_fullTag {encrypt : BlockFunction} (size : encrypt.KeepsSize)
    (counter aad ciphertext : Bytes) :
    (fullTag encrypt counter aad ciphertext).length = blockSize := by
  have whole : (encrypt counter).length = blockSize := size _
  simp only [fullTag, Bytes.length_xor, length_hashBlocks, whole]
  rfl

end CipherModes.Gcm
