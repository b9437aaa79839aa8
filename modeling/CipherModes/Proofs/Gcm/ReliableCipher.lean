import CipherModes.Proofs.Gcm.Matching
import CipherModes.RotatingCipher

/-!
# GCM over a reliable cipher

A cipher is reliable as long as every call succeeds and encrypts its block by
one function. GCM over it then computes the scheme of that function, and over a
cipher that fails in its state it refuses.
-/

set_option autoImplicit false

namespace CipherModes

variable {σ : Type}

/-- From steady states, each block is encrypted by a function, and the next state is steady. -/
structure BlockCipher.Reliable (cipher : BlockCipher σ) (encrypt : Gcm.BlockFunction)
    (steady : σ → Prop) : Prop where
  keepsSize : encrypt.KeepsSize
  encrypts : ∀ source destination state, source.length = Gcm.blockSize →
    destination.length = Gcm.blockSize → steady state →
      ∃ next, cipher.transform .encrypt source destination state =
        ((.ok (), encrypt source), next) ∧ steady next

/-- No block is encrypted in this state. -/
def BlockCipher.FailsIn (cipher : BlockCipher σ) (state : σ) : Prop :=
  ∀ source destination, ∃ error output next,
    cipher.transform .encrypt source destination state = ((.error error, output), next)

theorem RotatingCipher.length_encrypt {cipher : RotatingCipher}
    (whole : cipher.blockSize = Gcm.blockSize) (block : Bytes) :
    (cipher.encrypt block).length = Gcm.blockSize := by
  rw [encrypt, List.length_map, List.length_range, whole]

theorem RotatingCipher.reliable {cipher : RotatingCipher} (never : cipher.failsAt = [])
    (whole : cipher.blockSize = Gcm.blockSize) :
    cipher.blockCipher.Reliable cipher.encrypt fun _ => True := by
  constructor
  case keepsSize => exact length_encrypt whole
  case encrypts =>
    intro source destination made _ destinationSize _
    have written := Bytes.take_overlay ((length_encrypt whole source).trans destinationSize.symm)
    refine ⟨made + 1, ?_, trivial⟩
    simp only [blockCipher, transform, never, List.contains_nil, written]
    rfl

end CipherModes

namespace CipherModes.Gcm

variable {σ : Type} {cipher : BlockCipher σ} {encrypt : BlockFunction} {steady : σ → Prop}
  {state : σ}

theorem addKeystream_of_reliable (reliable : cipher.Reliable encrypt steady)
    {counter keystream : Bytes} (counterSize : counter.length = blockSize)
    (keystreamSize : keystream.length = blockSize) (pieces : List Bytes) (start : steady state) :
    ∃ next, addKeystream cipher counter keystream pieces state =
      ((.ok (), counterMode encrypt counter pieces), next) ∧ steady next := by
  induction pieces generalizing counter keystream state with
  | nil => exact ⟨state, rfl, start⟩
  | cons piece rest ih =>
      have nextSize := length_increment counterSize
      obtain ⟨middle, called, stays⟩ :=
        reliable.encrypts (increment counter) keystream state nextSize keystreamSize start
      obtain ⟨next, added, ends⟩ := ih nextSize (reliable.keepsSize (increment counter)) stays
      refine ⟨next, ?_, ends⟩
      rw [addKeystream_of_ok called, added]
      rfl

theorem cryptMessage_of_reliable (reliable : cipher.Reliable encrypt steady) {counter : Bytes}
    (counterSize : counter.length = blockSize) (message : Bytes) (start : steady state) :
    ∃ next, cryptMessage cipher counter message state =
      ((.ok (), crypt encrypt counter message), next) ∧ steady next :=
  addKeystream_of_reliable reliable counterSize (Bytes.length_zeros _) _ start

theorem computeTag_of_reliable (reliable : cipher.Reliable encrypt steady) {counter : Bytes}
    (counterSize : counter.length = blockSize) (hashKey aad ciphertext : Bytes)
    (start : steady state) :
    ∃ next, computeTag cipher hashKey counter aad ciphertext state =
      (.ok (Bytes.xor (encrypt counter)
        (hashBlocks hashKey (authenticatedBlocks aad ciphertext))), next) ∧ steady next := by
  obtain ⟨next, called, ends⟩ :=
    reliable.encrypts counter (Bytes.zeros blockSize) state counterSize (Bytes.length_zeros _) start
  exact ⟨next, computeTag_of_ok called, ends⟩

theorem cryptMessage_of_failsIn (fails : cipher.FailsIn state) (counter : Bytes)
    {message : Bytes} (nonempty : message ≠ []) :
    ∃ error output next, cryptMessage cipher counter message state =
      ((.error error, output), next) := by
  obtain ⟨error, output, next, called⟩ := fails (increment counter) (Bytes.zeros blockSize)
  rw [cryptMessage, Bytes.chunks_of_ne_nil blockSize_pos nonempty, addKeystream_of_error called]
  exact ⟨_, _, _, rfl⟩

theorem computeTag_of_failsIn (fails : cipher.FailsIn state)
    (hashKey counter aad ciphertext : Bytes) :
    ∃ error next, computeTag cipher hashKey counter aad ciphertext state =
      (.error error, next) := by
  obtain ⟨error, output, next, called⟩ := fails counter (Bytes.zeros blockSize)
  exact ⟨error, next, computeTag_of_error called⟩

namespace Blockwise

variable {gcm : Blockwise} {before after : σ} {nonce aad : Bytes}

/-- The scheme that GCM over a block cipher computes. -/
def scheme (gcm : Blockwise) (encrypt : BlockFunction) : Scheme where
  encrypt
  hashKey := gcm.hashKey
  tagSize := gcm.tagSize

theorem derive_of_reliable (reliable : cipher.Reliable encrypt steady) {nonceSize tagSize : Nat}
    (sizes : checkSizes cipher.blockSize nonceSize tagSize = .ok ()) (start : steady state) :
    ∃ next, derive cipher nonceSize tagSize state =
      (.ok { hashKey := encrypt (Bytes.zeros blockSize), nonceSize, tagSize }, next) ∧
        steady next := by
  obtain ⟨next, called, stays⟩ := reliable.encrypts (Bytes.zeros blockSize) (Bytes.zeros blockSize)
    state (Bytes.length_zeros _) (Bytes.length_zeros _) start
  refine ⟨next, ?_, stays⟩
  simp only [derive, sizes, encryptInto, bind, StateT.bind, called]
  rfl

theorem sealInto_of_reliable (reliable : cipher.Reliable encrypt steady)
    (agreed : nonce.length = gcm.nonceSize) {plaintext : Bytes}
    (fits : plaintext.length ≤ maxPlaintext) (destination aad : Bytes) (start : steady state) :
    ∃ next, gcm.sealInto cipher destination nonce plaintext aad state =
      ((.ok (), destination ++ (gcm.scheme encrypt).sealedText nonce aad plaintext), next) ∧
        steady next := by
  have counterSize := length_preCounter gcm.hashKey nonce
  obtain ⟨middle, encrypted, stays⟩ :=
    cryptMessage_of_reliable reliable counterSize plaintext start
  obtain ⟨next, tagged, ends⟩ := computeTag_of_reliable reliable counterSize gcm.hashKey aad
    (crypt encrypt (preCounter gcm.hashKey nonce) plaintext) stays
  refine ⟨next, ?_, ends⟩
  rw [sealInto_of_ok agreed (Nat.not_lt_of_le fits) encrypted tagged, List.append_assoc]
  rfl

theorem computes_of_reliable (reliable : cipher.Reliable encrypt steady) (start : steady before)
    (later : steady after) (agreed : nonce.length = gcm.nonceSize) (aad : Bytes) :
    Computes (gcm.scheme encrypt) maxPlaintext (gcm.sealing cipher before)
      (gcm.opening cipher after) nonce aad := by
  have counterSize := length_preCounter gcm.hashKey nonce
  constructor
  case seals =>
    intro destination plaintext fits
    obtain ⟨next, sealedInto, -⟩ := sealInto_of_reliable reliable agreed fits destination aad start
    rw [sealing, sealedInto]
  case refuses_long =>
    intro destination plaintext long
    rw [sealing, sealInto_of_long agreed long]
  case opens =>
    intro destination sealedText
    by_cases outside : gcm.OutOfRange sealedText
    · rw [opening, openInto_of_outOfRange agreed outside, Scheme.unsealed?_of_outside outside]
      rfl
    · rw [opening, Scheme.unsealed?_of_inside outside]
      obtain ⟨middle, tagged, stays⟩ := computeTag_of_reliable reliable counterSize gcm.hashKey aad
        (sealedText.take (sealedText.length - gcm.tagSize)) later
      split
      · rename_i matching
        obtain ⟨next, decrypted, -⟩ := cryptMessage_of_reliable reliable counterSize
          (sealedText.take (sealedText.length - gcm.tagSize)) stays
        rw [openInto_of_ok agreed outside tagged matching decrypted]
        rfl
      · rename_i mismatch
        rw [openInto_of_mismatch agreed outside tagged mismatch]
        rfl

theorem refuses_of_failsIn (failsBefore : cipher.FailsIn before)
    (failsAfter : cipher.FailsIn after) (agreed : nonce.length = gcm.nonceSize) (aad : Bytes) :
    Refuses (gcm.sealing cipher before) (gcm.opening cipher after) nonce aad := by
  constructor
  case seals =>
    intro destination plaintext
    by_cases long : maxPlaintext < plaintext.length
    · rw [sealing, sealInto_of_long agreed long]
      exact ⟨_, rfl⟩
    · by_cases empty : plaintext = []
      · obtain ⟨error, next, tagged⟩ := computeTag_of_failsIn failsBefore gcm.hashKey
          (preCounter gcm.hashKey nonce) aad []
        have encrypted : cryptMessage cipher (preCounter gcm.hashKey nonce) plaintext before =
            ((.ok (), []), before) := by
          rw [empty]
          rfl
        rw [sealing, sealInto_of_tag_error agreed long encrypted tagged]
        exact ⟨_, rfl⟩
      · obtain ⟨error, output, next, encrypted⟩ :=
          cryptMessage_of_failsIn failsBefore (preCounter gcm.hashKey nonce) empty
        rw [sealing, sealInto_of_crypt_error agreed long encrypted]
        exact ⟨_, rfl⟩
  case opens =>
    intro destination sealedText
    by_cases outside : gcm.OutOfRange sealedText
    · rw [opening, openInto_of_outOfRange agreed outside]
    · obtain ⟨error, next, tagged⟩ := computeTag_of_failsIn failsAfter gcm.hashKey
        (preCounter gcm.hashKey nonce) aad (sealedText.take (sealedText.length - gcm.tagSize))
      rw [opening, openInto_of_tag_error agreed outside tagged]

end Blockwise

end CipherModes.Gcm
