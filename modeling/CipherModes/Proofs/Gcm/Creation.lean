import CipherModes.Gcm.Cipher
import CipherModes.Proofs.Action

/-!
# How a GCM comes about

What must have happened when a GCM has been made: which sizes were asked for,
and which calls succeeded on the way.
-/

set_option autoImplicit false

namespace CipherModes.Gcm

variable {σ : Type} {nonceSize tagSize : Nat}

namespace Blockwise

/-- The sizes that GCM over a block cipher can have. -/
structure Sized (gcm : Blockwise) : Prop where
  nonceSize_pos : 0 < gcm.nonceSize
  minTagSize_le : minTagSize ≤ gcm.tagSize
  tagSize_le : gcm.tagSize ≤ standardTagSize

theorem checkSizes_eq_ok_iff {cipherBlockSize : Nat} :
    checkSizes cipherBlockSize nonceSize tagSize = .ok () ↔
      cipherBlockSize = blockSize ∧ (minTagSize ≤ tagSize ∧ tagSize ≤ standardTagSize) ∧
        0 < nonceSize := by
  unfold checkSizes
  split
  · simp_all
  · split
    · simp
      omega
    · split
      · simp_all
      · simp_all
        omega

/-- A derived GCM has the sizes asked for, and its hash key is what the cipher
made of the zero block. -/
structure DerivedFrom (cipher : BlockCipher σ) (nonceSize tagSize : Nat) (start next : σ)
    (gcm : Blockwise) : Prop where
  cipher_blockSize : cipher.blockSize = blockSize
  nonceSize_eq : gcm.nonceSize = nonceSize
  tagSize_eq : gcm.tagSize = tagSize
  sized : gcm.Sized
  hashed : cipher.transform .encrypt (Bytes.zeros blockSize) (Bytes.zeros blockSize) start =
    ((.ok (), gcm.hashKey), next)

theorem derivedFrom_of_derive {cipher : BlockCipher σ} {start next : σ} {gcm : Blockwise}
    (derived : derive cipher nonceSize tagSize start = (.ok gcm, next)) :
    DerivedFrom cipher nonceSize tagSize start next gcm := by
  cases checked : checkSizes cipher.blockSize nonceSize tagSize with
  | error error =>
      simp only [derive, checked] at derived
      cases derived
  | ok _ =>
      obtain ⟨whole, tags, positive⟩ := checkSizes_eq_ok_iff.mp checked
      simp only [derive, checked, encryptInto, bind, StateT.bind] at derived
      cases called : cipher.transform .encrypt (Bytes.zeros blockSize) (Bytes.zeros blockSize)
          start with
      | mk reply after =>
          obtain ⟨result, hashKey⟩ := reply
          rw [called] at derived
          cases result with
          | error error => cases derived
          | ok _ =>
              cases derived
              exact ⟨whole, rfl, rfl, ⟨positive, tags.1, tags.2⟩, called⟩

end Blockwise

theorem sizes_of_isNative {gcm : Gcm} (native : gcm.isNative = true) :
    gcm.nonceSize = standardNonceSize ∧ gcm.tagSize = standardTagSize := by
  cases gcm with
  | native => exact ⟨rfl, rfl⟩
  | blockwise => cases native

variable {backend : Backend σ} {start next : Driven σ}

theorem result_of_createBlockwise {engine : EngineId} {secret : Bytes} {cipher : AesCipher}
    (created : AesCipher.create backend engine secret start = (.ok cipher, next)) :
    (createBlockwise backend engine secret nonceSize tagSize start).1 =
      (Blockwise.derive (cipher.blockCipher backend) nonceSize tagSize next.backend).1.map
        fun mode => (cipher, mode) := by
  simp only [createBlockwise, created, Caching.onBackend]
  cases Blockwise.derive (cipher.blockCipher backend) nonceSize tagSize next.backend with
  | mk result last => cases result <;> rfl

theorem createBlockwise_eq_ok {engine : EngineId} {secret : Bytes} {cipher : AesCipher}
    {mode : Blockwise}
    (made : createBlockwise backend engine secret nonceSize tagSize start =
      (.ok (cipher, mode), next)) :
    ∃ middle, AesCipher.create backend engine secret start = (.ok cipher, middle) ∧
      Blockwise.derive (cipher.blockCipher backend) nonceSize tagSize middle.backend =
        (.ok mode, next.backend) ∧ next.cache = middle.cache := by
  unfold createBlockwise at made
  cases created : AesCipher.create backend engine secret start with
  | mk result middle =>
      rw [created] at made
      cases result with
      | error error => cases made
      | ok other =>
          simp only [Caching.onBackend] at made
          cases derived : Blockwise.derive (other.blockCipher backend) nonceSize tagSize
              middle.backend with
          | mk outcome after =>
              rw [derived] at made
              cases outcome with
              | error error => cases made
              | ok _ =>
                  cases made
                  exact ⟨middle, rfl, derived, rfl⟩

/-- In standard sizes the GCM is a key imported for it, else it works over a cipher of its own. -/
theorem create_eq_ok {cipher : AesCipher} {gcm : Gcm}
    (made : create backend cipher nonceSize tagSize start = (.ok gcm, next)) :
    ((nonceSize = standardNonceSize ∧ tagSize = standardTagSize) ∧
      ∃ key length, gcm = native key ∧
        Driven.importKey backend .gcm cipher.secret start = (.ok (key, length), next)) ∨
    ¬ (nonceSize = standardNonceSize ∧ tagSize = standardTagSize) ∧
      ∃ own mode, gcm = blockwise own mode ∧
        createBlockwise backend cipher.engine cipher.secret nonceSize tagSize start =
          (.ok (own, mode), next) := by
  unfold create at made
  split at made
  · rename_i standard
    obtain ⟨⟨key, length⟩, middle, imported, finished⟩ := Action.bind_eq_ok made
    cases finished
    exact .inl ⟨standard, key, length, rfl, imported⟩
  · rename_i other
    split at made
    · cases made
    · obtain ⟨⟨own, mode⟩, middle, built, finished⟩ := Action.bind_eq_ok made
      cases finished
      exact .inr ⟨other, own, mode, rfl, built⟩

/-- A GCM has the sizes that it was made with. -/
theorem sizes_of_create {cipher : AesCipher} {gcm : Gcm}
    (made : create backend cipher nonceSize tagSize start = (.ok gcm, next)) :
    gcm.nonceSize = nonceSize ∧ gcm.tagSize = tagSize ∧ tagSize ≤ standardTagSize := by
  rcases create_eq_ok made with ⟨⟨nonces, tags⟩, key, length, rfl, -⟩ | ⟨-, own, mode, rfl, built⟩
  · exact ⟨nonces.symm, tags.symm, Nat.le_of_eq tags⟩
  · obtain ⟨middle, -, derived, -⟩ := createBlockwise_eq_ok built
    have facts := Blockwise.derivedFrom_of_derive derived
    exact ⟨facts.nonceSize_eq, facts.tagSize_eq, facts.tagSize_eq ▸ facts.sized.tagSize_le⟩

end CipherModes.Gcm
