import CipherModes.Gcm.Cipher
import CipherModes.Proofs.Gcm.Blockwise

/-!
# Runs of GCM made from an AES cipher

Over a key of its own, a message is one backend call, and what sealing and
opening come to is told by the reply. Over a cipher of its own, they are those
of GCM over that cipher.
-/

set_option autoImplicit false

namespace CipherModes.Gcm

variable {σ : Type} {backend : Backend σ} {state : σ} {destination nonce aad : Bytes}

/-- The checks that come before the cipher is used are made once more by GCM over
the cipher, so making them first changes nothing. -/
theorem sealInto_blockwise (cipher : AesCipher) (mode : Blockwise) (plaintext : Bytes) :
    (blockwise cipher mode).sealInto backend destination nonce plaintext aad state =
      mode.sealInto (cipher.blockCipher backend) destination nonce plaintext aad state := by
  by_cases wrong : nonce.length ≠ (blockwise cipher mode).nonceSize
  · rw [Blockwise.sealInto_of_nonce_length wrong]
    simp only [sealInto, if_pos wrong]
    rfl
  · by_cases long : (blockwise cipher mode).longestPlaintext < plaintext.length
    · rw [Blockwise.sealInto_of_long (Decidable.not_not.mp wrong) long]
      simp only [sealInto, if_neg wrong, if_pos long]
      rfl
    · simp only [sealInto, if_neg wrong, if_neg long]

theorem openInto_blockwise (cipher : AesCipher) (mode : Blockwise) (sealedText : Bytes) :
    (blockwise cipher mode).openInto backend destination nonce sealedText aad state =
      mode.openInto (cipher.blockCipher backend) destination nonce sealedText aad state := by
  by_cases wrong : nonce.length ≠ (blockwise cipher mode).nonceSize
  · rw [Blockwise.openInto_of_nonce_length wrong]
    simp only [openInto, if_pos wrong]
    rfl
  · simp only [openInto, if_neg wrong]

variable {key : ImportedKey} {error : BackendError}

/-! ## Sealing by one call -/

section

variable {plaintext : Bytes}

/-- The call that seals a message. -/
abbrev sealCall (key : ImportedKey) (nonce plaintext aad : Bytes) : Call :=
  .aeadEncrypt key.raw nonce aad plaintext (Bytes.zeros standardTagSize)

theorem sealInto_native_of_nonce_length (wrong : nonce.length ≠ standardNonceSize) :
    (native key).sealInto backend destination nonce plaintext aad state =
      ((.error (.broken .nonceLength), destination), state) := by
  have refused : nonce.length ≠ (native key).nonceSize := wrong
  simp only [sealInto, if_pos refused]
  rfl

theorem sealInto_native_of_long (standard : nonce.length = standardNonceSize)
    (long : maxNativePlaintext < plaintext.length) :
    (native key).sealInto backend destination nonce plaintext aad state =
      ((.error (.broken .messageFits), destination), state) := by
  have agreed : ¬ nonce.length ≠ (native key).nonceSize := not_not_intro standard
  have refused : (native key).longestPlaintext < plaintext.length := long
  simp only [sealInto, if_neg agreed, if_pos refused]
  rfl

theorem sealInto_native_of_error (standard : nonce.length = standardNonceSize)
    (fits : ¬ maxNativePlaintext < plaintext.length)
    (failed : (backend.answer (sealCall key nonce plaintext aad) state).1.result = .error error) :
    (native key).sealInto backend destination nonce plaintext aad state =
      ((.error (.error (.backend error)), destination),
        (backend.answer (sealCall key nonce plaintext aad) state).2) := by
  have agreed : ¬ nonce.length ≠ (native key).nonceSize := not_not_intro standard
  have taken : ¬ (native key).longestPlaintext < plaintext.length := fits
  simp only [sealInto, if_neg agreed, if_neg taken, bind, StateT.bind, Backend.call, failed,
    discardTail, List.take_left']
  rfl

theorem sealInto_native_of_ok (standard : nonce.length = standardNonceSize)
    (fits : ¬ maxNativePlaintext < plaintext.length)
    (success : (backend.answer (sealCall key nonce plaintext aad) state).1.result = .ok ()) :
    (native key).sealInto backend destination nonce plaintext aad state =
      ((.ok (), destination ++ (backend.answer (sealCall key nonce plaintext aad) state).1.output ++
        (backend.answer (sealCall key nonce plaintext aad) state).1.tagOutput),
        (backend.answer (sealCall key nonce plaintext aad) state).2) := by
  have agreed : ¬ nonce.length ≠ (native key).nonceSize := not_not_intro standard
  have taken : ¬ (native key).longestPlaintext < plaintext.length := fits
  simp only [sealInto, if_neg agreed, if_neg taken, bind, StateT.bind, Backend.call, success]
  rfl

end

/-! ## Opening by one call -/

section

variable {sealedText : Bytes}

/-- The call that opens a sealed text. -/
abbrev openCall (key : ImportedKey) (nonce sealedText aad : Bytes) : Call :=
  .aeadDecrypt key.raw nonce aad (sealedText.take (sealedText.length - standardTagSize))
    (sealedText.drop (sealedText.length - standardTagSize))

/-- The sealed text is too short for its tag, or too long for one call. -/
abbrev OutOfNativeRange (sealedText : Bytes) : Prop :=
  sealedText.length < standardTagSize ∨ maxNativePlaintext < sealedText.length - standardTagSize

theorem openInto_native_of_nonce_length (wrong : nonce.length ≠ standardNonceSize) :
    (native key).openInto backend destination nonce sealedText aad state =
      ((.error (.broken .nonceLength), destination), state) := by
  have refused : nonce.length ≠ (native key).nonceSize := wrong
  simp only [openInto, if_pos refused]
  rfl

theorem openInto_native_of_outOfRange (standard : nonce.length = standardNonceSize)
    (outside : OutOfNativeRange sealedText) :
    (native key).openInto backend destination nonce sealedText aad state =
      ((.error (.error .authentication), destination), state) := by
  have agreed : ¬ nonce.length ≠ (native key).nonceSize := not_not_intro standard
  simp only [openInto, if_neg agreed, if_pos outside]
  rfl

theorem openInto_native_of_error (standard : nonce.length = standardNonceSize)
    (inside : ¬ OutOfNativeRange sealedText)
    (failed : (backend.answer (openCall key nonce sealedText aad) state).1.result =
      .error error) :
    (native key).openInto backend destination nonce sealedText aad state =
      ((.error (.error .authentication), destination),
        (backend.answer (openCall key nonce sealedText aad) state).2) := by
  have agreed : ¬ nonce.length ≠ (native key).nonceSize := not_not_intro standard
  simp only [openInto, if_neg agreed, if_neg inside, bind, StateT.bind, Backend.call, failed,
    discardTail, List.take_left']
  rfl

theorem openInto_native_of_ok (standard : nonce.length = standardNonceSize)
    (inside : ¬ OutOfNativeRange sealedText)
    (success : (backend.answer (openCall key nonce sealedText aad) state).1.result = .ok ()) :
    (native key).openInto backend destination nonce sealedText aad state =
      ((.ok (), destination ++ (backend.answer (openCall key nonce sealedText aad) state).1.output),
        (backend.answer (openCall key nonce sealedText aad) state).2) := by
  have agreed : ¬ nonce.length ≠ (native key).nonceSize := not_not_intro standard
  simp only [openInto, if_neg agreed, if_neg inside, bind, StateT.bind, Backend.call, success]
  rfl

end

end CipherModes.Gcm
