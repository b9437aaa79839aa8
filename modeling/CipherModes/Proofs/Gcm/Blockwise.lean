import CipherModes.Gcm.Blockwise

/-!
# Runs of GCM over a block cipher

What sealing and opening come to, told by how their cipher calls end. The cipher
is any state machine, so each call names the state before and after it.
-/

set_option autoImplicit false

namespace CipherModes.Gcm

variable {σ : Type} {cipher : BlockCipher σ} {state middle next : σ} {error : CipherError}

/-! ## Keystream and tag -/

section

variable {counter keystream output piece hashKey aad ciphertext : Bytes} {rest : List Bytes}

theorem addKeystream_of_ok
    (called : cipher.transform .encrypt (increment counter) keystream state =
      ((.ok (), output), next)) :
    addKeystream cipher counter keystream (piece :: rest) state =
      (((addKeystream cipher (increment counter) output rest next).1.1,
        Bytes.xor piece output ++ (addKeystream cipher (increment counter) output rest next).1.2),
        (addKeystream cipher (increment counter) output rest next).2) := by
  simp only [addKeystream, encryptInto, bind, StateT.bind, called]
  rfl

theorem addKeystream_of_error
    (called : cipher.transform .encrypt (increment counter) keystream state =
      ((.error error, output), next)) :
    addKeystream cipher counter keystream (piece :: rest) state =
      ((.error error, piece ++ rest.flatten), next) := by
  simp only [addKeystream, encryptInto, bind, StateT.bind, called]
  rfl

theorem computeTag_of_ok
    (called : cipher.transform .encrypt counter (Bytes.zeros blockSize) state =
      ((.ok (), output), next)) :
    computeTag cipher hashKey counter aad ciphertext state =
      (.ok (Bytes.xor output (hashBlocks hashKey (authenticatedBlocks aad ciphertext))), next) := by
  simp only [computeTag, encryptInto, bind, StateT.bind, called]
  rfl

theorem computeTag_of_error
    (called : cipher.transform .encrypt counter (Bytes.zeros blockSize) state =
      ((.error error, output), next)) :
    computeTag cipher hashKey counter aad ciphertext state = (.error error, next) := by
  simp only [computeTag, encryptInto, bind, StateT.bind, called]
  rfl

end

/-! ## Sizes -/

theorem length_addKeystream {pieces : List Bytes}
    (short : ∀ piece ∈ pieces, piece.length ≤ blockSize) {keystream : Bytes}
    (whole : keystream.length = blockSize) (counter : Bytes) (state : σ) :
    (addKeystream cipher counter keystream pieces state).1.2.length = pieces.flatten.length := by
  induction pieces generalizing counter keystream state with
  | nil => rfl
  | cons piece rest ih =>
      have kept := cipher.keepsLength .encrypt (increment counter) keystream state
      cases called : cipher.transform .encrypt (increment counter) keystream state with
      | mk reply next =>
          obtain ⟨result, output⟩ := reply
          cases result with
          | error error => simp [addKeystream_of_error called]
          | ok _ =>
              have first : piece.length ≤ blockSize := short piece (by simp)
              have size : output.length = blockSize := by
                rw [called] at kept
                exact kept.trans whole
              have later := ih (fun other member => short other (by simp [member])) size
                (increment counter) next
              simp [addKeystream_of_ok called, later, size, Nat.min_eq_left first]

/-- Whatever the cipher does, a message keeps its length. -/
theorem length_cryptMessage (cipher : BlockCipher σ) (counter message : Bytes) (state : σ) :
    (cryptMessage cipher counter message state).1.2.length = message.length := by
  have short : ∀ piece ∈ Bytes.chunks blockSize message, piece.length ≤ blockSize :=
    fun _ member => Bytes.length_le_of_mem_pieces member
  rw [cryptMessage, length_addKeystream short (by simp), Bytes.flatten_chunks (by decide)]

theorem length_of_computeTag {hashKey counter aad ciphertext tag : Bytes}
    (tagged : computeTag cipher hashKey counter aad ciphertext state = (.ok tag, next)) :
    tag.length = blockSize := by
  have kept := cipher.keepsLength .encrypt counter (Bytes.zeros blockSize) state
  cases called : cipher.transform .encrypt counter (Bytes.zeros blockSize) state with
  | mk reply after =>
      obtain ⟨result, output⟩ := reply
      cases result with
      | error error =>
          rw [computeTag_of_error called] at tagged
          cases tagged
      | ok _ =>
          have size : output.length = blockSize := by simpa [called] using kept
          rw [computeTag_of_ok called] at tagged
          cases tagged
          rw [Bytes.length_xor, length_hashBlocks, size]
          rfl

namespace Blockwise

variable {gcm : Blockwise} {destination nonce aad : Bytes}

/-! ## Sealing -/

section

variable {plaintext body tag : Bytes}

theorem sealInto_of_nonce_length (wrong : nonce.length ≠ gcm.nonceSize) :
    gcm.sealInto cipher destination nonce plaintext aad state =
      ((.error (.broken .nonceLength), destination), state) := by
  simp only [sealInto, if_pos wrong]
  rfl

theorem sealInto_of_long (agreed : nonce.length = gcm.nonceSize)
    (long : maxPlaintext < plaintext.length) :
    gcm.sealInto cipher destination nonce plaintext aad state =
      ((.error (.broken .messageFits), destination), state) := by
  simp only [sealInto, if_neg (not_not_intro agreed), if_pos long]
  rfl

theorem sealInto_of_crypt_error (agreed : nonce.length = gcm.nonceSize)
    (fits : ¬ maxPlaintext < plaintext.length)
    (encrypted : cryptMessage cipher (preCounter gcm.hashKey nonce) plaintext state =
      ((.error error, body), next)) :
    gcm.sealInto cipher destination nonce plaintext aad state =
      ((.error (.error error), destination), next) := by
  simp only [sealInto, if_neg (not_not_intro agreed), if_neg fits, bind, StateT.bind, encrypted,
    discardTail, List.take_left']
  rfl

theorem sealInto_of_tag_error (agreed : nonce.length = gcm.nonceSize)
    (fits : ¬ maxPlaintext < plaintext.length)
    (encrypted : cryptMessage cipher (preCounter gcm.hashKey nonce) plaintext state =
      ((.ok (), body), middle))
    (tagged : computeTag cipher gcm.hashKey (preCounter gcm.hashKey nonce) aad body middle =
      (.error error, next)) :
    gcm.sealInto cipher destination nonce plaintext aad state =
      ((.error (.error error), destination), next) := by
  simp only [sealInto, if_neg (not_not_intro agreed), if_neg fits, bind, StateT.bind, encrypted,
    tagged, discardTail, List.take_left']
  rfl

theorem sealInto_of_ok (agreed : nonce.length = gcm.nonceSize)
    (fits : ¬ maxPlaintext < plaintext.length)
    (encrypted : cryptMessage cipher (preCounter gcm.hashKey nonce) plaintext state =
      ((.ok (), body), middle))
    (tagged : computeTag cipher gcm.hashKey (preCounter gcm.hashKey nonce) aad body middle =
      (.ok tag, next)) :
    gcm.sealInto cipher destination nonce plaintext aad state =
      ((.ok (), destination ++ body ++ tag.take gcm.tagSize), next) := by
  simp only [sealInto, if_neg (not_not_intro agreed), if_neg fits, bind, StateT.bind, encrypted,
    tagged]
  rfl

/-- Sealing succeeds only if both of its parts do. -/
theorem sealInto_eq_ok {output : Bytes}
    (success : gcm.sealInto cipher destination nonce plaintext aad state =
      ((.ok (), output), next)) :
    nonce.length = gcm.nonceSize ∧ ∃ body middle tag,
      cryptMessage cipher (preCounter gcm.hashKey nonce) plaintext state =
        ((.ok (), body), middle) ∧
      computeTag cipher gcm.hashKey (preCounter gcm.hashKey nonce) aad body middle =
        (.ok tag, next) ∧
      output = destination ++ body ++ tag.take gcm.tagSize := by
  by_cases agreed : nonce.length = gcm.nonceSize
  · refine ⟨agreed, ?_⟩
    by_cases long : maxPlaintext < plaintext.length
    · rw [sealInto_of_long agreed long] at success
      cases success
    · cases encrypted : cryptMessage cipher (preCounter gcm.hashKey nonce) plaintext state with
      | mk reply middle =>
          obtain ⟨result, body⟩ := reply
          cases result with
          | error error =>
              rw [sealInto_of_crypt_error agreed long encrypted] at success
              cases success
          | ok _ =>
              cases tagged : computeTag cipher gcm.hashKey (preCounter gcm.hashKey nonce) aad body
                  middle with
              | mk result after =>
                  cases result with
                  | error error =>
                      rw [sealInto_of_tag_error agreed long encrypted tagged] at success
                      cases success
                  | ok tag =>
                      rw [sealInto_of_ok agreed long encrypted tagged] at success
                      cases success
                      exact ⟨body, middle, tag, rfl, tagged, rfl⟩
  · rw [sealInto_of_nonce_length agreed] at success
    cases success

end

/-! ## Opening -/

section

variable {sealedText plaintext tag : Bytes}

/-- The sealed text is too short for its tag, or too long to have been sealed. -/
abbrev OutOfRange (gcm : Blockwise) (sealedText : Bytes) : Prop :=
  sealedText.length < gcm.tagSize ∨ maxPlaintext < sealedText.length - gcm.tagSize

theorem openInto_of_nonce_length (wrong : nonce.length ≠ gcm.nonceSize) :
    gcm.openInto cipher destination nonce sealedText aad state =
      ((.error (.broken .nonceLength), destination), state) := by
  simp only [openInto, if_pos wrong]
  rfl

theorem openInto_of_outOfRange (agreed : nonce.length = gcm.nonceSize)
    (outside : gcm.OutOfRange sealedText) :
    gcm.openInto cipher destination nonce sealedText aad state =
      ((.error (.error .authentication), destination), state) := by
  simp only [openInto, if_neg (not_not_intro agreed), if_pos outside]
  rfl

theorem openInto_of_tag_error (agreed : nonce.length = gcm.nonceSize)
    (inside : ¬ gcm.OutOfRange sealedText)
    (tagged : computeTag cipher gcm.hashKey (preCounter gcm.hashKey nonce) aad
      (sealedText.take (sealedText.length - gcm.tagSize)) state = (.error error, next)) :
    gcm.openInto cipher destination nonce sealedText aad state =
      ((.error (.error .authentication), destination), next) := by
  simp only [openInto, if_neg (not_not_intro agreed), if_neg inside, bind, StateT.bind, tagged]
  rfl

theorem openInto_of_mismatch (agreed : nonce.length = gcm.nonceSize)
    (inside : ¬ gcm.OutOfRange sealedText)
    (tagged : computeTag cipher gcm.hashKey (preCounter gcm.hashKey nonce) aad
      (sealedText.take (sealedText.length - gcm.tagSize)) state = (.ok tag, next))
    (mismatch : tag.take gcm.tagSize ≠ sealedText.drop (sealedText.length - gcm.tagSize)) :
    gcm.openInto cipher destination nonce sealedText aad state =
      ((.error (.error .authentication), destination), next) := by
  simp only [openInto, if_neg (not_not_intro agreed), if_neg inside, bind, StateT.bind, tagged,
    if_pos mismatch]
  rfl

theorem openInto_of_crypt_error (agreed : nonce.length = gcm.nonceSize)
    (inside : ¬ gcm.OutOfRange sealedText)
    (tagged : computeTag cipher gcm.hashKey (preCounter gcm.hashKey nonce) aad
      (sealedText.take (sealedText.length - gcm.tagSize)) state = (.ok tag, middle))
    (matching : tag.take gcm.tagSize = sealedText.drop (sealedText.length - gcm.tagSize))
    (decrypted : cryptMessage cipher (preCounter gcm.hashKey nonce)
      (sealedText.take (sealedText.length - gcm.tagSize)) middle =
        ((.error error, plaintext), next)) :
    gcm.openInto cipher destination nonce sealedText aad state =
      ((.error (.error .authentication), destination), next) := by
  simp only [openInto, if_neg (not_not_intro agreed), if_neg inside, bind, StateT.bind, tagged,
    if_neg (not_not_intro matching), decrypted, discardTail, List.take_left']
  rfl

theorem openInto_of_ok (agreed : nonce.length = gcm.nonceSize)
    (inside : ¬ gcm.OutOfRange sealedText)
    (tagged : computeTag cipher gcm.hashKey (preCounter gcm.hashKey nonce) aad
      (sealedText.take (sealedText.length - gcm.tagSize)) state = (.ok tag, middle))
    (matching : tag.take gcm.tagSize = sealedText.drop (sealedText.length - gcm.tagSize))
    (decrypted : cryptMessage cipher (preCounter gcm.hashKey nonce)
      (sealedText.take (sealedText.length - gcm.tagSize)) middle = ((.ok (), plaintext), next)) :
    gcm.openInto cipher destination nonce sealedText aad state =
      ((.ok (), destination ++ plaintext), next) := by
  simp only [openInto, if_neg (not_not_intro agreed), if_neg inside, bind, StateT.bind, tagged,
    if_neg (not_not_intro matching), decrypted]
  rfl

end

end Blockwise

end CipherModes.Gcm
