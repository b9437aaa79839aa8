import CipherModes.Cbc
import CipherModes.Gcm.Ordered
import CipherModes.Proofs.Failures.Candour

/-!
# Modes tell the failure of a block

A mode over a block cipher stops at the first block that fails, in the middle of
a message or at its tag. Sealing tells the failure as it is; opening says of any
failure that the message is not authentic.
-/

set_option autoImplicit false

namespace CipherModes

variable {σ τ : Type} {record : τ → List Event}

/-- A call for a block that fails is told as it is. -/
def BlockCipher.Candid (record : τ → List Event) (cipher : BlockCipher τ) : Prop :=
  ∀ direction source destination,
    CipherModes.Candid record TellsBeside (cipher.transform direction source destination)

section

variable {cipher : BlockCipher τ} (candid : cipher.Candid record)
include candid

/-! ## Chained blocks -/

namespace Cbc

theorem cryptBlock_candid (direction : Direction) (chain block : Bytes) :
    Candid record TellsBeside (cryptBlock cipher direction chain block) := by
  cases direction with
  | encrypt =>
      apply Candid.bind (candid _ _ _)
      · rintro ⟨_ | _, output⟩ <;> exact .pure _
      · rintro error ⟨result, output⟩ ⟨⟩
        exact .pure rfl
  | decrypt =>
      apply Candid.bind (candid _ _ _)
      · rintro ⟨_ | _, output⟩ <;> exact .pure _
      · rintro error ⟨result, output⟩ ⟨⟩
        exact .pure rfl

theorem cryptFront_candid (direction : Direction) (count : Nat) (chain buffer : Bytes) :
    Candid record TellsBeside (cryptFront cipher direction count chain buffer) := by
  induction count generalizing chain buffer with
  | zero => exact .pure _
  | succ count ih =>
      apply Candid.bind (cryptBlock_candid candid _ _ _)
      · rintro ⟨result, block, next⟩
        cases result with
        | error error => exact .pure _
        | ok _ =>
            apply Candid.bind (ih _ _)
            · exact fun _ => .pure _
            · rintro error ⟨result, rest, last⟩ ⟨⟩
              exact .pure rfl
      · rintro error ⟨result, block, next⟩ ⟨⟩
        exact .pure rfl

theorem cryptInPlace_candid (stream : Cbc) (buffer : Bytes) :
    Candid record TellsFault (cryptInPlace cipher stream buffer) := by
  unfold cryptInPlace
  split
  · exact .pure _
  · apply Candid.bind (cryptFront_candid candid _ _ _ _)
    · exact fun _ => .pure _
    · rintro error ⟨result, buffer, chain⟩ ⟨⟩
      exact .pure rfl

theorem crypt_candid (stream : Cbc) (source destination : Bytes) :
    Candid record TellsFault (crypt cipher stream source destination) := by
  unfold crypt
  split
  · exact .pure _
  · split
    · exact .pure _
    · apply Candid.bind (cryptInPlace_candid candid _ _)
      · exact fun _ => .pure _
      · rintro error ⟨result, buffer, next⟩ ⟨⟩
        exact .pure rfl

end Cbc

/-! ## Messages block by block -/

namespace Gcm

theorem addKeystream_candid (counter keystream : Bytes) (pieces : List Bytes) :
    Candid record TellsBeside (addKeystream cipher counter keystream pieces) := by
  induction pieces generalizing counter keystream with
  | nil => exact .pure _
  | cons piece rest ih =>
      apply Candid.bind (candid _ _ _)
      · rintro ⟨result, keystream⟩
        cases result with
        | error error => exact .pure _
        | ok _ =>
            apply Candid.bind (ih _ _)
            · exact fun _ => .pure _
            · rintro error ⟨result, others⟩ ⟨⟩
              exact .pure rfl
      · rintro error ⟨result, keystream⟩ ⟨⟩
        exact .pure rfl

theorem computeTag_candid (hashKey counter aad ciphertext : Bytes) :
    Candid record TellsError (computeTag cipher hashKey counter aad ciphertext) := by
  apply Candid.bind (candid _ _ _)
  · rintro ⟨_ | _, mask⟩ <;> exact .pure _
  · rintro error ⟨result, mask⟩ ⟨⟩
    exact .pure rfl

namespace Blockwise

theorem derive_candid (nonceSize tagSize : Nat) :
    Candid record TellsError (derive cipher nonceSize tagSize) := by
  unfold derive
  split
  · exact .pure _
  · apply Candid.bind (candid _ _ _)
    · rintro ⟨_ | _, hashKey⟩ <;> exact .pure _
    · rintro error ⟨result, hashKey⟩ ⟨⟩
      exact .pure rfl

theorem sealInto_candid (gcm : Blockwise) (destination nonce plaintext aad : Bytes) :
    Candid record TellsFault (gcm.sealInto cipher destination nonce plaintext aad) := by
  unfold sealInto
  split
  · exact .pure _
  · split
    · exact .pure _
    · apply Candid.bind (addKeystream_candid candid _ _ _)
      · rintro ⟨encrypted, body⟩
        cases encrypted with
        | error error => exact .pure _
        | ok _ =>
            apply Candid.bind (computeTag_candid candid _ _ _ _)
            · rintro (_ | _) <;> exact .pure _
            · rintro error result ⟨⟩
              exact .pure rfl
      · rintro error ⟨encrypted, body⟩ ⟨⟩
        exact .pure rfl

theorem openInto_candid (gcm : Blockwise) (destination nonce sealedText aad : Bytes) :
    Candid record TellsForgery (gcm.openInto cipher destination nonce sealedText aad) := by
  unfold openInto
  split
  · exact .pure _
  · split
    · exact .pure _
    · apply Candid.bind (computeTag_candid candid _ _ _ _)
      · rintro (_ | expected)
        · exact .pure _
        · dsimp only
          split
          · exact .pure _
          · apply Candid.bind (addKeystream_candid candid _ _ _)
            · rintro ⟨_ | _, body⟩ <;> exact .pure _
            · rintro error ⟨decrypted, body⟩ ⟨⟩
              exact .pure rfl
      · rintro error result ⟨⟩
        exact .pure rfl

end Blockwise

end Gcm

end

/-! ## Ciphers of a backend -/

variable {backend : Backend σ}

namespace AesCipher

theorem blockCipher_candid (cipher : AesCipher) :
    (cipher.blockCipher backend.recorded).Candid Recorded.events := by
  intro direction source destination
  refine .of_answer backend (.crypt direction cipher.key.raw (source.take cipher.blockSize)
    (destination.take cipher.blockSize)) (fun _ => rfl) ?_
  intro state error failed
  simp only [blockCipher, failed]
  rfl

theorem cryptBlock_candid (cipher : AesCipher) (direction : Direction)
    (source destination : Bytes) :
    Candid Recorded.events TellsFault
      (cipher.cryptBlock backend.recorded direction source destination) := by
  unfold cryptBlock
  split
  · exact .pure _
  · split
    · exact .pure _
    · apply Candid.bind (cipher.blockCipher_candid _ _ _)
      · exact fun _ => .pure _
      · rintro error ⟨result, output⟩ ⟨⟩
        exact .pure rfl

end AesCipher

namespace Gcm

/-- The reply to a call by itself tells its error. -/
private theorem call_candid (request : Call) :
    Candid Recorded.events (fun error (reply : Reply request) => reply.result = .error error)
      (backend.recorded.call request) :=
  .of_answer backend request (fun _ => rfl) fun _ _ failed => failed

theorem sealInto_candid (gcm : Gcm) (destination nonce plaintext aad : Bytes) :
    Candid Recorded.events TellsFault
      (gcm.sealInto backend.recorded destination nonce plaintext aad) := by
  unfold sealInto
  split
  · exact .pure _
  · split
    · exact .pure _
    · cases gcm with
      | blockwise cipher mode =>
          exact mode.sealInto_candid cipher.blockCipher_candid _ _ _ _
      | native key =>
          apply Candid.bind (call_candid _)
          · intro reply
            split <;> exact .pure _
          · intro error reply failed
            rw [failed]
            exact .pure rfl

theorem openInto_candid (gcm : Gcm) (destination nonce sealedText aad : Bytes) :
    Candid Recorded.events TellsForgery
      (gcm.openInto backend.recorded destination nonce sealedText aad) := by
  unfold openInto
  split
  · exact .pure _
  · cases gcm with
    | blockwise cipher mode => exact mode.openInto_candid cipher.blockCipher_candid _ _ _ _
    | native key =>
        dsimp only
        split
        · exact .pure _
        · apply Candid.bind (call_candid _)
          · intro reply
            split <;> exact .pure _
          · intro error reply failed
            rw [failed]
            exact .pure rfl

theorem Ordered.sealInto_candid (ordered : Ordered) (destination nonce plaintext aad : Bytes) :
    Candid Recorded.events TellsFault
      (ordered.sealInto backend.recorded destination nonce plaintext aad) := by
  unfold Ordered.sealInto
  split
  · exact .pure _
  · apply Candid.bind (ordered.gcm.sealInto_candid _ _ _ _)
    · rintro ⟨_ | _, output⟩ <;> exact .pure _
    · rintro error ⟨result, output⟩ ⟨⟩
      exact .pure rfl

end Gcm

end CipherModes
