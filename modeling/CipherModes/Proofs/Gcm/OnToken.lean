import CipherModes.Proofs.Gcm.ReliableCipher
import CipherModes.Proofs.Token.Keys
import CipherModes.Workspace.Item

/-!
# GCM over a token

A token answers for a key by what the key is, and nothing else of the token
matters. So GCM over a token computes the scheme of its key, or it refuses if
the key is gone or of the other kind.
-/

set_option autoImplicit false

namespace CipherModes

theorem Aes.Schedule.keepsSize (schedule : Aes.Schedule) :
    Gcm.BlockFunction.KeepsSize schedule.encrypt :=
  fun _ => rfl

namespace AesCipher

variable {cipher : AesCipher} {token : Token}

theorem reliable_on_token (blocks : cipher.blockSize = Gcm.blockSize) (schedule : Aes.Schedule) :
    (cipher.blockCipher Token.backend).Reliable schedule.encrypt
      fun token => token.material? cipher.key.raw = some (.blocks schedule) := by
  constructor
  case keepsSize => exact schedule.keepsSize
  case encrypts =>
    intro source destination token sourceSize destinationSize made
    have wholeSource : source.take cipher.blockSize = source :=
      List.take_of_length_le (Nat.le_of_eq (sourceSize.trans blocks.symm))
    have wholeDestination : destination.take cipher.blockSize = destination :=
      List.take_of_length_le (Nat.le_of_eq (destinationSize.trans blocks.symm))
    have rest : destination.drop cipher.blockSize = [] :=
      List.drop_eq_nil_of_le (Nat.le_of_eq (destinationSize.trans blocks.symm))
    have answered := Token.crypt_of_blocks made ((congrArg _ wholeSource).trans sourceSize)
      ((congrArg _ wholeDestination).trans destinationSize)
    refine ⟨token, ?_, made⟩
    simp only [blockCipher, Token.backend, Token.answer, answered, rest, List.append_nil]
    rw [wholeSource]
    rfl

theorem failsIn_of_not_blocks
    (other : ∀ schedule, token.material? cipher.key.raw ≠ some (.blocks schedule)) :
    (cipher.blockCipher Token.backend).FailsIn token := by
  intro source destination
  obtain ⟨status, failed⟩ : ∃ status, token.crypt .encrypt cipher.key.raw
      (source.take cipher.blockSize) (destination.take cipher.blockSize) =
        (.fail status, token) := Token.crypt_of_not_blocks other
  simp only [blockCipher, Token.backend, Token.answer, failed]
  exact ⟨_, _, _, rfl⟩

end AesCipher

end CipherModes

namespace CipherModes.Gcm

variable {key : ImportedKey} {before after : Token} {nonce aad : Bytes}

/-! ## A key for whole messages -/

theorem native_computes {schedule : Aes.Schedule}
    (madeBefore : before.material? key.raw = some (.sealing schedule))
    (madeAfter : after.material? key.raw = some (.sealing schedule))
    (agreed : nonce.length = standardNonceSize) (aadFits : aad.length < 0x100000000) :
    Computes (.ofKey schedule.encrypt standardTagSize) maxNativePlaintext
      ((native key).sealing Token.backend before) ((native key).opening Token.backend after)
      nonce aad := by
  have size := schedule.keepsSize
  constructor
  case seals =>
    intro destination plaintext fits
    have accepts : Token.AcceptsMessage before key.raw schedule nonce aad plaintext
        (Bytes.zeros standardTagSize) := by
      have limit : maxNativePlaintext < 0x100000000 := by decide
      exact ⟨madeBefore, agreed, Bytes.length_zeros _, Nat.lt_of_le_of_lt fits limit, aadFits⟩
    have answered := Token.aeadEncrypt_of_accepts accepts
    have success : (Token.backend.answer (sealCall key nonce plaintext aad) before).1.result =
        .ok () := by
      simp only [Token.backend, Token.answer, answered]
    rw [sealing, sealInto_native_of_ok agreed (Nat.not_lt_of_le fits) success]
    simp only [Token.backend, Token.answer, answered, sealDetached_eq size agreed,
      List.append_assoc]
    rfl
  case refuses_long =>
    intro destination plaintext long
    rw [sealing, sealInto_native_of_long agreed long]
  case opens =>
    intro destination sealedText
    by_cases outside : OutOfNativeRange sealedText
    · rw [opening, openInto_native_of_outOfRange agreed outside,
        Scheme.unsealed?_of_outside outside]
      rfl
    · have accepts : Token.AcceptsMessage after key.raw schedule nonce aad
          (sealedText.take (sealedText.length - standardTagSize))
          (sealedText.drop (sealedText.length - standardTagSize)) := by
        have limit : maxNativePlaintext < 0x100000000 := by decide
        refine ⟨madeAfter, agreed, ?_, ?_, aadFits⟩
        · rw [List.length_drop]
          omega
        · rw [List.length_take]
          omega
      rw [opening, Scheme.unsealed?_of_inside outside]
      have opened := openDetached?_eq size agreed aad
        (sealedText.take (sealedText.length - standardTagSize))
        (sealedText.drop (sealedText.length - standardTagSize))
      split
      · rename_i matching
        have answered := Token.aeadDecrypt_of_match accepts (opened.trans (if_pos matching))
        have success : (Token.backend.answer (openCall key nonce sealedText aad) after).1.result =
            .ok () := by
          simp only [Token.backend, Token.answer, answered]
        rw [openInto_native_of_ok agreed outside success]
        simp only [Token.backend, Token.answer, answered]
        rfl
      · rename_i mismatch
        have answered := Token.aeadDecrypt_of_mismatch accepts (opened.trans (if_neg mismatch))
        rw [openInto_native_of_error agreed outside (Token.result_of_fail answered)]
        rfl

theorem native_refuses (refusesBefore : before.RefusesMessages key.raw aad)
    (refusesAfter : after.RefusesMessages key.raw aad)
    (agreed : nonce.length = standardNonceSize) :
    Refuses ((native key).sealing Token.backend before)
      ((native key).opening Token.backend after) nonce aad := by
  constructor
  case seals =>
    intro destination plaintext
    by_cases long : maxNativePlaintext < plaintext.length
    · rw [sealing, sealInto_native_of_long agreed long]
      exact ⟨_, rfl⟩
    · obtain ⟨status, answered⟩ : ∃ status, before.answer (sealCall key nonce plaintext aad) =
          (.fail status, before) := Token.aeadEncrypt_of_refuses refusesBefore
      rw [sealing, sealInto_native_of_error agreed long (Token.result_of_fail answered)]
      exact ⟨_, rfl⟩
  case opens =>
    intro destination sealedText
    by_cases outside : OutOfNativeRange sealedText
    · rw [opening, openInto_native_of_outOfRange agreed outside]
    · obtain ⟨status, answered⟩ : ∃ status, after.answer (openCall key nonce sealedText aad) =
          (.fail status, after) := Token.aeadDecrypt_of_refuses refusesAfter
      rw [opening, openInto_native_of_error agreed outside (Token.result_of_fail answered)]

/-! ## Any key -/

theorem sealing_blockwise {σ : Type} (backend : Backend σ) (cipher : AesCipher) (mode : Blockwise)
    (state : σ) :
    (blockwise cipher mode).sealing backend state =
      mode.sealing (cipher.blockCipher backend) state := by
  funext destination nonce plaintext aad
  rw [sealing, sealInto_blockwise]
  rfl

theorem opening_blockwise {σ : Type} (backend : Backend σ) (cipher : AesCipher) (mode : Blockwise)
    (state : σ) :
    (blockwise cipher mode).opening backend state =
      mode.opening (cipher.blockCipher backend) state := by
  funext destination nonce sealedText aad
  rw [opening, openInto_blockwise]
  rfl

/-- The sizes that a GCM must have: a tag fits a block, and so does what its cipher takes. -/
structure FitsBlocks (gcm : Gcm) : Prop where
  tagSize_le : gcm.tagSize ≤ standardTagSize
  cipherSize : ∀ cipher mode, gcm = blockwise cipher mode → cipher.blockSize = blockSize

/-- Whatever has become of its key, a GCM refuses or computes a scheme. -/
theorem FitsBlocks.refuses_or_computes {gcm : Gcm} (fits : gcm.FitsBlocks)
    (same : before.material? gcm.ownedKey.raw = after.material? gcm.ownedKey.raw)
    (agreed : nonce.length = gcm.nonceSize) :
    Refuses (gcm.sealing Token.backend before) (gcm.opening Token.backend after) nonce aad ∨
      ∃ scheme longest, Scheme.Sound scheme ∧ scheme.tagSize = gcm.tagSize ∧
        Computes scheme longest (gcm.sealing Token.backend before)
          (gcm.opening Token.backend after) nonce aad := by
  cases gcm with
  | native key =>
      rcases before.refuses_or_seals key.raw aad with refuses | ⟨aadFits, schedule, made⟩
      · exact .inl (native_refuses refuses (refuses.of_same same) agreed)
      · exact .inr ⟨.ofKey schedule.encrypt standardTagSize, maxNativePlaintext,
          ⟨schedule.keepsSize, Nat.le_refl _⟩, rfl,
          native_computes made (same.symm.trans made) agreed aadFits⟩
  | blockwise cipher mode =>
      have blocks := fits.cipherSize cipher mode rfl
      rw [sealing_blockwise, opening_blockwise]
      by_cases blockKey : ∃ schedule, before.material? cipher.key.raw = some (.blocks schedule)
      · obtain ⟨schedule, made⟩ := blockKey
        exact .inr ⟨mode.scheme schedule.encrypt, maxPlaintext,
          ⟨schedule.keepsSize, fits.tagSize_le⟩, rfl,
          Blockwise.computes_of_reliable (cipher.reliable_on_token blocks schedule) made
            (same.symm.trans made) agreed aad⟩
      · have other : ∀ schedule, before.material? cipher.key.raw ≠ some (.blocks schedule) :=
          fun schedule made => blockKey ⟨schedule, made⟩
        have otherLater : ∀ schedule, after.material? cipher.key.raw ≠ some (.blocks schedule) :=
          fun schedule made => other schedule (same.trans made)
        exact .inl (Blockwise.refuses_of_failsIn (AesCipher.failsIn_of_not_blocks other)
          (AesCipher.failsIn_of_not_blocks otherLater) agreed aad)

theorem FitsBlocks.matching {gcm : Gcm} (fits : gcm.FitsBlocks)
    (same : before.material? gcm.ownedKey.raw = after.material? gcm.ownedKey.raw) :
    Matching (gcm.sealing Token.backend before) (gcm.opening Token.backend after) gcm.nonceSize
      gcm.tagSize :=
  .of_agreed (fun _ _ agreed => fits.refuses_or_computes same agreed)
    (refusesNonces Token.backend gcm before after)

theorem fitsBlocks_of_create {cipher : AesCipher} {nonceSize tagSize : Nat}
    {start next : Driven Token} {gcm : Gcm}
    (made : create Token.backend cipher nonceSize tagSize start = (.ok gcm, next)) :
    gcm.FitsBlocks := by
  obtain ⟨-, tags, bound⟩ := sizes_of_create made
  refine ⟨tags ▸ bound, ?_⟩
  rintro own mode rfl
  rcases create_eq_ok made with ⟨-, key, length, same, -⟩ | ⟨-, other, mode, same, built⟩
  · cases same
  · cases same
    obtain ⟨middle, -, derived, -⟩ := createBlockwise_eq_ok built
    exact (Blockwise.derivedFrom_of_derive derived).cipher_blockSize

end CipherModes.Gcm
