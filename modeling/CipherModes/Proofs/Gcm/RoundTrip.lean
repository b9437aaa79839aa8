import CipherModes.Proofs.Gcm.Keyed

/-!
# Opening inverts sealing

For GCM over any reliable cipher, and for each GCM that can be made over a
token: what opens is what was sealed, and nothing else.
-/

set_option autoImplicit false

namespace CipherModes.Gcm

theorem maxNativePlaintext_le (gcm : Gcm) : maxNativePlaintext ≤ gcm.longestPlaintext := by
  cases gcm with
  | native key => exact Nat.le_refl _
  | blockwise cipher mode => exact Nat.min_le_left _ _

theorem Blockwise.opening_inverts_reliably {σ : Type} {cipher : BlockCipher σ}
    {encrypt : BlockFunction} {steady : σ → Prop} (reliable : cipher.Reliable encrypt steady)
    {gcm : Blockwise} (sized : gcm.tagSize ≤ standardTagSize) {before after : σ}
    (start : steady before) (later : steady after) :
    Matching (gcm.sealing cipher before) (gcm.opening cipher after) gcm.nonceSize gcm.tagSize ∧
      SealsAll (gcm.sealing cipher before) gcm.nonceSize := by
  have computes : ∀ nonce aad, nonce.length = gcm.nonceSize →
      Computes (gcm.scheme encrypt) maxPlaintext (gcm.sealing cipher before)
        (gcm.opening cipher after) nonce aad := by
    intro nonce aad agreed
    exact computes_of_reliable reliable start later agreed aad
  have sound : (gcm.scheme encrypt).Sound := ⟨reliable.keepsSize, sized⟩
  constructor
  · apply Matching.of_agreed _ (refusesNonces cipher gcm before after)
    intro nonce aad agreed
    exact .inr ⟨_, _, sound, rfl, computes nonce aad agreed⟩
  · exact Computes.sealsAll (Nat.min_le_left _ _) fun nonce aad agreed _ =>
      computes nonce aad agreed

theorem sealsAll_of_keyed {gcm : Gcm} {schedule : Aes.Schedule} {token : Token}
    (keyed : gcm.KeyedBy schedule token) :
    SealsAll (gcm.sealing Token.backend token) gcm.nonceSize :=
  Computes.sealsAll gcm.maxNativePlaintext_le fun _ _ agreed aadFits =>
    keyed.computes keyed agreed aadFits

/-- A reliable cipher, or a token with the key that the GCM was made with. The token may have
come to any other state in the meantime, and opening need not follow sealing. If it still has the
key as it was made, through an engine that was left alone, every message of 32-bit length is
sealed. -/
theorem opening_inverts_sealing :
    (∀ {σ : Type} (cipher : BlockCipher σ) (encrypt : BlockFunction) (steady : σ → Prop)
      (nonceSize tagSize : Nat) (start next : σ) (gcm : Blockwise),
        cipher.Reliable encrypt steady →
        Blockwise.derive cipher nonceSize tagSize start = (.ok gcm, next) →
          ∀ before after, steady before → steady after →
            Matching (gcm.sealing cipher before) (gcm.opening cipher after) nonceSize tagSize ∧
              SealsAll (gcm.sealing cipher before) nonceSize) ∧
    ∀ (cipher : AesCipher) (nonceSize tagSize : Nat) (start next : Driven Token) (gcm : Gcm),
      create Token.backend cipher nonceSize tagSize start = (.ok gcm, next) →
        (∀ before after : Token,
          before.material? gcm.ownedKey.raw = after.material? gcm.ownedKey.raw →
            Matching (gcm.sealing Token.backend before) (gcm.opening Token.backend after)
              nonceSize tagSize) ∧
        (Driven.Reached start → start.backend.handlesIssued < Handle.limit → ∀ token : Token,
          token.material? gcm.ownedKey.raw = next.backend.material? gcm.ownedKey.raw →
            SealsAll (gcm.sealing Token.backend token) nonceSize) := by
  constructor
  · intro σ cipher encrypt steady nonceSize tagSize start next gcm reliable derived before after
      steadyBefore steadyAfter
    have facts := Blockwise.derivedFrom_of_derive derived
    rw [← facts.nonceSize_eq, ← facts.tagSize_eq]
    exact Blockwise.opening_inverts_reliably reliable facts.sized.tagSize_le steadyBefore
      steadyAfter
  · intro cipher nonceSize tagSize start next gcm made
    obtain ⟨nonces, tags, -⟩ := sizes_of_create made
    rw [← nonces, ← tags]
    constructor
    · intro before after same
      exact (fitsBlocks_of_create made).matching same
    · intro reached remain token same
      obtain ⟨schedule, -, keyed⟩ := keyedBy_of_create (reached.coherent remain) made
      exact sealsAll_of_keyed (keyed.of_same same)

/-- A rotating cipher that never fails, and a GCM with short tags over a cipher of a token. -/
theorem opening_inverts_sealing_in_short_tags :
    (∃ mode, (Blockwise.derive (RotatingCipher.blockCipher ⟨16, 7, []⟩) 13 12 0).1 = .ok mode ∧
      ∀ before after,
        Matching (mode.sealing (RotatingCipher.blockCipher ⟨16, 7, []⟩) before)
          (mode.opening (RotatingCipher.blockCipher ⟨16, 7, []⟩) after) 13 12 ∧
        SealsAll (mode.sealing (RotatingCipher.blockCipher ⟨16, 7, []⟩) before) 13) ∧
    ∃ cipher gcm next, create Token.backend cipher 12 15 (.fresh (.fresh .default)) =
        (.ok gcm, next) ∧
      Matching (gcm.sealing Token.backend next.backend) (gcm.opening Token.backend next.backend)
        12 15 ∧
      SealsAll (gcm.sealing Token.backend next.backend) 12 := by
  obtain ⟨reliably, onToken⟩ := opening_inverts_sealing
  have derived : (Blockwise.derive (RotatingCipher.blockCipher ⟨16, 7, []⟩) 13 12 0).1 =
      .ok ⟨(RotatingCipher.mk 16 7 []).encrypt (Bytes.zeros 16), 13, 12⟩ := by rfl
  obtain ⟨cipher, gcm, made⟩ : ∃ cipher gcm,
      (create Token.backend cipher 12 15 (.fresh (.fresh .default))).1 = .ok gcm :=
    ⟨⟨0, ⟨⟨.issuedAfter 0, aesAlgorithm⟩, .issuedAfter 1, 128⟩, Bytes.zeros 16, 16⟩, _, by rfl⟩
  obtain ⟨matching, seals⟩ := onToken _ _ _ _ _ _ (Prod.ext made rfl)
  refine ⟨⟨_, derived, ?_⟩, cipher, gcm, _, Prod.ext made rfl, matching _ _ rfl, ?_⟩
  · intro before after
    exact reliably _ _ _ _ _ _ _ _ (RotatingCipher.reliable rfl rfl) (Prod.ext derived rfl)
      before after trivial trivial
  · exact seals (.fresh .default []) (by decide) _ rfl

end CipherModes.Gcm
