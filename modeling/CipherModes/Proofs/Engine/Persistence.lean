import CipherModes.Proofs.Action
import CipherModes.Proofs.Sequencing

/-!
# What lasts while keys are made

Ciphers and GCMs are made by an engine that asks for providers and then uses them: it imports keys
into them, transforms a block and destroys keys. So what lasts through these steps lasts through
the making, however it ends.
-/

set_option autoImplicit false

namespace CipherModes.Driven

variable {σ : Type}

/-- What is kept of an engine and its backend by asking for providers that keys can be made in, and
by calls that neither open, close nor set a provider. -/
structure Lasting (backend : Backend σ) (holds : Driven σ → Prop) : Prop where
  asked : ∀ {state : Driven σ} (mode : ChainingMode), mode ≠ .cbc → holds state →
    holds (algorithm backend mode state).2
  called : ∀ {state : Driven σ} (call : Call),
    call.operation ∉ [.openProvider, .closeProvider, .setProperty] → holds state →
      holds { state with backend := (backend.answer call state.backend).2 }

namespace Lasting

variable {backend : Backend σ} {holds : Driven σ → Prop} {state : Driven σ}
  (lasting : Lasting backend holds)
include lasting

theorem importKey (mode : ChainingMode) (keyed : mode ≠ .cbc) (secret : Bytes)
    (start : holds state) : holds (Driven.importKey backend mode secret state).2 := by
  have asked := lasting.asked mode keyed start
  rw [Driven.importKey, Action.bind_apply]
  generalize algorithm backend mode state = outcome at asked ⊢
  obtain ⟨result, middle⟩ := outcome
  cases result with
  | error error => exact asked
  | ok algorithm =>
      have imported := lasting.called (.importKey algorithm.provider.raw secret)
        (by simp [Call.operation]) asked
      dsimp only
      rw [Action.state_of_map]
      change holds ⟨middle.cache, (algorithm.importKey _ secret middle.backend).2⟩
      rw [AesAlgorithm.importKey]
      split
      · rw [ImportedKey.acquire]
        dsimp only
        split <;> exact imported
      · exact asked

theorem createCipher (engine : EngineId) (secret : Bytes) (start : holds state) :
    holds (AesCipher.create backend engine secret state).2 := by
  rw [AesCipher.create, Action.state_of_map]
  exact lasting.importKey .ecb nofun secret start

theorem createBlockwise (engine : EngineId) (secret : Bytes) (nonceSize tagSize : Nat)
    (start : holds state) :
    holds (Gcm.createBlockwise backend engine secret nonceSize tagSize state).2 := by
  have created := lasting.createCipher engine secret start
  rw [Gcm.createBlockwise]
  generalize AesCipher.create backend engine secret state = outcome at created ⊢
  obtain ⟨result, middle⟩ := outcome
  cases result with
  | error error => exact created
  | ok cipher =>
      -- Whatever is cached, operations on the backend keep it if their parts do.
      let keeps {α : Type} (operation : StateM σ α) : Prop :=
        ∀ cache inner, holds ⟨cache, inner⟩ → holds ⟨cache, (operation inner).2⟩
      have sequential : Sequential keeps :=
        { pure := fun _ _ _ kept => kept
          bind := fun first second cache inner kept =>
            second _ cache _ (first cache inner kept) }
      have transforms (direction : Direction) (source destination : Bytes) :
          keeps ((cipher.blockCipher backend).transform direction source destination) := by
        intro cache inner kept
        apply lasting.called (.crypt direction cipher.key.raw (source.take cipher.blockSize)
          (destination.take cipher.blockSize)) _ kept
        cases direction <;> simp [Call.operation]
      have derived := sequential.derive transforms nonceSize tagSize middle.cache middle.backend
        created
      simp only [Caching.onBackend]
      generalize Gcm.Blockwise.derive (cipher.blockCipher backend) nonceSize tagSize
        middle.backend = ended at derived ⊢
      obtain ⟨result, last⟩ := ended
      cases result with
      | ok mode => exact derived
      | error error =>
          exact lasting.called (.destroyKey cipher.key.raw) (by simp [Call.operation]) derived

theorem createGcm (cipher : AesCipher) (nonceSize tagSize : Nat) (start : holds state) :
    holds (Gcm.create backend cipher nonceSize tagSize state).2 := by
  unfold Gcm.create
  split
  · rw [Action.state_of_map]
    exact lasting.importKey .gcm nofun cipher.secret start
  · split
    · exact start
    · rw [Action.state_of_map]
      exact lasting.createBlockwise cipher.engine cipher.secret nonceSize tagSize start

end Lasting

end CipherModes.Driven
