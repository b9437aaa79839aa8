import CipherModes.Proofs.Attempts.Importing
import CipherModes.Proofs.Attempts.Twins
import CipherModes.Proofs.Gcm.Creation
import CipherModes.Proofs.Sequencing

/-!
# Ciphers that could not be made

A cipher or a GCM is made of one key, and a GCM over blocks of one more call. If
that fails at any point, the key is destroyed again where there is one.
-/

set_option autoImplicit false

namespace CipherModes

variable {plan : Plan} {state next : Driven (Interposed Token)} {secret : Bytes}

/-! ## Blocks leave the token alone -/

theorem AesCipher.unchanged_of_derive (plan : Plan) (cipher : AesCipher)
    (nonceSize tagSize : Nat) (state : Interposed Token) :
    (Gcm.Blockwise.derive (cipher.blockCipher (Token.backend.interposed plan)) nonceSize tagSize
      state).2.inner = state.inner := by
  have sequential : Sequential fun {α} (operation : StateM (Interposed Token) α) =>
      ∀ state, (operation state).2.inner = state.inner :=
    { pure := fun _ _ => rfl
      bind := fun first second state => (second _ _).trans (first state) }
  refine sequential.derive ?_ nonceSize tagSize state
  intro direction source destination state
  exact plan.unchanged_of_uses (.crypt direction (source.take cipher.blockSize)
    (destination.take cipher.blockSize)) trivial cipher.key.raw state

/-! ## Ciphers -/

theorem AesCipher.create_meets (spares : plan.SparesReleases) (sound : state.Sound plan)
    (engine : EngineId) (secret : Bytes)
    (lasts : (create (Token.backend.interposed plan) engine secret state).2.Lasts) :
    Meets plan (plan.keyed state.token.settings .ecb secret)
      (fun cipher told next => (cipher.engine = engine ∧ cipher.secret = secret) ∧
        Driven.Imported plan state secret cipher.key cipher.blockSize told next)
      (Driven.Leaves plan state) (create (Token.backend.interposed plan) engine secret state) := by
  have meets := Driven.importKey_meets spares sound .ecb secret
  rw [create, Action.bind_apply] at lasts ⊢
  cases ran : Driven.importKey (Token.backend.interposed plan) .ecb secret state with
  | mk result next =>
      rw [ran] at meets lasts
      cases result with
      | error error =>
          cases meets lasts with
          | error expects leaves => exact .error expects leaves
      | ok made =>
          cases meets lasts with
          | ok expects imported => exact .ok expects ⟨⟨rfl, rfl⟩, imported⟩

theorem AesCipher.create_follows (spares : plan.SparesReleases) (engine : EngineId)
    (secret : Bytes) (state : Driven (Interposed Token)) :
    state.token.Follows (create (Token.backend.interposed plan) engine secret state).2.token := by
  rw [create, Action.state_of_map]
  exact Driven.importKey_follows spares .ecb secret state

/-! ## GCM -/

namespace Gcm

/-- How making a GCM over blocks ends: the key of its cipher is there only if all went well. -/
inductive Ending (plan : Plan) (engine : EngineId) (secret : Bytes)
    (state : Driven (Interposed Token)) :
    Except CipherError (AesCipher × Blockwise) × Driven (Interposed Token) → Prop where
  | unmade {error : CipherError} {last : Driven (Interposed Token)}
      (failed : AesCipher.create (Token.backend.interposed plan) engine secret state =
        (.error error, last)) :
      Ending plan engine secret state (.error error, last)
  | destroyed {cipher : AesCipher} {error : CipherError} {middle last : Driven (Interposed Token)}
      (created : AesCipher.create (Token.backend.interposed plan) engine secret state =
        (.ok cipher, middle))
      (cache : last.cache = middle.cache)
      (destroyed : last.token = (middle.token.answer (.destroyKey cipher.key.raw)).2) :
      Ending plan engine secret state (.error error, last)
  | derived {cipher : AesCipher} {mode : Blockwise} {middle last : Driven (Interposed Token)}
      (created : AesCipher.create (Token.backend.interposed plan) engine secret state =
        (.ok cipher, middle))
      (kept : last.token = middle.token) :
      Ending plan engine secret state (.ok (cipher, mode), last)

theorem createBlockwise_ending (spares : plan.SparesReleases) (engine : EngineId)
    (secret : Bytes) (nonceSize tagSize : Nat) (state : Driven (Interposed Token)) :
    Ending plan engine secret state
      (createBlockwise (Token.backend.interposed plan) engine secret nonceSize tagSize state) := by
  rw [createBlockwise]
  cases created : AesCipher.create (Token.backend.interposed plan) engine secret state with
  | mk result middle =>
      cases result with
      | error error => exact .unmade created
      | ok cipher =>
          have unchanged := cipher.unchanged_of_derive plan nonceSize tagSize middle.backend
          simp only [Caching.onBackend]
          cases derived : Blockwise.derive (cipher.blockCipher (Token.backend.interposed plan))
              nonceSize tagSize middle.backend with
          | mk outcome last =>
              rw [derived] at unchanged
              have kept : last.inner = middle.token := unchanged
              cases outcome with
              | ok mode => exact .derived created kept
              | error error =>
                  refine .destroyed created rfl ?_
                  rw [← kept]
                  exact Plan.inner_of_release spares rfl last

theorem createBlockwise_follows (spares : plan.SparesReleases) (engine : EngineId)
    (secret : Bytes) (nonceSize tagSize : Nat) (state : Driven (Interposed Token)) :
    state.token.Follows (createBlockwise (Token.backend.interposed plan) engine secret nonceSize
      tagSize state).2.token := by
  have follows := AesCipher.create_follows spares engine secret state
  have ending := createBlockwise_ending spares engine secret nonceSize tagSize state
  generalize createBlockwise (Token.backend.interposed plan) engine secret nonceSize tagSize state =
    outcome at ending ⊢
  cases ending with
  | unmade failed =>
      rw [failed] at follows
      exact follows
  | destroyed created cache destroyed =>
      rw [created] at follows
      exact destroyed ▸ follows.trans (.answer _ _)
  | derived created kept =>
      rw [created] at follows
      exact kept ▸ follows

theorem create_follows (spares : plan.SparesReleases) (cipher : AesCipher)
    (nonceSize tagSize : Nat) (state : Driven (Interposed Token)) :
    state.token.Follows (create (Token.backend.interposed plan) cipher nonceSize tagSize
      state).2.token := by
  unfold create
  split
  · rw [Action.state_of_map]
    exact Driven.importKey_follows spares .gcm cipher.secret state
  · split
    · exact .refl state.token
    · rw [Action.state_of_map]
      exact createBlockwise_follows spares cipher.engine cipher.secret nonceSize tagSize state

theorem lasts_of_createBlockwise (spares : plan.SparesReleases) {engine : EngineId}
    {nonceSize tagSize : Nat}
    (lasts : (createBlockwise (Token.backend.interposed plan) engine secret nonceSize tagSize
      state).2.Lasts) :
    (AesCipher.create (Token.backend.interposed plan) engine secret state).2.Lasts := by
  have ending := createBlockwise_ending spares engine secret nonceSize tagSize state
  generalize createBlockwise (Token.backend.interposed plan) engine secret nonceSize tagSize state =
    outcome at ending lasts
  cases ending with
  | unmade failed => rwa [failed]
  | destroyed created cache destroyed =>
      rw [Driven.Lasts, destroyed, Token.handlesIssued_of_release rfl] at lasts
      rwa [created]
  | derived created kept =>
      rw [Driven.Lasts, kept] at lasts
      rwa [created]

section

variable {error : CipherError} (spares : plan.SparesReleases) (sound : state.Sound plan)
  (lasts : next.Lasts)
include spares sound lasts

theorem createBlockwise_leaves {engine : EngineId} {nonceSize tagSize : Nat}
    (failed : createBlockwise (Token.backend.interposed plan) engine secret nonceSize tagSize
      state = (.error error, next)) : Driven.Leaves plan state next := by
  have before : (AesCipher.create (Token.backend.interposed plan) engine secret state).2.Lasts := by
    apply lasts_of_createBlockwise spares
    rwa [failed]
  have meets := AesCipher.create_meets spares sound engine secret before
  have ending := createBlockwise_ending spares engine secret nonceSize tagSize state
  rw [failed] at ending
  cases ending with
  | unmade failed =>
      rw [failed] at meets
      exact meets.of_error
  | destroyed created cache destroyed =>
      rw [created] at meets
      cases meets with
      | ok expects holds => exact holds.2.leaves_of_destroy sound cache destroyed

theorem create_leaves {cipher : AesCipher} {nonceSize tagSize : Nat}
    (failed : create (Token.backend.interposed plan) cipher nonceSize tagSize state =
      (.error error, next)) : Driven.Leaves plan state next := by
  unfold create at failed
  split at failed
  · have ran := Action.error_of_map failed
    have meets := Driven.importKey_meets spares sound .gcm cipher.secret (by rwa [ran])
    rw [ran] at meets
    exact meets.of_error
  · split at failed
    · cases failed
      exact .unchanged state
    · exact createBlockwise_leaves spares sound lasts (Action.error_of_map failed)

end

end Gcm

/-- In standard sizes a GCM can always be ordered. -/
theorem Gcm.Ordered.create_eq_map {σ : Type} (backend : Backend σ) (cipher : AesCipher) :
    create backend cipher = do
      let gcm ← Gcm.create backend cipher standardNonceSize standardTagSize
      return { gcm, minNext := 0 } := by
  funext state
  rw [create, Action.bind_apply, Action.bind_apply]
  cases made : Gcm.create backend cipher standardNonceSize standardTagSize state with
  | mk result next =>
      cases result with
      | error error => rfl
      | ok gcm =>
          obtain ⟨nonces, tags, -⟩ := sizes_of_create made
          simp only [Caching.tryBackend, Action.ofExcept, ofGcm, nonces, tags]
          rfl

end CipherModes
