import CipherModes.Proofs.Accounts.Quiet
import CipherModes.Proofs.Engine.Coherence
import CipherModes.Proofs.Failures.Modes

/-!
# Engines tell the failure of a call

While a provider is opened and set up, a key imported and a hash key derived,
the first call that fails ends it. What was opened on the way is given back, and
the failure is told as the backend reported it.
-/

set_option autoImplicit false

namespace CipherModes

variable {α σ : Type} {backend : Backend σ}

/-! ## Calls of a provider -/

namespace Provider

theorem acquire_candid (algorithm : String) (flags : ProviderFlags) :
    Candid Recorded.events TellsError (acquire backend.recorded algorithm flags) := by
  refine .of_answer backend (.openProvider algorithm flags) ?_ ?_
  · intro state
    simp only [acquire]
    split <;> rfl
  · intro state error failed
    simp only [acquire, failed]

theorem setText_candid (provider : Provider) (name text : String) :
    Candid Recorded.events TellsError (provider.setText backend.recorded name text) := by
  refine .of_answer backend (.setProperty provider.raw name (encodeWide text)) (fun _ => rfl) ?_
  intro state error failed
  simp only [setText, Action.ofCall, Backend.setText, failed]
  rfl

/-- A property that was not all written is an error too, though of no call. -/
theorem reading_candid (decode : Bytes → α) (handle : Handle) (name : String) (size : Nat) :
    Candid Recorded.events TellsError
      (Action.ofCall (decode <$> backend.recorded.getExact handle name size)) := by
  refine .of_answer backend (.getProperty handle name (Bytes.zeros size))
    (state_of_reading decode handle name size) ?_
  intro state error failed
  simp only [Action.ofCall, Backend.reading_apply, failed]
  rfl

end Provider

theorem ImportedKey.acquire_candid (provider : Provider) (secret : Bytes) :
    Candid Recorded.events TellsError (acquire backend.recorded provider secret) := by
  refine .of_answer backend (.importKey provider.raw secret) ?_ ?_
  · intro state
    simp only [acquire]
    split <;> rfl
  · intro state error failed
    simp only [acquire, failed]

namespace AesAlgorithm

theorem initialise_candid (mode : ChainingMode) (provider : Provider) :
    Candid Recorded.events TellsError (initialise backend.recorded mode provider) := by
  apply Candid.actionBind (provider.setText_candid _ _)
  intro _
  apply Candid.actionBind (Provider.reading_candid KeyLengths.decode _ _ _)
  intro lengths
  apply Candid.actionBind (.ofExcept _)
  intro allowed
  apply Candid.actionBind (Provider.reading_candid decodeWord _ _ _)
  intro blockSize
  split
  · exact .throw _
  · exact .pure _

theorem importKey_candid (algorithm : AesAlgorithm) (secret : Bytes) :
    Candid Recorded.events TellsError (algorithm.importKey backend.recorded secret) := by
  simp only [importKey]
  split
  · exact ImportedKey.acquire_candid _ _
  · exact .throw _

end AesAlgorithm

/-! ## Caches -/

/-- Giving something back to the backend of a cache is all that is done. -/
private theorem onlyReleases_onBackend {operation : StateM (Recorded σ) Unit} (request : Call)
    (release : request.operation.isRelease = true)
    (same : ∀ state, (operation state).2 = (backend.recorded.answer request state).2) :
    OnlyReleases (fun state : Caching α (Recorded σ) => state.backend.events) (fun _ => True)
      (Caching.onBackend operation) := by
  intro state
  refine ⟨[⟨request, (backend.answer request state.backend.inner).1⟩], ?_, ?_, trivial⟩
  · change (operation state.backend).2.events = _
    rw [same]
    rfl
  · exact List.forall_mem_singleton.mpr release

namespace ProviderCache

/-- A cache tells what its initialiser tells, and closes the provider of a value that it does not
keep. -/
theorem acquire_candid {owned : α → Provider} {key : CacheKey}
    {initialiser : Initialiser α (Recorded σ)}
    (candid : ∀ number provider, Candid (fun state => state.backend.events) TellsError
      (initialiser number provider)) :
    Candid (fun state => state.backend.events) TellsError
      (acquire backend.recorded owned key initialiser) := by
  have released (provider : Provider) : OnlyReleases
      (fun state : Caching α (Recorded σ) => state.backend.events) (fun _ => True)
      (Caching.onBackend (provider.release backend.recorded)) :=
    onlyReleases_onBackend (.closeProvider provider.raw) rfl fun _ => rfl
  have initialised (provider : Provider) :
      Candid (fun state => state.backend.events) TellsError
        (initialise backend.recorded provider initialiser) := by
    intro state
    have ended := (candid (state.cache.started + 1) provider).orRelease (released provider)
      { state with cache := { state.cache with started := state.cache.started + 1 } }
    rw [Action.orRelease] at ended
    rw [initialise]
    cases ran : initialiser (state.cache.started + 1) provider
        { state with cache := { state.cache with started := state.cache.started + 1 } } with
    | mk result next =>
        rw [ran] at ended
        cases result <;> exact ended
  have settled (candidate : α) : Candid (fun state => state.backend.events) TellsError
      (fun state : Caching α (Recorded σ) =>
        ((.ok (settle backend.recorded owned key candidate state).1 : Except CipherError α),
          (settle backend.recorded owned key candidate state).2)) := by
    intro state
    cases lost : state.cache.find? key with
    | none =>
        simp only [settle, lost]
        exact ⟨[], (List.append_nil _).symm, by simp⟩
    | some winner =>
        have ended : Candid _ TellsError
            (Caching.onBackend ((owned candidate).release backend.recorded) >>= fun _ =>
              Pure.pure (.ok winner : Except CipherError α)) :=
          .of_onlyReleases ((released (owned candidate)).returns trivial)
        simp only [settle, lost]
        exact ended state
  intro state
  cases found : state.cache.find? key with
  | some value =>
      simp only [acquire, found]
      exact ⟨[], (List.append_nil _).symm, by simp⟩
  | none =>
      have ended := Candid.actionBind
        (.tryBackend (@Provider.acquire_candid σ backend key.algorithm key.flags))
        (fun provider => Candid.actionBind (initialised provider) settled) state
      rw [Action.bind_apply] at ended
      simp only [acquire, found]
      cases acquired : Caching.tryBackend
          (Provider.acquire backend.recorded key.algorithm key.flags) state with
      | mk result opened =>
          rw [acquired] at ended
          cases result with
          | error error => exact ended
          | ok provider =>
              simp only [Action.bind_apply] at ended
              cases made : initialise backend.recorded provider initialiser opened with
              | mk outcome next =>
                  rw [made] at ended
                  simp only [made]
                  cases outcome <;> exact ended

end ProviderCache

/-! ## Making ciphers -/

/-- Where an engine over a backend with a record has that record. -/
abbrev Driven.events (state : Driven (Recorded σ)) : List Event := state.backend.events

namespace Driven

theorem fips_candid : Candid Recorded.events TellsError (fips backend.recorded) := by
  refine .of_answer backend .fipsEnabled (fun _ => rfl) ?_
  intro state error failed
  simp only [fips, failed]
  rfl

theorem algorithm_candid (mode : ChainingMode) :
    Candid events TellsError (algorithm backend.recorded mode) :=
  ProviderCache.acquire_candid fun _ provider =>
    .tryBackend (AesAlgorithm.initialise_candid mode provider)

theorem importKey_candid (mode : ChainingMode) (secret : Bytes) :
    Candid events TellsError (importKey backend.recorded mode secret) := by
  apply Candid.actionBind (algorithm_candid mode)
  intro algorithm
  apply Candid.actionBind (.tryBackend (algorithm.importKey_candid secret))
  exact fun _ => .pure _

end Driven

theorem AesCipher.create_candid (engine : EngineId) (secret : Bytes) :
    Candid Driven.events TellsError (create backend.recorded engine secret) := by
  apply Candid.actionBind (Driven.importKey_candid .ecb secret)
  exact fun _ => .pure _

namespace Gcm

/-- The key of the cipher is destroyed if no hash key comes of it, and nothing else is done. -/
theorem createBlockwise_candid (engine : EngineId) (secret : Bytes) (nonceSize tagSize : Nat) :
    Candid Driven.events TellsError
      (createBlockwise backend.recorded engine secret nonceSize tagSize) := by
  have released (cipher : AesCipher) : OnlyReleases Driven.events (fun _ => True)
      (Caching.onBackend (cipher.key.release backend.recorded)) :=
    onlyReleases_onBackend (.destroyKey cipher.key.raw) rfl fun _ => rfl
  let derived (cipher : AesCipher) : Action (Driven (Recorded σ)) Blockwise :=
    Action.orRelease
      (Caching.tryBackend (Blockwise.derive (cipher.blockCipher backend.recorded) nonceSize tagSize))
      (Caching.onBackend (cipher.key.release backend.recorded))
  have same : createBlockwise backend.recorded engine secret nonceSize tagSize = (do
      let cipher ← AesCipher.create backend.recorded engine secret
      let mode ← derived cipher
      return (cipher, mode)) := by
    funext state
    rw [Action.bind_apply, createBlockwise]
    cases AesCipher.create backend.recorded engine secret state with
    | mk result middle =>
        cases result with
        | error error => rfl
        | ok cipher =>
            simp only [Action.bind_apply, derived, Action.orRelease, Caching.tryBackend,
              Caching.onBackend]
            cases Blockwise.derive (cipher.blockCipher backend.recorded) nonceSize tagSize
                middle.backend with
            | mk outcome last => cases outcome <;> rfl
  rw [same]
  apply Candid.actionBind (AesCipher.create_candid engine secret)
  intro cipher
  apply Candid.actionBind
  · exact .orRelease (.tryBackend (Blockwise.derive_candid cipher.blockCipher_candid _ _))
      (released cipher)
  · exact fun _ => .pure _

theorem create_candid (cipher : AesCipher) (nonceSize tagSize : Nat) :
    Candid Driven.events TellsError (create backend.recorded cipher nonceSize tagSize) := by
  unfold create
  split
  · apply Candid.actionBind (Driven.importKey_candid .gcm cipher.secret)
    exact fun _ => .pure _
  · split
    · exact .throw _
    · apply Candid.actionBind (createBlockwise_candid cipher.engine cipher.secret _ _)
      exact fun _ => .pure _

theorem Ordered.create_candid (cipher : AesCipher) :
    Candid Driven.events TellsError (create backend.recorded cipher) := by
  apply Candid.actionBind (Gcm.create_candid cipher _ _)
  exact fun gcm => .tryBackend (.ofExcept _)

end Gcm

end CipherModes
