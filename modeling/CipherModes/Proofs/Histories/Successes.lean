import CipherModes.Proofs.Engine.BlockLength
import CipherModes.Proofs.Usage.Engine

/-!
# Successes in front of a token

Something in front of a token that makes nothing up lets calls through or lets
them fail. An action that succeeds all the same has been answered by the token
alone, so it would have succeeded in the same way on the token itself. What is
known of ciphers made on a token is known of them here.
-/

set_option autoImplicit false

namespace CipherModes

variable {α β σ τ : Type} {backend : Backend σ} {front : backend.Fronting}

/-! ## Calls that only fail -/

/-- A call is answered by the token, or it fails. -/
def Backend.Fronting.OnlyFails (front : backend.Fronting) : Prop :=
  ∀ call state,
    ((backend.answer call state).1 = ((front.token state).answer call).1 ∧
      front.token (backend.answer call state).2 = ((front.token state).answer call).2) ∨
    ∃ error, (backend.answer call state).1.result = .error error

namespace Backend.Fronting.OnlyFails

theorem recorded (fails : front.OnlyFails) : front.recorded.OnlyFails :=
  fun call state => fails call state.inner

/-- A plan that overrides no property only lets calls fail. -/
theorem interposed {plan : Plan} (fails : front.OnlyFails)
    (silent : ∀ name, plan.property name = none) : (front.interposed plan).OnlyFails := by
  intro call state
  cases planned : plan.answer? state.made call with
  | none =>
      rw [Accounting.answer_of_unplanned planned]
      exact fails call state.inner
  | some reply =>
      rw [Accounting.answer_of_planned planned]
      simp only [Plan.answer?] at planned
      cases failing : plan.fault call.operation (state.made.count call.operation + 1) with
      | some status =>
          rw [failing] at planned
          cases planned
          exact .inr ⟨_, rfl⟩
      | none =>
          rw [failing] at planned
          cases call with
          | getProperty handle name output =>
              simp only [silent] at planned
              cases planned
          | _ => cases planned

theorem of_ok {call : Call} {state : σ} {value : call.Value} (fails : front.OnlyFails)
    (success : (backend.answer call state).1.result = .ok value) :
    (backend.answer call state).1 = ((front.token state).answer call).1 ∧
      front.token (backend.answer call state).2 = ((front.token state).answer call).2 := by
  rcases fails call state with answered | ⟨error, failed⟩
  · exact answered
  · rw [success] at failed
    cases failed

end Backend.Fronting.OnlyFails

theorem Token.onlyFails_fronting : Token.fronting.OnlyFails := fun _ _ => .inl ⟨rfl, rfl⟩

/-! ## Actions -/

/-- Whenever the action succeeds, the other one does on what is seen of the state. -/
def Action.SucceedsAs (view : σ → τ) (action : Action σ α) (direct : Action τ α) : Prop :=
  ∀ ⦃state value next⦄, action state = (.ok value, next) →
    direct (view state) = (.ok value, view next)

namespace Action.SucceedsAs

variable {view : σ → τ}

theorem pure (value : α) :
    Action.SucceedsAs view (Pure.pure value : Action σ α) (Pure.pure value) := by
  intro state result next success
  cases success
  rfl

theorem throw (error : CipherError) (direct : Action τ α) :
    Action.SucceedsAs view (MonadExcept.throw error) direct := by
  intro state value next success
  cases success

theorem ofExcept (result : Except CipherError α) :
    Action.SucceedsAs view (Action.ofExcept result : Action σ α) (Action.ofExcept result) := by
  intro state value next success
  cases success
  rfl

theorem bind {action : Action σ α} {direct : Action τ α} {rest : α → Action σ β}
    {others : α → Action τ β} (first : action.SucceedsAs view direct)
    (second : ∀ value, (rest value).SucceedsAs view (others value)) :
    (action >>= rest).SucceedsAs view (direct >>= others) := by
  intro state result final success
  obtain ⟨value, middle, ran, finished⟩ := bind_eq_ok success
  rw [bind_of_ok (first ran)]
  exact second value finished

/-- An action that tells of one call, and succeeds only if the call does. -/
theorem of_answer (fails : front.OnlyFails) (action : {σ : Type} → Backend σ → Action σ α)
    (request : Call) (told : Reply request → Except CipherError α)
    (asks : ∀ {σ : Type} (backend : Backend σ) state, action backend state =
      (told (backend.answer request state).1, (backend.answer request state).2))
    (tells : ∀ reply error, reply.result = .error error → ∃ failure, told reply = .error failure) :
    (action backend).SucceedsAs front.token (action Token.backend) := by
  intro state value next success
  rw [asks] at success ⊢
  cases result : (backend.answer request state).1.result with
  | error error =>
      obtain ⟨failure, failed⟩ := tells _ error result
      rw [failed] at success
      cases success
  | ok written =>
      obtain ⟨same, after⟩ := fails.of_ok result
      rw [same] at success
      obtain ⟨told, rfl⟩ := Prod.mk.inj success
      rw [after]
      exact congrArg (·, _) told

theorem tryBackend {γ : Type} {action : Action σ β} {direct : Action Token β}
    (succeeds : action.SucceedsAs front.token direct) :
    (Caching.tryBackend action : Action (Caching γ σ) β).SucceedsAs
      (fun state => ⟨state.cache, front.token state.backend⟩) (Caching.tryBackend direct) := by
  intro state value next success
  obtain ⟨ran, kept⟩ := Caching.of_tryBackend success
  simp only [Caching.tryBackend, succeeds ran, kept]

end Action.SucceedsAs

/-! ## Calls of a provider and a key -/

section

variable (fails : front.OnlyFails)
include fails

namespace Provider

theorem acquire_succeedsAs (algorithm : String) (flags : ProviderFlags) :
    (acquire backend algorithm flags).SucceedsAs front.token
      (acquire Token.backend algorithm flags) := by
  apply Action.SucceedsAs.of_answer fails (fun backend => acquire backend algorithm flags)
    (.openProvider algorithm flags) fun reply =>
      (reply.result.mapError .backend).map fun raw => { raw, algorithm }
  · intro _ backend state
    simp only [acquire]
    cases (backend.answer (.openProvider algorithm flags) state).1.result <;> rfl
  · intro reply error failed
    rw [failed]
    exact ⟨_, rfl⟩

theorem setText_succeedsAs (provider : Provider) (name text : String) :
    (provider.setText backend name text).SucceedsAs front.token
      (provider.setText Token.backend name text) := by
  apply Action.SucceedsAs.of_answer fails (fun backend => provider.setText backend name text)
    (.setProperty provider.raw name (encodeWide text)) fun reply => reply.result.mapError .backend
  · exact fun backend state => rfl
  · intro reply error failed
    rw [failed]
    exact ⟨_, rfl⟩

theorem reading_succeedsAs (decode : Bytes → α) (handle : Handle) (name : String) (size : Nat) :
    (Action.ofCall (decode <$> backend.getExact handle name size)).SucceedsAs front.token
      (Action.ofCall (decode <$> Token.backend.getExact handle name size)) := by
  apply Action.SucceedsAs.of_answer fails
    (fun backend => Action.ofCall (decode <$> backend.getExact handle name size))
    (.getProperty handle name (Bytes.zeros size)) fun reply =>
      (reply.result.mapError .backend).bind fun written =>
        if written = size then .ok (decode reply.output)
        else .error (.backend ⟨Operation.getProperty.name, .invalidBufferSize⟩)
  · intro _ backend state
    simp only [Action.ofCall, Backend.reading_apply]
    cases (backend.answer (.getProperty handle name (Bytes.zeros size)) state).1.result with
    | error error => rfl
    | ok written =>
        by_cases whole : written = size
        · simp only [Except.mapError, Except.bind, if_pos whole]
        · simp only [Except.mapError, Except.bind, if_neg whole]
  · intro reply error failed
    rw [failed]
    exact ⟨_, rfl⟩

end Provider

theorem ImportedKey.acquire_succeedsAs (provider : Provider) (secret : Bytes) :
    (acquire backend provider secret).SucceedsAs front.token
      (acquire Token.backend provider secret) := by
  apply Action.SucceedsAs.of_answer fails (fun backend => acquire backend provider secret)
    (.importKey provider.raw secret) fun reply =>
      (reply.result.mapError .backend).map fun raw =>
        { provider, raw, bits := keyBits secret.length }
  · intro _ backend state
    simp only [acquire]
    cases (backend.answer (.importKey provider.raw secret) state).1.result <;> rfl
  · intro reply error failed
    rw [failed]
    exact ⟨_, rfl⟩

/-- A block that was transformed was transformed by the token. -/
theorem AesCipher.transform_of_ok {cipher : AesCipher} {direction : Direction}
    {source destination output : Bytes} {state next : σ}
    (success : (cipher.blockCipher backend).transform direction source destination state =
      ((.ok (), output), next)) :
    (cipher.blockCipher Token.backend).transform direction source destination (front.token state) =
      ((.ok (), output), front.token next) := by
  simp only [blockCipher] at success ⊢
  cases result : (backend.answer (.crypt direction cipher.key.raw (source.take cipher.blockSize)
      (destination.take cipher.blockSize)) state).1.result with
  | error error =>
      rw [result] at success
      cases success
  | ok written =>
      obtain ⟨same, after⟩ := fails.of_ok result
      rw [same] at success
      obtain ⟨told, rfl⟩ := Prod.mk.inj success
      rw [after]
      exact congrArg (·, _) told

/-! ## Engines -/

namespace AesAlgorithm

theorem initialise_succeedsAs (mode : ChainingMode) (provider : Provider) :
    (initialise backend mode provider).SucceedsAs front.token
      (initialise Token.backend mode provider) := by
  apply Action.SucceedsAs.bind (provider.setText_succeedsAs fails _ _)
  intro _
  apply Action.SucceedsAs.bind (Provider.reading_succeedsAs fails KeyLengths.decode _ _ _)
  intro lengths
  apply Action.SucceedsAs.bind (.ofExcept _)
  intro allowed
  apply Action.SucceedsAs.bind (Provider.reading_succeedsAs fails decodeWord _ _ _)
  intro blockSize
  split
  · exact .throw _ _
  · exact .pure _

theorem importKey_succeedsAs (algorithm : AesAlgorithm) (secret : Bytes) :
    (algorithm.importKey backend secret).SucceedsAs front.token
      (algorithm.importKey Token.backend secret) := by
  simp only [importKey]
  split
  · exact ImportedKey.acquire_succeedsAs fails _ _
  · exact .throw _ _

end AesAlgorithm

namespace Driven

/-- What an engine sees of the state in front of a token. -/
abbrev seen (front : backend.Fronting) (state : Driven σ) : Driven Token :=
  ⟨state.cache, front.token state.backend⟩

theorem algorithm_succeedsAs (mode : ChainingMode) :
    (algorithm backend mode).SucceedsAs (seen front) (algorithm Token.backend mode) := by
  intro state value next success
  have ending := algorithm_ending backend mode state
  rw [success] at ending
  cases ending with
  | hit found => exact algorithm_of_found found
  | won missing acquired ran first =>
      obtain ⟨initialised, kept⟩ := Caching.of_tryBackend ran
      have absent : (seen front state).cache.find? (cacheKey mode) = none := missing
      rw [algorithm_of_ok absent (Provider.acquire_succeedsAs fails _ _ acquired)
        (AesAlgorithm.initialise_succeedsAs fails mode _ initialised), seen, kept]
      rfl
  | lost missing acquired ran late =>
      obtain ⟨-, kept⟩ := Caching.of_tryBackend ran
      rw [kept] at late
      exact absurd (late.symm.trans missing) nofun

theorem importKey_succeedsAs (mode : ChainingMode) (secret : Bytes) :
    (importKey backend mode secret).SucceedsAs (seen front)
      (importKey Token.backend mode secret) := by
  apply Action.SucceedsAs.bind (algorithm_succeedsAs fails mode)
  intro algorithm
  apply Action.SucceedsAs.bind (.tryBackend (algorithm.importKey_succeedsAs fails secret))
  exact fun key => .pure _

/-- An engine caches a provider with the block length that the token reports for it. -/
theorem cached_of_algorithm {settings : Settings} {state : Driven σ} (mode : ChainingMode)
    (reports : (seen front state).Reports settings) :
    ∀ entry ∈ (algorithm backend mode state).2.cache.entries,
      entry.2.blockSize = settings.blockLength.toNat := by
  have ending := algorithm_ending backend mode state
  generalize algorithm backend mode state = outcome at ending ⊢
  cases ending with
  | hit | unopened => exact reports.cached
  | failed missing acquired ran =>
      obtain ⟨-, kept⟩ := Caching.of_tryBackend ran
      exact kept ▸ reports.cached
  | won missing acquired ran first =>
      obtain ⟨initialised, kept⟩ := Caching.of_tryBackend ran
      have opened := Provider.acquire_settings (cacheKey mode).algorithm (cacheKey mode).flags
        (front.token state.backend)
      rw [Provider.acquire_succeedsAs fails _ _ acquired] at opened
      obtain ⟨-, size⟩ := (AesAlgorithm.initialise_reports mode _ settings).ok_of_eq
        (opened.trans reports.settings_eq)
        (AesAlgorithm.initialise_succeedsAs fails mode _ initialised)
      rw [ProviderCache.insert, kept, List.forall_mem_append, List.forall_mem_singleton]
      exact ⟨reports.cached, size⟩
  | lost missing acquired ran late =>
      obtain ⟨-, kept⟩ := Caching.of_tryBackend ran
      exact kept ▸ reports.cached

end Driven

/-! ## Ciphers and modes -/

theorem AesCipher.create_succeedsAs (engine : EngineId) (secret : Bytes) :
    (create backend engine secret).SucceedsAs (Driven.seen front)
      (create Token.backend engine secret) := by
  apply Action.SucceedsAs.bind (Driven.importKey_succeedsAs fails .ecb secret)
  exact fun made => .pure _

end

end CipherModes
