import CipherModes.Proofs.Accounts.Engine
import CipherModes.Proofs.Usage.Providers

/-!
# Fitting calls of engines

An engine caches a provider once it has put it into a mode; until then, as on
every way on which that fails, nobody else has it. Keys are imported into cached
providers only, and one that is left over is destroyed.
-/

set_option autoImplicit false

namespace CipherModes

open Backend (Fronting)

variable {α σ : Type} {backend : Backend σ} {front : backend.Fronting}
  {allowed : Token → Call → Prop} {initial : σ} {knows : ChainingMode → Handle → Prop}
  {custody : List Custody} {cached : List (CacheKey × AesAlgorithm)} {strangers : List Provider}

open Backend.Fronting (Admits Serving)

namespace AesAlgorithm

theorem initialise_serving {frame : Prop} (admits : Admits allowed knows) (mode : ChainingMode)
    (provider : Provider) :
    (initialise backend mode provider).Establishes
      (front.Holds allowed initial fun token =>
        frame ∧ token.Serves custody cached (provider :: strangers))
      (fun algorithm => front.Holds allowed initial fun token =>
        algorithm.provider = provider ∧ frame ∧
          token.Serves custody cached (provider :: strangers) ∧
            token.providers.get? provider.raw = some mode)
      (front.Serving allowed initial custody cached (provider :: strangers)) := by
  let inMode (token : Token) : Prop := frame ∧
    token.Serves custody cached (provider :: strangers) ∧
      token.providers.get? provider.raw = some mode
  have still : ∀ state, front.Holds allowed initial inMode state →
      front.Serving allowed initial custody cached (provider :: strangers) state :=
    fun _ holds => holds.mono fun _ known => known.2.1
  have reading {β : Type} {decode : Bytes → β} (name : String) (size : Nat) :
      (Action.ofCall (decode <$> backend.getExact provider.raw name size)).Establishes
        (front.Holds allowed initial inMode) (fun _ => front.Holds allowed initial inMode)
        (front.Serving allowed initial custody cached (provider :: strangers)) :=
    (Serving.reading admits provider.raw name size).mono (fun _ => id) (fun _ _ => id) still
  apply Action.Establishes.bind (fun _ => front.Holds allowed initial inMode)
    (Serving.setMode admits provider mode)
  intro _
  apply Action.Establishes.bind (fun _ => front.Holds allowed initial inMode) (reading _ _)
  intro lengths
  apply Action.Establishes.bind fun _ => front.Holds allowed initial inMode
  · intro state holds
    cases AllowedKeyLengths.check lengths with
    | error error => exact still state holds
    | ok allowed => exact holds
  intro table
  apply Action.Establishes.bind (fun _ => front.Holds allowed initial inMode) (reading _ _)
  intro blockSize
  split
  · exact .throw still
  · exact .pure fun _ holds => holds.mono fun _ known => ⟨rfl, known⟩

end AesAlgorithm

theorem AesAlgorithm.importKey_serving {mode : ChainingMode} {algorithm : AesAlgorithm}
    (entry : (Driven.cacheKey mode, algorithm) ∈ cached) (admits : Admits allowed knows)
    (known : knows mode algorithm.provider.raw) (secret : Bytes) :
    (algorithm.importKey backend secret).Establishes
      (front.Serving allowed initial custody cached strangers)
      (fun key => front.Serving allowed initial (⟨key, some mode⟩ :: custody) cached strangers)
      (front.Serving allowed initial custody cached strangers) := by
  have inMode (token : Token) (serves : token.Serves custody cached strangers) :
      mode.OfEngine ∧ token.providers.get? algorithm.provider.raw = some mode := by
    obtain ⟨other, ofEngine, named, present⟩ := serves.open_in_mode _ entry
    cases Driven.cacheKey_injective named
    exact ⟨ofEngine, present⟩
  simp only [importKey]
  split
  · apply Serving.acquireKey
    · intro token serves
      obtain ⟨ofEngine, present⟩ := inMode token serves
      exact admits token (.importKey ..) ⟨mode, ofEngine, known, present⟩
    · intro token serves
      refine ⟨serves.algorithms _ ?_, ?_⟩
      · apply List.mem_append_left
        exact List.mem_append_right _ (List.mem_map_of_mem entry)
      · rintro _ ⟨⟩
        exact (inMode token serves).2
  · exact .throw fun _ holds => holds

/-! ## Asking an engine -/

/-- What the token keeps while nobody is asking an engine: for this one too. -/
abbrev Backend.Fronting.ServingEngine (front : backend.Fronting) (allowed : Token → Call → Prop)
    (initial : σ) (custody : List Custody) (others : List (CacheKey × AesAlgorithm))
    (strangers : List Provider) (state : Driven σ) : Prop :=
  front.Serving allowed initial custody (state.cache.entries ++ others) strangers state.backend

/-- A cache knows a provider by the mode that it was opened for. -/
def ProviderCache.Knows (cache : ProviderCache AesAlgorithm) (mode : ChainingMode)
    (provider : Handle) : Prop :=
  ∃ algorithm, cache.find? (Driven.cacheKey mode) = some algorithm ∧
    algorithm.provider.raw = provider

/-- If it succeeds, an action on an engine entrusts one more key, else none. Its calls fit, where
the engine then knows their providers. -/
def Action.Entrusts (front : backend.Fronting) (entrusted : α → Custody)
    (action : Action (Driven σ) α) : Prop :=
  ∀ ⦃allowed : Token → Call → Prop⦄ ⦃initial : σ⦄ ⦃custody : List Custody⦄
    ⦃others : List (CacheKey × AesAlgorithm)⦄ ⦃strangers : List Provider⦄ (state : Driven σ),
    Admits allowed (action state).2.cache.Knows →
      front.ServingEngine allowed initial custody others strangers state →
        action.Establishes (· = state)
          (fun value =>
            front.ServingEngine allowed initial (entrusted value :: custody) others strangers)
          (front.ServingEngine allowed initial custody others strangers)

namespace Driven

theorem algorithm_serving {mode : ChainingMode} (admits : Admits allowed knows)
    (ofEngine : mode.OfEngine) :
    (algorithm backend mode).Establishes
      (front.ServingEngine allowed initial custody cached strangers)
      (fun value next => next.cache.find? (cacheKey mode) = some value ∧
        front.ServingEngine allowed initial custody cached strangers next)
      (front.ServingEngine allowed initial custody cached strangers) := by
  intro state serving
  have ending : ProviderCache.Ending backend AesAlgorithm.provider (cacheKey mode)
      (fun _ provider => Caching.tryBackend (AesAlgorithm.initialise backend mode provider)) state
      (algorithm backend mode state) := ProviderCache.acquire_ending ..
  generalize algorithm backend mode state = outcome at ending ⊢
  cases ending with
  | hit found => exact ⟨found, serving⟩
  | unopened missing refused => exact (Serving.acquire admits _ _).error_of_eq serving refused
  | @failed _ _ _ last missing acquired ran =>
      have opened := (Serving.acquire admits _ _).ok_of_eq serving acquired
      obtain ⟨initialised, same⟩ := Caching.of_tryBackend ran
      have left := (AesAlgorithm.initialise_serving admits mode _).error_of_eq opened initialised
      change front.Serving allowed initial custody (last.cache.entries ++ cached) strangers _
      rw [same]
      exact left.release admits
  | @won _ algorithm _ _ missing acquired ran first =>
      have opened := (Serving.acquire admits _ _).ok_of_eq serving acquired
      obtain ⟨initialised, same⟩ := Caching.of_tryBackend ran
      refine ⟨ProviderCache.find?_insert first, ?_⟩
      have made := (AesAlgorithm.initialise_serving admits mode _).ok_of_eq opened initialised
      rw [Backend.Fronting.ServingEngine, same]
      apply made.mono
      rintro token ⟨rfl, alone, serves, inMode⟩
      have inserted := (List.perm_append_singleton (cacheKey mode, algorithm)
        state.cache.entries).append_right cached
      exact (serves.adopted ofEngine alone inMode).shrink (.refl _) inserted.subset
        (List.Subset.refl _)
  | lost missing acquired ran late =>
      obtain ⟨initialised, same⟩ := Caching.of_tryBackend ran
      rw [same] at late
      have found : state.cache.find? (cacheKey mode) = some _ := late
      rw [missing] at found
      cases found

theorem importKey_entrusts {mode : ChainingMode} (ofEngine : mode.OfEngine) (secret : Bytes) :
    (importKey backend mode secret).Entrusts front fun made => ⟨made.1, some mode⟩ := by
  intro allowed initial custody others strangers state admits serving
  rintro _ rfl
  have asked := algorithm_serving admits ofEngine _ serving
  rw [importKey, Action.bind_apply] at admits ⊢
  cases ran : algorithm backend mode _ with
  | mk result middle =>
      rw [ran] at asked admits
      cases result with
      | error error => exact asked
      | ok algorithm =>
          obtain ⟨found, keeps⟩ := asked
          have entry := List.mem_append_left others (ProviderCache.mem_of_find? found)
          cases imported : algorithm.importKey backend secret middle.backend with
          | mk outcome last =>
              simp only [Action.bind_apply, Caching.tryBackend, imported] at admits ⊢
              have known : Admits allowed middle.cache.Knows := by cases outcome <;> exact admits
              have ended := algorithm.importKey_serving entry known ⟨algorithm, found, rfl⟩ secret
                middle.backend keeps
              rw [imported] at ended
              cases outcome <;> exact ended

end Driven

/-! ## Ciphers and modes -/

namespace Action.Entrusts

variable {action : Action (Driven σ) α} {entrusted : α → Custody}

theorem map {β : Type} {made : α → β} {held : β → Custody}
    (entrusts : action.Entrusts front fun value => held (made value)) :
    (action >>= fun value => Pure.pure (made value)).Entrusts front held := by
  intro allowed initial custody others strangers state admits serving
  rintro _ rfl
  rw [bind_apply] at admits ⊢
  cases ran : action _ with
  | mk result next =>
      rw [ran] at admits
      cases result with
      | error error => exact (entrusts _ (ran ▸ admits) serving).error_of_eq rfl ran
      | ok value => exact (entrusts _ (ran ▸ admits) serving).ok_of_eq rfl ran

end Action.Entrusts

theorem AesCipher.create_entrusts (engine : EngineId) (secret : Bytes) :
    (create backend engine secret).Entrusts front fun cipher => ⟨cipher.key, some .ecb⟩ :=
  (Driven.importKey_entrusts (.inl rfl) secret).map

namespace Gcm

/-- A key is destroyed again if its cipher is not one for GCM. -/
theorem createBlockwise_entrusts (engine : EngineId) (secret : Bytes) (nonceSize tagSize : Nat) :
    (createBlockwise backend engine secret nonceSize tagSize).Entrusts front
      fun made => ⟨made.1.key, some .ecb⟩ := by
  intro allowed initial custody others strangers state admits serving
  rintro _ rfl
  unfold createBlockwise at admits ⊢
  cases ran : AesCipher.create backend engine secret _ with
  | mk result middle =>
      rw [ran] at admits
      cases result with
      | error error =>
          exact (AesCipher.create_entrusts engine secret _ (ran ▸ admits) serving).error_of_eq rfl
            ran
      | ok cipher =>
          simp only [Caching.onBackend] at admits ⊢
          cases derived : Blockwise.derive (cipher.blockCipher backend) nonceSize tagSize
              middle.backend with
          | mk outcome last =>
              rw [derived] at admits
              have knows : Admits allowed middle.cache.Knows := by cases outcome <;> exact admits
              have made := (AesCipher.create_entrusts engine secret _ (ran ▸ knows) serving).ok_of_eq
                rfl ran
              have kept : front.Keeps allowed initial (⟨cipher.key, some .ecb⟩ :: custody)
                  (middle.cache.entries ++ others) strangers
                  (Blockwise.derive (cipher.blockCipher backend) nonceSize tagSize) :=
                Fronting.Keeps.sequential.derive (.blockCipher knows (.head _)) nonceSize tagSize
              replace kept := kept middle.backend made
              rw [derived] at kept
              cases outcome with
              | error error => exact (Serving.releaseKey knows kept).mono fun _ => And.right
              | ok mode => exact kept

theorem create_entrusts (cipher : AesCipher) (nonceSize tagSize : Nat) :
    (create backend cipher nonceSize tagSize).Entrusts front Gcm.custody := by
  unfold create
  split
  · exact (Driven.importKey_entrusts (.inr rfl) cipher.secret).map
  · split
    · exact fun _ _ _ _ _ state _ serving => .throw fun _ same => same ▸ serving
    · exact (createBlockwise_entrusts cipher.engine cipher.secret nonceSize tagSize).map

/-- A GCM of the standard sizes can always have ordered nonces, so its key is not left behind. -/
theorem Ordered.create_entrusts (cipher : AesCipher) :
    (create backend cipher).Entrusts front (·.gcm.custody) := by
  intro allowed initial custody others strangers state admits serving
  rintro _ rfl
  unfold create at admits ⊢
  rw [Action.bind_apply] at admits ⊢
  cases ran : Gcm.create backend cipher standardNonceSize standardTagSize _ with
  | mk result next =>
      rw [ran] at admits
      cases result with
      | error error =>
          exact (Gcm.create_entrusts cipher _ _ _ (ran ▸ admits) serving).error_of_eq rfl ran
      | ok gcm =>
          obtain ⟨nonces, tags, -⟩ := sizes_of_create ran
          have accepted : ofGcm gcm = .ok { gcm, minNext := 0 } := by
            simp only [ofGcm, nonces, tags, ne_eq, not_true_eq_false, if_false]
          simp only [Caching.tryBackend, Action.ofExcept, accepted] at admits ⊢
          exact (Gcm.create_entrusts cipher _ _ _ (ran ▸ admits) serving).ok_of_eq rfl ran

end Gcm

end CipherModes
