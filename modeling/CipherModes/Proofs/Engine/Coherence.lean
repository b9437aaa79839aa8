import CipherModes.Proofs.Engine.Initialisation
import CipherModes.Proofs.Token.Keys

/-!
# Coherence of an engine and its token

A cached provider is open and in the mode that it is cached for, whatever the
engine was asked for before and whatever others did with the token, as long as
they left the engine's providers alone. So a key imported through an engine is
made for the mode that it was asked for.
-/

set_option autoImplicit false

namespace CipherModes

theorem ProviderCache.mem_of_find? {α : Type} {cache : ProviderCache α} {key : CacheKey}
    {value : α} (found : cache.find? key = some value) : (key, value) ∈ cache.entries := by
  obtain ⟨entry, present, rfl⟩ := Option.map_eq_some_iff.mp found
  have same : entry.1 = key := by simpa using List.find?_some present
  rw [← same]
  exact List.mem_of_find?_eq_some present

namespace Driven

variable {state next : Driven Token} {mode : ChainingMode}

/-- What the provider of a mode is cached under. -/
def cacheKey (mode : ChainingMode) : CacheKey := ⟨aesAlgorithm, .none, mode.text⟩

theorem cacheKey_injective {other : ChainingMode} (same : cacheKey mode = cacheKey other) :
    mode = other := by
  have text : mode.text = other.text := congrArg CacheKey.mode same
  have read := congrArg ChainingMode.ofText? text
  rw [ChainingMode.ofText?_text, ChainingMode.ofText?_text] at read
  exact Option.some.inj read

/-! ## Asking for a provider -/

section

variable {σ : Type} {backend : Backend σ} {start : Driven σ} {opened initialised : σ}
  {provider : Provider} {error : CipherError} {cached : AesAlgorithm}

theorem algorithm_of_found (found : start.cache.find? (cacheKey mode) = some cached) :
    algorithm backend mode start = (.ok cached, start) := by
  rw [cacheKey] at found
  simp only [algorithm, ProviderCache.acquire, found]

theorem algorithm_of_acquire_error (missing : start.cache.find? (cacheKey mode) = none)
    (failed : Provider.acquire backend aesAlgorithm .none start.backend =
      (.error error, opened)) :
    algorithm backend mode start = (.error error, { start with backend := opened }) := by
  rw [cacheKey] at missing
  simp only [algorithm, ProviderCache.acquire, missing, Caching.tryBackend, failed]

theorem algorithm_of_initialise_error (missing : start.cache.find? (cacheKey mode) = none)
    (acquired : Provider.acquire backend aesAlgorithm .none start.backend =
      (.ok provider, opened))
    (failed : AesAlgorithm.initialise backend mode provider opened =
      (.error error, initialised)) :
    algorithm backend mode start =
      (.error error,
        { cache := { start.cache with started := start.cache.started + 1 }
          backend := (provider.release backend initialised).2 }) := by
  rw [cacheKey] at missing
  simp only [algorithm, ProviderCache.acquire, missing, Caching.tryBackend, acquired,
    ProviderCache.initialise, failed]
  rfl

theorem algorithm_of_ok (missing : start.cache.find? (cacheKey mode) = none)
    (acquired : Provider.acquire backend aesAlgorithm .none start.backend =
      (.ok provider, opened))
    (success : AesAlgorithm.initialise backend mode provider opened =
      (.ok cached, initialised)) :
    algorithm backend mode start =
      (.ok cached,
        { cache := { start.cache with started := start.cache.started + 1 }.insert (cacheKey mode)
            cached
          backend := initialised }) := by
  have still : ProviderCache.find? { start.cache with started := start.cache.started + 1 }
      (cacheKey mode) = none := missing
  rw [cacheKey] at missing still
  simp only [algorithm, ProviderCache.acquire, missing, Caching.tryBackend, acquired,
    ProviderCache.initialise, success, ProviderCache.settle, still]
  rfl

end

/-- How asking an engine for the provider of a mode can end. -/
inductive Asked (mode : ChainingMode) (state : Driven Token) :
    Except CipherError AesAlgorithm × Driven Token → Prop where
  | cached {algorithm : AesAlgorithm} :
      state.cache.find? (cacheKey mode) = some algorithm → Asked mode state (.ok algorithm, state)
  | failed {error : CipherError} {next : Driven Token} :
      next.cache.entries = state.cache.entries →
      Token.Spares (fun _ => True) state.backend next.backend →
        Asked mode state (.error error, next)
  | opened {algorithm : AesAlgorithm} {next : Driven Token} :
      next.cache.entries = state.cache.entries ++ [(cacheKey mode, algorithm)] →
      Token.Spares (fun _ => True) state.backend next.backend →
      next.backend.providers.get? algorithm.provider.raw = some mode →
        Asked mode state (.ok algorithm, next)

theorem asked_algorithm (state : Driven Token) (mode : ChainingMode) :
    Asked mode state (algorithm Token.backend mode state) := by
  cases found : state.cache.find? (cacheKey mode) with
  | some cached =>
      rw [algorithm_of_found found]
      exact .cached found
  | none =>
      have first := Provider.acquire_spares aesAlgorithm .none state.backend
      cases acquired : Provider.acquire Token.backend aesAlgorithm .none state.backend with
      | mk result opened =>
          rw [acquired] at first
          cases result with
          | error error =>
              rw [algorithm_of_acquire_error found acquired]
              exact .failed rfl first
          | ok provider =>
              obtain ⟨fresh, grown⟩ := Provider.acquire_eq_ok acquired
              have second := AesAlgorithm.initialise_spares provider mode opened
              cases ran : AesAlgorithm.initialise Token.backend mode provider opened with
              | mk outcome initialised =>
                  rw [ran] at second
                  cases outcome with
                  | error error =>
                      rw [algorithm_of_initialise_error found acquired ran]
                      have third := provider.release_spares initialised
                      exact .failed rfl (first.through_new (second.trans third) fresh grown)
                  | ok algorithm =>
                      obtain ⟨same, set⟩ := AesAlgorithm.initialise_eq_ok ran
                      rw [algorithm_of_ok found acquired ran]
                      exact .opened rfl (first.through_new second fresh grown) (same ▸ set)

/-! ## Reachable states -/

/-- What an engine and its token can come to: the engine starts on a token in any use and asks
for providers, and meanwhile anyone calls the token, but leaves the engine's providers alone. -/
inductive Reached : Driven Token → Prop where
  | fresh (settings : Settings) (calls : List Call) :
      Reached (.fresh ((Token.fresh settings).afterCalls calls))
  | asked {state : Driven Token} (mode : ChainingMode) :
      Reached state → Reached (algorithm Token.backend mode state).2
  | called {state : Driven Token} (call : Call) :
      Reached state →
      (∀ entry ∈ state.cache.entries, call.LeavesAlone entry.2.provider.raw) →
        Reached { state with backend := (state.backend.answer call).2 }

/-- The token has accounts of its handles, and the cached providers are in their modes. -/
structure Coherent (state : Driven Token) : Prop where
  accounted : state.backend.Accounted
  modes : ∀ entry ∈ state.cache.entries, ∃ mode, entry.1 = cacheKey mode ∧
    state.backend.providers.get? entry.2.provider.raw = some mode

namespace Coherent

/-- Cached providers that are spared stay in their modes. -/
theorem modes_kept (coherent : state.Coherent) {spared : Handle → Prop} {token : Token}
    (spares : Token.Spares spared state.backend token)
    (cached : ∀ entry ∈ state.cache.entries, spared entry.2.provider.raw)
    (remain : token.handlesIssued < Handle.limit) :
    ∀ entry ∈ state.cache.entries, ∃ mode, entry.1 = cacheKey mode ∧
      token.providers.get? entry.2.provider.raw = some mode := by
  intro entry member
  obtain ⟨mode, key, present⟩ := coherent.modes entry member
  exact ⟨mode, key,
    spares.kept coherent.accounted remain _ mode (cached entry member) present⟩

theorem asked (coherent : state.Coherent) (mode : ChainingMode)
    (remain : (algorithm Token.backend mode state).2.backend.handlesIssued < Handle.limit) :
    (algorithm Token.backend mode state).2.Coherent := by
  have asked := asked_algorithm state mode
  generalize algorithm Token.backend mode state = outcome at asked remain ⊢
  cases asked with
  | cached => exact coherent
  | failed same spares =>
      have kept := coherent.modes_kept spares (fun _ _ => trivial) remain
      exact ⟨spares.accounted coherent.accounted remain, same ▸ kept⟩
  | opened added spares set =>
      have kept := coherent.modes_kept spares (fun _ _ => trivial) remain
      refine ⟨spares.accounted coherent.accounted remain, ?_⟩
      rw [added, List.forall_mem_append, List.forall_mem_singleton]
      exact ⟨kept, mode, rfl, set⟩

theorem called (coherent : state.Coherent) (call : Call)
    (alone : ∀ entry ∈ state.cache.entries, call.LeavesAlone entry.2.provider.raw)
    (remain : (state.backend.answer call).2.handlesIssued < Handle.limit) :
    Coherent { state with backend := (state.backend.answer call).2 } := by
  have spares : Token.Spares call.LeavesAlone state.backend (state.backend.answer call).2 :=
    .of_answer fun _ chosen => chosen
  exact ⟨spares.accounted coherent.accounted remain, coherent.modes_kept spares alone remain⟩

end Coherent

theorem handlesIssued_le_asked (state : Driven Token) (mode : ChainingMode) :
    state.backend.handlesIssued ≤
      (algorithm Token.backend mode state).2.backend.handlesIssued := by
  have asked := asked_algorithm state mode
  generalize algorithm Token.backend mode state = outcome at asked ⊢
  cases asked with
  | cached => exact Nat.le_refl _
  | failed same spares => exact spares.issued_le
  | opened added spares set => exact spares.issued_le

theorem Reached.coherent (reached : Reached state)
    (remain : state.backend.handlesIssued < Handle.limit) : state.Coherent := by
  induction reached with
  | fresh settings calls =>
      exact ⟨(Token.accounted_fresh settings).afterCalls calls remain,
        fun _ member => nomatch member⟩
  | @asked state mode _ ih =>
      exact (ih (Nat.lt_of_le_of_lt (handlesIssued_le_asked state mode) remain)).asked mode remain
  | @called state call _ alone ih =>
      have effect := state.backend.answer_effect call
      exact (ih (Nat.lt_of_le_of_lt effect.handlesIssued_le remain)).called call alone remain

/-- The provider that an engine gives for a mode is in that mode. -/
theorem Coherent.mode_of_asked (coherent : state.Coherent) {algorithm : AesAlgorithm}
    (success : Driven.algorithm Token.backend mode state = (.ok algorithm, next)) :
    next.backend.providers.get? algorithm.provider.raw = some mode := by
  have asked := asked_algorithm state mode
  rw [success] at asked
  cases asked with
  | cached found =>
      obtain ⟨other, key, present⟩ := coherent.modes _ (ProviderCache.mem_of_find? found)
      rw [cacheKey_injective key]
      exact present
  | opened added spares set => exact set

/-! ## Imported keys -/

/-- A key imported into a provider is made in the mode of the provider. -/
theorem material?_of_acquire {provider : Provider} {secret : Bytes} {token last : Token}
    {key : ImportedKey} (present : token.providers.get? provider.raw = some mode)
    (success : ImportedKey.acquire Token.backend provider secret token = (.ok key, last)) :
    ∃ material, KeyMaterial.ofSecret mode secret = .ok material ∧
      last.material? key.raw = some material := by
  simp only [ImportedKey.acquire, Token.backend, Token.answer, Token.importKey, present] at success
  by_cases fits : Token.lengthFits secret
  · simp only [if_pos fits] at success
    cases made : KeyMaterial.ofSecret mode secret with
    | error status =>
        simp only [made] at success
        cases success
    | ok material =>
        simp only [made] at success
        cases success
        refine ⟨material, rfl, ?_⟩
        rw [Token.material?, HandleTable.get?_insert_self]
        rfl
  · simp only [if_neg fits] at success
    cases success

/-- A key imported through an engine is made in the mode asked for. -/
theorem Coherent.material?_of_importKey (coherent : state.Coherent) {secret : Bytes}
    {key : ImportedKey} {length : Nat}
    (success : importKey Token.backend mode secret state = (.ok (key, length), next)) :
    ∃ material, KeyMaterial.ofSecret mode secret = .ok material ∧
      next.backend.material? key.raw = some material := by
  obtain ⟨algorithm, middle, asked, success⟩ := Action.bind_eq_ok success
  obtain ⟨imported, last, made, finished⟩ := Action.bind_eq_ok success
  have present := coherent.mode_of_asked asked
  cases finished
  by_cases allowed : algorithm.allowed.allows (keyBits secret.length)
  · cases imports : ImportedKey.acquire Token.backend algorithm.provider secret
        middle.backend with
    | mk result token =>
        simp only [Caching.tryBackend, AesAlgorithm.importKey, if_pos allowed, imports] at made
        cases made
        exact material?_of_acquire present imports
  · simp only [Caching.tryBackend, AesAlgorithm.importKey, if_neg allowed] at made
    cases made

end Driven

end CipherModes
