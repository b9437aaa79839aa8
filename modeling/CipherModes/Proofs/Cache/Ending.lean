import CipherModes.Proofs.Establishing
import CipherModes.ProviderCache

/-!
# How asking a cache ends

A value is found, or it is made of a new provider. Making it can fail before and
after the provider has been opened, and the new value can come too late.
-/

set_option autoImplicit false

namespace CipherModes

theorem Caching.of_tryBackend {α β σ : Type} {action : Action σ β} {state next : Caching α σ}
    {result : Except CipherError β} (ran : tryBackend action state = (result, next)) :
    action state.backend = (result, next.backend) ∧ next.cache = state.cache := by
  cases acted : action state.backend with
  | mk outcome backend =>
      simp only [tryBackend, acted] at ran
      cases ran
      exact ⟨rfl, rfl⟩

/-- What an action establishes of the backend, it establishes beside every cache. -/
theorem Action.Establishes.tryBackend {α β σ : Type} {action : Action σ β}
    {before failure : Caching α σ → Prop} {success : β → Caching α σ → Prop}
    (beside : ∀ cache, action.Establishes (fun backend => before ⟨cache, backend⟩)
      (fun value backend => success value ⟨cache, backend⟩)
      (fun backend => failure ⟨cache, backend⟩)) :
    (Caching.tryBackend action).Establishes before success failure := by
  intro state holds
  have ended := beside state.cache state.backend holds
  cases ran : action state.backend with
  | mk result next =>
      rw [ran] at ended
      simp only [Caching.tryBackend, ran]
      cases result <;> exact ended

namespace ProviderCache

variable {α σ : Type}

/-- A cache in which one more initialiser has been started. -/
def start (cache : ProviderCache α) : ProviderCache α := { cache with started := cache.started + 1 }

/-- How asking a cache for the value of a key can end, and what has happened on the way. -/
inductive Ending (backend : Backend σ) (owned : α → Provider) (key : CacheKey)
    (initialiser : Initialiser α σ) (state : Caching α σ) :
    Except CipherError α × Caching α σ → Prop where
  | hit {value : α} (found : state.cache.find? key = some value) :
      Ending backend owned key initialiser state (.ok value, state)
  | unopened {error : CipherError} {opened : σ} (missing : state.cache.find? key = none)
      (refused : Provider.acquire backend key.algorithm key.flags state.backend =
        (.error error, opened)) :
      Ending backend owned key initialiser state (.error error, { state with backend := opened })
  | failed {error : CipherError} {provider : Provider} {opened : σ} {last : Caching α σ}
      (missing : state.cache.find? key = none)
      (acquired : Provider.acquire backend key.algorithm key.flags state.backend =
        (.ok provider, opened))
      (ran : initialiser (state.cache.started + 1) provider ⟨state.cache.start, opened⟩ =
        (.error error, last)) :
      Ending backend owned key initialiser state
        (.error error, { last with backend := (provider.release backend last.backend).2 })
  | won {provider : Provider} {candidate : α} {opened : σ} {last : Caching α σ}
      (missing : state.cache.find? key = none)
      (acquired : Provider.acquire backend key.algorithm key.flags state.backend =
        (.ok provider, opened))
      (ran : initialiser (state.cache.started + 1) provider ⟨state.cache.start, opened⟩ =
        (.ok candidate, last))
      (first : last.cache.find? key = none) :
      Ending backend owned key initialiser state
        (.ok candidate, { last with cache := last.cache.insert key candidate })
  | lost {provider : Provider} {candidate winner : α} {opened : σ} {last : Caching α σ}
      (missing : state.cache.find? key = none)
      (acquired : Provider.acquire backend key.algorithm key.flags state.backend =
        (.ok provider, opened))
      (ran : initialiser (state.cache.started + 1) provider ⟨state.cache.start, opened⟩ =
        (.ok candidate, last))
      (late : last.cache.find? key = some winner) :
      Ending backend owned key initialiser state
        (.ok winner,
          { last with backend := ((owned candidate).release backend last.backend).2 })

theorem acquire_ending (backend : Backend σ) (owned : α → Provider) (key : CacheKey)
    (initialiser : Initialiser α σ) (state : Caching α σ) :
    Ending backend owned key initialiser state
      (acquire backend owned key initialiser state) := by
  cases found : state.cache.find? key with
  | some value =>
      simp only [acquire, found]
      exact .hit found
  | none =>
      cases acquired : Provider.acquire backend key.algorithm key.flags state.backend with
      | mk result opened =>
          cases result with
          | error error =>
              simp only [acquire, found, Caching.tryBackend, acquired]
              exact .unopened found acquired
          | ok provider =>
              cases ran : initialiser (state.cache.started + 1) provider
                  ⟨state.cache.start, opened⟩ with
              | mk outcome last =>
                  rw [start] at ran
                  cases outcome with
                  | error error =>
                      simp only [acquire, found, Caching.tryBackend, acquired, initialise, ran]
                      exact .failed found acquired ran
                  | ok candidate =>
                      simp only [acquire, found, Caching.tryBackend, acquired, initialise, ran,
                        settle]
                      cases winner : last.cache.find? key with
                      | none => exact .won found acquired ran winner
                      | some winner => exact .lost found acquired ran winner

/-! ## What is kept while asking -/

/-- Something that is kept of a cache and its backend while initialisers use providers: each of
these is put into the cache or closed. -/
structure Keeping (backend : Backend σ) (owned : α → Provider) where
  Keeps : (used : List Provider) → Caching α σ → Prop
  refused : ∀ {used : List Provider} {state : Caching α σ} {algorithm : String}
    {flags : ProviderFlags} {error : CipherError} {next : σ}, Keeps used state →
      Provider.acquire backend algorithm flags state.backend = (.error error, next) →
        Keeps used { state with backend := next }
  opened : ∀ {used : List Provider} {state : Caching α σ} {algorithm : String}
    {flags : ProviderFlags} {provider : Provider} {next : σ}, Keeps used state →
      Provider.acquire backend algorithm flags state.backend = (.ok provider, next) →
        Keeps (provider :: used) ⟨state.cache.start, next⟩
  released : ∀ {used : List Provider} {state : Caching α σ} {provider : Provider},
    Keeps (provider :: used) state →
      Keeps used { state with backend := (provider.release backend state.backend).2 }
  inserted : ∀ {used : List Provider} {state : Caching α σ} {key : CacheKey} {value : α},
    Keeps (owned value :: used) state →
      Keeps used { state with cache := state.cache.insert key value }

/-- Where initialisers make their values of their own providers and keep what is kept, so does
asking. -/
theorem Ending.keeps {backend : Backend σ} {owned : α → Provider} {key : CacheKey}
    {initialiser : Initialiser α σ} {state : Caching α σ} {used : List Provider}
    {outcome : Except CipherError α × Caching α σ}
    (ending : Ending backend owned key initialiser state outcome)
    (keeping : Keeping backend owned)
    (initialises : ∀ serial provider, (initialiser serial provider).Establishes
      (keeping.Keeps (provider :: used))
      (fun value next => owned value = provider ∧ keeping.Keeps (provider :: used) next)
      (keeping.Keeps (provider :: used)))
    (keeps : keeping.Keeps used state) : keeping.Keeps used outcome.2 := by
  cases ending with
  | hit => exact keeps
  | unopened missing refused => exact keeping.refused keeps refused
  | failed missing acquired ran =>
      have opened := keeping.opened keeps acquired
      exact keeping.released ((initialises _ _).error_of_eq opened ran)
  | won missing acquired ran first =>
      have opened := keeping.opened keeps acquired
      obtain ⟨rfl, kept⟩ := (initialises _ _).ok_of_eq opened ran
      exact keeping.inserted kept
  | lost missing acquired ran late =>
      have opened := keeping.opened keeps acquired
      obtain ⟨rfl, kept⟩ := (initialises _ _).ok_of_eq opened ran
      exact keeping.released kept

end ProviderCache

end CipherModes
