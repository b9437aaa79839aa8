import CipherModes.Proofs.Cache.Course
import CipherModes.Script

/-!
# What scripts keep

A script sets and reads properties of its own provider and asks for further
values, by further scripts. So it keeps what is kept by each of these, however
deeply it nests.
-/

set_option autoImplicit false

namespace CipherModes

variable {α σ : Type} {backend : Backend σ}

namespace ProviderCache.Keeping

variable {owned : α → Provider} (keeping : Keeping backend owned) {used : List Provider}

theorem acquire {key : CacheKey} {initialiser : Initialiser α σ}
    (initialises : ∀ serial provider, (initialiser serial provider).Establishes
      (keeping.Keeps (provider :: used))
      (fun value next => owned value = provider ∧ keeping.Keeps (provider :: used) next)
      (keeping.Keeps (provider :: used))) :
    (ProviderCache.acquire backend owned key initialiser).Establishes (keeping.Keeps used)
      (fun value next => next.cache.find? key = some value ∧ keeping.Keeps used next)
      (keeping.Keeps used) := by
  intro state keeps
  have ending := acquire_ending backend owned key initialiser state
  have kept := ending.keeps keeping initialises keeps
  cases ran : ProviderCache.acquire backend owned key initialiser state with
  | mk result next =>
      rw [ran] at ending kept
      cases result with
      | error error => exact kept
      | ok value => exact ⟨ending.find?_of_ok, kept⟩

end ProviderCache.Keeping

/-- Something is kept when a provider in use has its properties set and read. -/
structure ProviderCache.Keeping.Allows {owned : α → Provider} (keeping : Keeping backend owned) :
    Prop where
  setText : ∀ (used : List Provider) (provider : Provider) (name text : String),
    (Caching.tryBackend (provider.setText backend name text)).Maintains
      (keeping.Keeps (provider :: used))
  getWord : ∀ (used : List Provider) (provider : Provider) (name : String),
    (Caching.tryBackend (provider.getWord backend name)).Maintains
      (keeping.Keeps (provider :: used))
  getKeyLengths : ∀ (used : List Provider) (provider : Provider),
    (Caching.tryBackend (provider.getKeyLengths backend)).Maintains
      (keeping.Keeps (provider :: used))

namespace Script

variable {keeping : ProviderCache.Keeping backend ScriptedValue.provider} {used : List Provider}

theorem run_keeps (allows : keeping.Allows) (serial : Nat) (provider : Provider) (script : Script)
    (log : List LogEntry) :
    (script.run backend serial provider log).Establishes (keeping.Keeps (provider :: used))
      (fun value next => value.provider = provider ∧ keeping.Keeps (provider :: used) next)
      (keeping.Keeps (provider :: used)) := by
  induction script generalizing serial provider log used with
  | finish => exact .pure fun _ keeps => ⟨rfl, keeps⟩
  | setText name text next ih => exact .bind _ (allows.setText _ _ _ _) fun _ => ih _ _ _
  | getWord name next ih => exact .bind _ (allows.getWord _ _ _) fun _ => ih _ _ _
  | getKeyLengths next ih => exact .bind _ (allows.getKeyLengths _ _) fun _ => ih _ _ _
  | checkKeyLengths next ih =>
      apply Action.Establishes.bind _ (allows.getKeyLengths _ _)
      intro lengths state keeps
      rw [Action.bind_apply]
      cases AllowedKeyLengths.check lengths with
      | error error => exact keeps
      | ok allowed => exact ih _ _ _ state keeps
  | cacheSize next ih => exact fun state keeps => ih _ _ _ state keeps
  | acquire key inner next innerIH nextIH =>
      apply Action.Establishes.bind _ (keeping.acquire fun _ _ => innerIH _ _ _)
      intro value state asked
      exact nextIH _ _ _ state asked.2
  | fail => exact .throw fun _ keeps => keeps

theorem acquireValue_keeps (allows : keeping.Allows) (key : CacheKey) (script : Script) :
    (acquireValue backend key script).Establishes (keeping.Keeps used)
      (fun value next => next.cache.find? key = some value ∧ keeping.Keeps used next)
      (keeping.Keeps used) :=
  keeping.acquire fun _ _ => script.run_keeps allows _ _ _

end Script

end CipherModes
