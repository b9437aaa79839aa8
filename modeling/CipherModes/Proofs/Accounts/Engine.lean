import CipherModes.Proofs.Accounts.Quiet
import CipherModes.Proofs.Cache.Scripts
import CipherModes.Proofs.Gcm.Creation
import CipherModes.Workspace.Item

/-!
# Accounts of caches and engines

While a cache is asked, the open providers are those that initialisers use, those
of the cached values and those that others hold. An engine imports its keys into
cached providers; if anything fails on the way, no key is left behind.
-/

set_option autoImplicit false

namespace CipherModes

open Backend (Accounting)

variable {α σ : Type} {backend : Backend σ} {accounting : backend.Accounting} {owned : α → Provider}
  {frame : Prop} {others used : List Provider} {keys : List ImportedKey}

def ProviderCache.providers (owned : α → Provider) (cache : ProviderCache α) : List Provider :=
  cache.values.map owned

theorem ProviderCache.mem_providers_of_find? {cache : ProviderCache α} {key : CacheKey} {value : α}
    (found : cache.find? key = some value) : owned value ∈ cache.providers owned :=
  List.mem_map_of_mem (List.mem_map_of_mem (mem_of_find? found))

namespace Backend.Accounting

/-- Who holds what while a cache is asked. Each provider is used by one initialiser or cached once;
those that are being used are held by nobody else. -/
def HoldsCache (accounting : backend.Accounting) (owned : α → Provider) (frame : Prop)
    (others : List Provider) (keys : List ImportedKey) (used : List Provider)
    (state : Caching α σ) : Prop :=
  accounting.Holds
    (frame ∧ (used ++ state.cache.providers owned).Nodup ∧ ∀ provider ∈ used, provider ∉ others)
    (used ++ state.cache.providers owned ++ others) keys state.backend

/-- The accounts are kept while a cache is asked, if others hold the providers of all keys. -/
def keeping (accounting : backend.Accounting) (owned : α → Provider) (frame : Prop)
    (covered : ∀ key ∈ keys, key.provider ∈ others) : ProviderCache.Keeping backend owned where
  Keeps := accounting.HoldsCache owned frame others keys
  refused holds failed := (Holds.acquire _ _).error_of_eq holds failed
  opened holds acquired := by
    apply ((Holds.acquire _ _).ok_of_eq holds acquired).mono
    rintro ⟨⟨framed, nodup, apart⟩, fresh⟩
    rw [List.mem_append, not_or] at fresh
    exact ⟨⟨framed, List.nodup_cons.mpr ⟨fresh.1, nodup⟩,
      List.forall_mem_cons.mpr ⟨fresh.2, apart⟩⟩, fun _ => Iff.rfl, .refl _⟩
  released {used state provider} holds := by
    have counted : accounting.Holds _
        (provider :: (used ++ state.cache.providers owned ++ others)) keys state.backend := holds
    apply (counted.release ?_).mono
    · rintro ⟨framed, nodup, apart⟩
      exact ⟨⟨framed, (List.nodup_cons.mp nodup).2, (List.forall_mem_cons.mp apart).2⟩,
        fun _ => Iff.rfl, .refl _⟩
    · rintro ⟨-, nodup, apart⟩
      have unused := (List.nodup_cons.mp nodup).1
      have elsewhere := (List.forall_mem_cons.mp apart).1
      exact ⟨fun member => (List.mem_append.mp member).elim unused elsewhere,
        fun key member => List.mem_append_right _ (covered key member)⟩
  inserted {used state key value} holds := by
    have grown : (state.cache.insert key value).providers owned =
        state.cache.providers owned ++ [owned value] := by
      simp [ProviderCache.providers, ProviderCache.values, ProviderCache.insert]
    have moved : (owned value :: used ++ state.cache.providers owned).Perm
        (used ++ (state.cache.insert key value).providers owned) := by
      rw [grown, ← List.append_assoc]
      exact (List.perm_append_singleton _ _).symm
    apply holds.mono
    rintro ⟨framed, nodup, apart⟩
    refine ⟨⟨framed, moved.nodup_iff.mp nodup, (List.forall_mem_cons.mp apart).2⟩, ?_, .refl _⟩
    intro provider
    rw [List.mem_append, List.mem_append (t := others), moved.mem_iff]

namespace HoldsCache

/-- A quiet operation on the backend does nothing to a cache. -/
theorem tryBackend {β : Type} {action : Action σ β} (quiet : accounting.Quiet action) :
    (Caching.tryBackend (α := α) action).Establishes
      (accounting.HoldsCache owned frame others keys used)
      (fun _ => accounting.HoldsCache owned frame others keys used)
      (accounting.HoldsCache owned frame others keys used) :=
  .tryBackend fun _ state holds => quiet.establishes state holds

theorem acquire (covered : ∀ key ∈ keys, key.provider ∈ others) {key : CacheKey}
    {initialiser : Initialiser α σ}
    (initialises : ∀ serial provider, (initialiser serial provider).Establishes
      (accounting.HoldsCache owned frame others keys (provider :: used))
      (fun value next => owned value = provider ∧
        accounting.HoldsCache owned frame others keys (provider :: used) next)
      (accounting.HoldsCache owned frame others keys (provider :: used))) :
    (ProviderCache.acquire backend owned key initialiser).Establishes
      (accounting.HoldsCache owned frame others keys used)
      (fun value next => owned value ∈ next.cache.providers owned ∧
        accounting.HoldsCache owned frame others keys used next)
      (accounting.HoldsCache owned frame others keys used) :=
  ((accounting.keeping owned frame covered).acquire initialises).mono (fun _ => id)
    (fun _ _ => And.imp_left ProviderCache.mem_providers_of_find?) fun _ => id

end HoldsCache

end Backend.Accounting

open Backend.Accounting (HoldsCache)

/-! ## Scripts -/

theorem Script.acquireValue_holds (covered : ∀ key ∈ keys, key.provider ∈ others)
    (key : CacheKey) (script : Script) :
    (acquireValue backend key script).Establishes
      (accounting.HoldsCache ScriptedValue.provider frame others keys used)
      (fun value next => value.provider ∈ next.cache.providers ScriptedValue.provider ∧
        accounting.HoldsCache ScriptedValue.provider frame others keys used next)
      (accounting.HoldsCache ScriptedValue.provider frame others keys used) := by
  let keeping := accounting.keeping ScriptedValue.provider frame covered
  have allows : keeping.Allows :=
    { setText := fun _ provider _ _ => HoldsCache.tryBackend (provider.setText_quiet _ _)
      getWord := fun _ provider _ => HoldsCache.tryBackend (provider.getWord_quiet _)
      getKeyLengths := fun _ provider => HoldsCache.tryBackend provider.getKeyLengths_quiet }
  exact (acquireValue_keeps allows key script).mono (fun _ => id)
    (fun _ _ => And.imp_left ProviderCache.mem_providers_of_find?) fun _ => id

/-! ## Engines -/

/-- Who holds what while nobody is asking the cache of an engine. -/
abbrev Backend.Accounting.HoldsEngine (accounting : backend.Accounting) (frame : Prop)
    (others : List Provider) (keys : List ImportedKey) (state : Driven σ) : Prop :=
  accounting.HoldsCache AesAlgorithm.provider frame others keys [] state

/-- If it succeeds, an action imports one key, into a provider that the engine has cached; else it
imports none. -/
def Action.Imports (accounting : backend.Accounting) (key : α → ImportedKey)
    (action : Action (Driven σ) α) : Prop :=
  ∀ frame others keys, (∀ held ∈ keys, held.provider ∈ others) →
    action.Establishes (accounting.HoldsEngine frame others keys)
      (fun value next => (key value).provider ∈ next.cache.providers AesAlgorithm.provider ∧
        accounting.HoldsEngine frame others (key value :: keys) next)
      (accounting.HoldsEngine frame others keys)

namespace AesAlgorithm

theorem provider_of_initialise {mode : ChainingMode} {provider : Provider}
    {state next : σ} {algorithm : AesAlgorithm}
    (success : initialise backend mode provider state = (.ok algorithm, next)) :
    algorithm.provider = provider := by
  obtain ⟨_, first, -, success⟩ := Action.bind_eq_ok success
  obtain ⟨lengths, second, -, success⟩ := Action.bind_eq_ok success
  obtain ⟨allowed, third, -, success⟩ := Action.bind_eq_ok success
  obtain ⟨blockSize, fourth, -, success⟩ := Action.bind_eq_ok success
  split at success
  · cases success
  · cases success
    rfl

theorem importKey_holds {facts : Prop} {providers : List Provider} (algorithm : AesAlgorithm)
    (secret : Bytes) :
    (algorithm.importKey backend secret).Establishes (accounting.Holds facts providers keys)
      (fun key next => key.provider = algorithm.provider ∧
        accounting.Holds facts providers (key :: keys) next)
      (accounting.Holds facts providers keys) := by
  simp only [importKey]
  split
  · exact Backend.Accounting.Holds.acquireKey _ _
  · exact .throw fun _ holds => holds

end AesAlgorithm

namespace Driven

theorem algorithm_holds (covered : ∀ key ∈ keys, key.provider ∈ others) (mode : ChainingMode) :
    (algorithm backend mode).Establishes (accounting.HoldsEngine frame others keys)
      (fun value next => value.provider ∈ next.cache.providers AesAlgorithm.provider ∧
        accounting.HoldsEngine frame others keys next)
      (accounting.HoldsEngine frame others keys) := by
  refine HoldsCache.acquire covered fun _ provider => .tryBackend fun cache => .of_outcome ?_
  intro state holds
  refine ⟨AesAlgorithm.initialise_quiet mode provider _ _ _ state holds, ?_⟩
  exact fun value made => AesAlgorithm.provider_of_initialise (Prod.ext made rfl)

theorem importKey_imports (mode : ChainingMode) (secret : Bytes) :
    (importKey backend mode secret).Imports accounting Prod.fst := by
  intro frame others keys covered
  apply Action.Establishes.bind _ (algorithm_holds covered mode)
  rintro algorithm state ⟨cached, holds⟩
  have imported := algorithm.importKey_holds secret state.backend holds
  rw [Action.bind_apply]
  cases ran : algorithm.importKey backend secret state.backend with
  | mk result next =>
      rw [ran] at imported
      simp only [Caching.tryBackend, ran]
      cases result with
      | error error => exact imported
      | ok key => exact ⟨imported.1 ▸ cached, imported.2⟩

end Driven

theorem AesCipher.create_imports (engine : EngineId) (secret : Bytes) :
    (create backend engine secret).Imports accounting AesCipher.key := by
  intro frame others keys covered
  apply Action.Establishes.bind _ (Driven.importKey_imports .ecb secret _ _ _ covered)
  exact fun _ => .pure fun _ holds => holds

namespace Gcm

/-- A key is destroyed again if its cipher is not one for GCM. -/
theorem createBlockwise_imports (engine : EngineId) (secret : Bytes) (nonceSize tagSize : Nat) :
    (createBlockwise backend engine secret nonceSize tagSize).Imports accounting (·.1.key) := by
  intro frame others keys covered state holds
  have created := AesCipher.create_imports engine secret _ _ _ covered state holds
  unfold createBlockwise
  cases ran : AesCipher.create backend engine secret state with
  | mk result middle =>
      rw [ran] at created
      cases result with
      | error error => exact created
      | ok cipher =>
          obtain ⟨cached, held⟩ := created
          have quiet : (cipher.blockCipher backend).Quiet accounting := cipher.blockCipher_quiet
          have derived := Blockwise.derive_quiet quiet nonceSize tagSize _ _ _ middle.backend held
          simp only [Caching.onBackend]
          cases done : Blockwise.derive (cipher.blockCipher backend) nonceSize tagSize
              middle.backend with
          | mk outcome last =>
              rw [done] at derived
              cases outcome with
              | error error => exact derived.releaseKey
              | ok mode => exact ⟨cached, derived⟩

theorem create_imports (cipher : AesCipher) (nonceSize tagSize : Nat) :
    (create backend cipher nonceSize tagSize).Imports accounting Gcm.ownedKey := by
  intro frame others keys covered
  unfold create
  split
  · apply Action.Establishes.bind _ (Driven.importKey_imports .gcm cipher.secret _ _ _ covered)
    exact fun _ => .pure fun _ holds => holds
  · split
    · exact .throw fun _ holds => holds
    · apply Action.Establishes.bind _
        (createBlockwise_imports cipher.engine cipher.secret nonceSize tagSize _ _ _ covered)
      exact fun _ => .pure fun _ holds => holds

/-- A GCM of the standard sizes can always have ordered nonces, so its key is not left behind. -/
theorem Ordered.create_imports (cipher : AesCipher) :
    (create backend cipher).Imports accounting (·.gcm.ownedKey) := by
  intro frame others keys covered state holds
  have created := Gcm.create_imports cipher standardNonceSize standardTagSize _ _ _ covered state
    holds
  unfold create
  rw [Action.bind_apply]
  cases ran : Gcm.create backend cipher standardNonceSize standardTagSize state with
  | mk result next =>
      rw [ran] at created
      cases result with
      | error error => exact created
      | ok gcm =>
          obtain ⟨nonces, tags, -⟩ := sizes_of_create ran
          have accepted : ofGcm gcm = .ok { gcm, minNext := 0 } := by
            simp only [ofGcm, nonces, tags, ne_eq, not_true_eq_false, if_false]
          simp only [Caching.tryBackend, Action.ofExcept, accepted]
          exact created

end Gcm

end CipherModes
