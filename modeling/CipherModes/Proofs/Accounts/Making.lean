import CipherModes.Proofs.Accounts.Release
import CipherModes.Proofs.Responding

/-!
# Accounts while objects are made

An object is made on the backend, by an engine or from the cache. If that fails
nothing is left behind; if it succeeds the new object holds what was opened for
it, until it gets its name.
-/

set_option autoImplicit false

namespace CipherModes

open Backend (Accounting)

variable {σ α : Type} {backend : Backend σ} {accounting : backend.Accounting}

namespace Workspace

variable {loose : List Item} {workspace : Workspace σ}

/-! ## By an engine -/

namespace Kept

/-- An engine has got another cache, whose new providers the loose objects may share. -/
theorem engineUpdated {id : EngineId} {cache : ProviderCache AesAlgorithm} {driven : Driven σ}
    (kept : Kept accounting [] workspace) (found : workspace.engineCache? id = some cache)
    (shared : ∀ provider ∈ loose.flatMap Item.providers,
      provider ∈ driven.cache.providers AesAlgorithm.provider)
    (holds : accounting.HoldsEngine
      (Distinct { workspace with engines := workspace.engines.filter (·.1 != id) })
      (workspace.items.flatMap Item.providers ++
        cachedProviders { workspace with engines := workspace.engines.filter (·.1 != id) })
      ((loose ++ workspace.items).filterMap Item.key?) driven) :
    Kept accounting loose (workspace.afterEngine id driven) := by
  obtain ⟨entry, present, -⟩ := Option.map_eq_some_iff.mp found
  have perm := Entries.perm_replace kept.tidy.ids present driven.cache
  have names := Entries.names_replace workspace.engines id driven.cache
  constructor
  case tidy =>
    refine ⟨kept.tidy.names, names ▸ kept.tidy.ids, names ▸ kept.tidy.numbered, ?_⟩
    intro other member
    rw [List.filterMap_append]
    exact List.mem_append_right _ (kept.tidy.alive other (names ▸ member))
  case holds =>
    apply holds.mono
    rintro ⟨others, once, -⟩
    refine ⟨(distinct_iff perm).mpr ⟨once, others⟩, ?_, .refl _⟩
    intro provider
    have apart := @perm_cachedProviders σ workspace _ _ id driven.cache perm
    have caches := apart.mem_iff (a := provider)
    rw [List.mem_append] at caches
    rw [List.flatMap_append, List.nil_append, List.mem_append, List.mem_append, List.mem_append,
      List.mem_append]
    refine Iff.trans ?_ (or_congr Iff.rfl caches.symm)
    constructor
    · rintro (cached | held | other)
      · exact .inr (.inl cached)
      · exact .inl (.inr held)
      · exact .inr (.inr other)
    · rintro ((held | held) | cached | other)
      · exact .inl (shared provider held)
      · exact .inr (.inl held)
      · exact .inl cached
      · exact .inr (.inr other)

/-- What others hold while an engine is asked: all but its own cache. -/
theorem engineApart {id : EngineId} {cache : ProviderCache AesAlgorithm}
    (kept : Kept accounting [] workspace) (found : workspace.engineCache? id = some cache) :
    accounting.HoldsEngine
      (Distinct { workspace with engines := workspace.engines.filter (·.1 != id) })
      (workspace.items.flatMap Item.providers ++
        cachedProviders { workspace with engines := workspace.engines.filter (·.1 != id) })
      (workspace.items.filterMap Item.key?) ⟨cache, workspace.backend⟩ := by
  have perm := perm_of_engineCache? kept.tidy.ids found
  apply kept.holds.mono
  intro distinct
  obtain ⟨once, others⟩ := (distinct_iff perm).mp distinct
  refine ⟨⟨others, once, nofun⟩, ?_, .refl _⟩
  intro provider
  rw [List.mem_append, (perm_cachedProviders perm).mem_iff, List.mem_append, List.nil_append,
    List.nil_append, List.mem_append, List.mem_append]
  exact or_left_comm

end Kept

theorem attemptEngine_kept {id : EngineId} {action : Action (Driven σ) α} {key : α → ImportedKey}
    {respond : α → StateM (Workspace σ) Response} (kept : Kept accounting [] workspace)
    (imports : action.Imports accounting key)
    (responds : ∀ value next, Kept accounting [.key (key value)] next →
      Kept accounting [] (respond value next).2) :
    Kept accounting [] (attemptEngine id action respond workspace).2 := by
  have covered : ∀ key ∈ workspace.items.filterMap Item.key?,
      key.provider ∈ workspace.items.flatMap Item.providers ++
        cachedProviders { workspace with engines := workspace.engines.filter (·.1 != id) } :=
    fun key member => List.mem_append_left _ (provider_mem_of_key member)
  apply attemptEngine_ends kept
  intro cache found
  apply (imports _ _ _ covered).mono
  · rintro _ rfl
    exact kept.engineApart found
  · rintro value driven ⟨cached, holds⟩
    exact responds _ _ (kept.engineUpdated found
      (fun provider member => List.mem_singleton.mp member ▸ cached) holds)
  · exact fun driven holds => kept.engineUpdated found nofun holds

/-! ## From the cache -/

namespace Kept

section

variable {cache : ProviderCache ScriptedValue}

theorem mem_cachedProviders_of_cache (found : workspace.cache = some cache) {provider : Provider} :
    provider ∈ workspace.cachedProviders ↔
      provider ∈ workspace.engines.flatMap (fun engine =>
        engine.2.providers AesAlgorithm.provider) ∨
      provider ∈ cache.providers ScriptedValue.provider := by
  have values : [cache].flatMap ProviderCache.values = cache.values := List.append_nil _
  rw [cachedProviders, found, Option.toList_some, values, List.mem_append]
  rfl

/-- The cache has got new values, whose providers the loose objects may share. -/
theorem cacheUpdated {caching : Caching ScriptedValue σ} (kept : Kept accounting [] workspace)
    (shared : ∀ provider ∈ loose.flatMap Item.providers,
      provider ∈ caching.cache.providers ScriptedValue.provider)
    (holds : accounting.HoldsCache ScriptedValue.provider
      (∀ engine ∈ workspace.engines, (engine.2.providers AesAlgorithm.provider).Nodup)
      (workspace.items.flatMap Item.providers ++
        workspace.engines.flatMap fun engine => engine.2.providers AesAlgorithm.provider)
      ((loose ++ workspace.items).filterMap Item.key?) [] caching) :
    Kept accounting loose (workspace.afterCache caching) := by
  constructor
  case tidy =>
    refine ⟨kept.tidy.names, kept.tidy.ids, kept.tidy.numbered, ?_⟩
    intro other member
    rw [List.filterMap_append]
    exact List.mem_append_right _ (kept.tidy.alive other member)
  case holds =>
    apply holds.mono
    rintro ⟨engines, once, -⟩
    refine ⟨⟨engines, ?_⟩, ?_, .refl _⟩
    · rintro _ ⟨⟩
      exact once
    · intro provider
      rw [List.flatMap_append, List.nil_append, List.mem_append, List.mem_append, List.mem_append,
        List.mem_append, mem_cachedProviders_of_cache rfl]
      constructor
      · rintro (cached | held | other)
        · exact .inr (.inr cached)
        · exact .inl (.inr held)
        · exact .inr (.inl other)
      · rintro ((held | held) | other | cached)
        · exact .inl (shared provider held)
        · exact .inr (.inl held)
        · exact .inr (.inr other)
        · exact .inl cached

theorem cacheApart (kept : Kept accounting [] workspace) (found : workspace.cache = some cache) :
    accounting.HoldsCache ScriptedValue.provider
      (∀ engine ∈ workspace.engines, (engine.2.providers AesAlgorithm.provider).Nodup)
      (workspace.items.flatMap Item.providers ++
        workspace.engines.flatMap fun engine => engine.2.providers AesAlgorithm.provider)
      (workspace.items.filterMap Item.key?) [] ⟨cache, workspace.backend⟩ := by
  apply kept.holds.mono
  rintro ⟨engines, once⟩
  refine ⟨⟨engines, once cache found, nofun⟩, ?_, .refl _⟩
  intro provider
  rw [List.mem_append, mem_cachedProviders_of_cache found, List.nil_append, List.nil_append,
    List.mem_append, List.mem_append]
  exact or_assoc.symm.trans or_comm

end

end Kept

theorem acquire_kept {respond : ScriptedValue → StateM (Workspace σ) Response}
    (kept : Kept accounting [] workspace) (key : CacheKey) (script : Script)
    (responds : ∀ value next, Kept accounting [] next → Kept accounting [.acquired value] next →
      Kept accounting [] (respond value next).2) :
    Kept accounting [] ((do
      match ← onCache (Script.acquireValue backend key script) with
      | none => return .noSuchItem
      | some (.error error) => return .failed (.error error)
      | some (.ok value) => respond value : StateM (Workspace σ) Response) workspace).2 := by
  have covered : ∀ key ∈ workspace.items.filterMap Item.key?,
      key.provider ∈ workspace.items.flatMap Item.providers ++
        workspace.engines.flatMap fun engine => engine.2.providers AesAlgorithm.provider :=
    fun key member => List.mem_append_left _ (provider_mem_of_key member)
  apply acquire_ends kept
  intro cache found
  apply (Script.acquireValue_holds covered key script).mono
  · rintro _ rfl
    exact kept.cacheApart found
  · rintro value caching ⟨cached, holds⟩
    exact responds _ _ (kept.cacheUpdated nofun holds) (kept.cacheUpdated
      (fun provider member => List.mem_singleton.mp member ▸ cached) holds)
  · exact fun caching holds => kept.cacheUpdated nofun holds

/-! ## On the backend -/

theorem attempt_quiet_kept {action : Action σ α} (kept : Kept accounting [] workspace)
    (quiet : accounting.Quiet action) (response : α → Response) :
    Kept accounting [] (attempt action (fun value => return response value) workspace).2 := by
  apply attempt_ends
  apply quiet.establishes.mono
  · rintro _ rfl
    exact kept.holds
  · exact fun _ _ holds => ⟨kept.tidy.onBackend _, holds⟩
  · exact fun _ holds => ⟨kept.tidy.onBackend _, holds⟩

theorem newProvider_kept (kept : Kept accounting [] workspace) (algorithm : String)
    (flags : ProviderFlags) {respond : Provider → StateM (Workspace σ) Response}
    (responds : ∀ provider next, Kept accounting [.provider provider] next →
      Kept accounting [] (respond provider next).2) :
    Kept accounting []
      (attempt (Provider.acquire backend algorithm flags) respond workspace).2 := by
  apply attempt_ends
  apply (Accounting.Holds.acquire algorithm flags).mono
  · rintro _ rfl
    exact kept.holds
  · intro provider final holds
    apply responds
    exact ⟨(kept.tidy.instead nofun).onBackend final,
      holds.mono fun known => ⟨known.1, fun _ => Iff.rfl, .refl _⟩⟩
  · exact fun _ holds => ⟨kept.tidy.onBackend _, holds⟩

theorem newKey_kept (kept : Kept accounting [] workspace) {provider : Provider}
    (held : provider ∈ workspace.items.flatMap Item.providers) (secret : Bytes)
    {respond : ImportedKey → StateM (Workspace σ) Response}
    (responds : ∀ key next, Kept accounting [.key key] next →
      Kept accounting [] (respond key next).2) :
    Kept accounting []
      (attempt (ImportedKey.acquire backend provider secret) respond workspace).2 := by
  apply attempt_ends
  apply (Accounting.Holds.acquireKey provider secret).mono
  · rintro _ rfl
    exact kept.holds
  · rintro key final ⟨rfl, holds⟩
    apply responds
    refine ⟨(kept.tidy.instead nofun).onBackend final,
      holds.mono fun known => ⟨known, ?_, .refl _⟩⟩
    have same : ∀ other, other ∈ workspace.items.flatMap Item.providers ↔
        other ∈ key.provider :: workspace.items.flatMap Item.providers := by
      intro other
      rw [List.mem_cons]
      exact ⟨.inr, fun member => member.elim (· ▸ held) id⟩
    intro other
    rw [List.mem_append, List.mem_append]
    exact or_congr_left (same other)
  · exact fun _ holds => ⟨kept.tidy.onBackend _, holds⟩

end Workspace

end CipherModes
