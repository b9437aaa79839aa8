import CipherModes.Proofs.Responding
import CipherModes.Proofs.Usage.Engine
import CipherModes.Proofs.Usage.Workspace

/-!
# Making objects with fitting calls

While an engine or the cache is asked, the rest of the workspace is left alone.
A new object has the key that was entrusted to it, or the provider that was
opened for it, before it gets its name.
-/

set_option autoImplicit false

namespace CipherModes

open Backend (Fronting)
open Backend.Fronting (Admits Serving)

variable {α σ : Type} {backend : Backend σ} {front : backend.Fronting}
  {allowed : Token → Call → Prop} {initial : σ} {knows : ChainingMode → Handle → Prop}

namespace Workspace

variable {loose : List Item} {workspace : Workspace σ}

/-! ## By an engine -/

/-- What an engine has cached after an action on it. -/
def cacheAfter? (id : EngineId) (action : Action (Driven σ) α) (workspace : Workspace σ) :
    Option (ProviderCache AesAlgorithm) :=
  (workspace.engineCache? id).map fun cache => (action ⟨cache, workspace.backend⟩).2.cache

theorem engineEntries_afterEngine {id : EngineId} {driven : Driven σ} :
    (workspace.afterEngine id driven).engineEntries ⊆
      driven.cache.entries ++ workspace.engineEntries := by
  intro entry member
  obtain ⟨updated, present, cached⟩ := List.mem_flatMap.mp member
  obtain ⟨engine, before, rfl⟩ := List.mem_map.mp present
  by_cases asked : engine.1 == id
  · rw [if_pos asked] at cached
    exact List.mem_append_left _ cached
  · rw [if_neg asked] at cached
    exact List.mem_append_right _ (List.mem_flatMap.mpr ⟨engine, before, cached⟩)

/-- Before it gets its name, a new object is a loose one. -/
theorem Served.asked {id : EngineId} {cache : ProviderCache AesAlgorithm}
    {action : Action (Driven σ) α} {entrusted : α → Custody} (item : α → Item)
    (served : Served front allowed initial [] workspace) (entrusts : action.Entrusts front entrusted)
    (found : workspace.engineCache? id = some cache)
    (admits : ∀ cache ∈ workspace.cacheAfter? id action, Admits allowed cache.Knows)
    (holds : ∀ value, (item value).custody? = some (entrusted value)) :
    action.Establishes (· = ⟨cache, workspace.backend⟩)
      (fun value driven =>
        Served front allowed initial [item value] (workspace.afterEngine id driven))
      (fun driven => Served front allowed initial [] (workspace.afterEngine id driven)) := by
  have asked : front.ServingEngine allowed initial (workspace.items.filterMap Item.custody?)
      workspace.engineEntries (workspace.items.filterMap Item.provider? ++ workspace.scripted)
      ⟨cache, workspace.backend⟩ :=
    served.serving.shrink (.refl _)
      (List.append_subset.mpr ⟨entries_of_engineCache? found, List.Subset.refl _⟩)
      (List.Subset.refl _)
  have known : Admits allowed (action ⟨cache, workspace.backend⟩).2.cache.Knows := by
    apply admits
    rw [cacheAfter?, found]
    rfl
  apply (entrusts _ known asked).mono fun _ same => same
  · intro value driven serving
    refine ⟨served.names, ?_⟩
    rw [ServedOn, List.singleton_append, List.filterMap_cons, List.filterMap_cons, holds value,
      Item.provider?_of_custody? (holds value)]
    exact serving.shrink (.refl _) engineEntries_afterEngine (List.Subset.refl _)
  · intro driven serving
    exact ⟨served.names, serving.shrink (.refl _) engineEntries_afterEngine (List.Subset.refl _)⟩

theorem attemptEngine_served {id : EngineId} {action : Action (Driven σ) α}
    {entrusted : α → Custody} {respond : α → StateM (Workspace σ) Response} (item : α → Item)
    (served : Served front allowed initial [] workspace) (entrusts : action.Entrusts front entrusted)
    (admits : ∀ cache ∈ workspace.cacheAfter? id action, Admits allowed cache.Knows)
    (holds : ∀ value, (item value).custody? = some (entrusted value))
    (responds : ∀ value next, Served front allowed initial [item value] next →
      Served front allowed initial [] (respond value next).2) :
    Served front allowed initial [] (attemptEngine id action respond workspace).2 := by
  apply attemptEngine_ends served
  intro cache found
  exact (served.asked item entrusts found admits holds).mono (fun _ same => same)
    (fun value _ loose => responds value _ loose) fun _ kept => kept

/-! ## From the cache -/

theorem scripted_of_cache {cache : ProviderCache ScriptedValue}
    (found : workspace.cache = some cache) :
    workspace.scripted = cache.values.map (·.provider) := by
  rw [scripted, found, Option.toList_some, List.flatMap_singleton]

/-- What the token keeps while scripts are run: for the rest of the workspace. -/
abbrev ServedScripts (front : backend.Fronting) (admits : Admits allowed knows) (initial : σ)
    (workspace : Workspace σ) (caching : Caching ScriptedValue σ) : Prop :=
  (front.keeping admits initial (workspace.items.filterMap Item.custody?) workspace.engineEntries
    (workspace.items.filterMap Item.provider?) ScriptedValue.provider).Keeps [] caching

theorem Served.cacheUpdated {admits : Admits allowed knows} {caching : Caching ScriptedValue σ}
    (served : Served front allowed initial [] workspace)
    (serving : ServedScripts front admits initial workspace caching)
    (keyless : loose.filterMap Item.custody? = [])
    (shared : loose.filterMap Item.provider? ⊆ caching.cache.values.map (·.provider)) :
    Served front allowed initial loose (workspace.afterCache caching) := by
  refine ⟨served.names, ?_⟩
  rw [ServedOn, scripted_of_cache rfl, List.filterMap_append, keyless, List.filterMap_append]
  apply serving.shrink (.refl _) (List.Subset.refl _)
  intro provider member
  rw [List.mem_append, List.mem_append] at member
  rw [List.nil_append, List.mem_append]
  rcases member with (new | held) | cached
  · exact .inl (shared new)
  · exact .inr held
  · exact .inl cached

theorem acquire_served {key : CacheKey} {script : Script}
    {respond : ScriptedValue → StateM (Workspace σ) Response} (admits : Admits allowed knows)
    (served : Served front allowed initial [] workspace)
    (responds : ∀ value next, Served front allowed initial [] next →
      Served front allowed initial [.acquired value] next →
        Served front allowed initial [] (respond value next).2) :
    Served front allowed initial [] ((do
      match ← onCache (Script.acquireValue backend key script) with
      | none => return .noSuchItem
      | some (.error error) => return .failed (.error error)
      | some (.ok value) => respond value : StateM (Workspace σ) Response) workspace).2 := by
  apply acquire_ends served
  intro cache found
  have started : ServedScripts front admits initial workspace ⟨cache, workspace.backend⟩ := by
    apply served.serving.shrink (.refl _) (List.Subset.refl _)
    rw [scripted_of_cache found, List.nil_append]
    exact fun _ member => List.mem_append.mpr (List.mem_append.mp member).symm
  apply (Script.acquireValue_serving admits key script).mono
  · rintro _ rfl
    exact started
  · rintro value caching ⟨stored, serving⟩
    have cached : value.provider ∈ caching.cache.values.map (·.provider) :=
      List.mem_map_of_mem (List.mem_map_of_mem (ProviderCache.mem_of_find? stored))
    exact responds _ _ (served.cacheUpdated serving rfl nofun)
      (served.cacheUpdated serving rfl fun _ member => List.mem_singleton.mp member ▸ cached)
  · exact fun caching serving => served.cacheUpdated serving rfl nofun

/-! ## On the backend -/

theorem attempt_served {action : Action σ α} {response : α → Response}
    (served : Served front allowed initial [] workspace)
    (maintains : action.Maintains (ServedOn front allowed initial [] workspace)) :
    Served front allowed initial []
      (attempt action (fun value => return response value) workspace).2 := by
  apply attempt_ends
  apply maintains.mono
  · rintro _ rfl
    exact served.serving
  · exact fun _ _ serving => ⟨served.names, serving⟩
  · exact fun _ serving => ⟨served.names, serving⟩

theorem newProvider_served {algorithm : String} {flags : ProviderFlags}
    {respond : Provider → StateM (Workspace σ) Response} (admits : Admits allowed knows)
    (served : Served front allowed initial [] workspace)
    (responds : ∀ provider next, Served front allowed initial [.provider provider] next →
      Served front allowed initial [] (respond provider next).2) :
    Served front allowed initial []
      (attempt (Provider.acquire backend algorithm flags) respond workspace).2 := by
  apply attempt_ends
  apply (Serving.acquire admits algorithm flags).mono
  · rintro _ rfl
    exact served.serving
  · exact fun _ _ holds => responds _ _ ⟨served.names, holds.mono fun _ => And.right⟩
  · exact fun _ serving => ⟨served.names, serving⟩

theorem newKey_served {provider : Provider} {secret : Bytes}
    {respond : ImportedKey → StateM (Workspace σ) Response}
    (fits : ∀ token, allowed token (.importKey provider.raw secret))
    (stranger : provider ∈ workspace.items.filterMap Item.provider?)
    (served : Served front allowed initial [] workspace)
    (responds : ∀ key next, Served front allowed initial [.key key] next →
      Served front allowed initial [] (respond key next).2) :
    Served front allowed initial []
      (attempt (ImportedKey.acquire backend provider secret) respond workspace).2 := by
  have imports : (ImportedKey.acquire backend provider secret).Establishes
      (ServedOn front allowed initial [] workspace)
      (fun key => ServedOn front allowed initial [.key key] workspace)
      (ServedOn front allowed initial [] workspace) := by
    apply Serving.acquireKey fun token _ => fits token
    intro token serves
    refine ⟨serves.algorithms _ ?_, nofun⟩
    exact List.mem_append_right _ (List.mem_append_left _ stranger)
  apply attempt_ends
  apply imports.mono
  · rintro _ rfl
    exact served.serving
  · exact fun _ _ serving => responds _ _ ⟨served.names, serving⟩
  · exact fun _ serving => ⟨served.names, serving⟩

end Workspace

end CipherModes
