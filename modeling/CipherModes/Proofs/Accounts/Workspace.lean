import CipherModes.Proofs.Accounts.Engine
import CipherModes.Proofs.Accounts.Entries
import CipherModes.Proofs.Accounts.Holdings
import CipherModes.Workspace.State

/-!
# Accounts of a workspace

What is open on the backend is what the objects and the caches of a workspace
hold. An object that has no name, because it was just made or is being given up,
counts like a named one until what it holds is given back.
-/

set_option autoImplicit false

namespace CipherModes

open Backend (Accounting)

variable {σ : Type} {backend : Backend σ} {accounting : backend.Accounting}

namespace Workspace

/-- The providers that caches hold. -/
def cachedProviders (workspace : Workspace σ) : List Provider :=
  workspace.engines.flatMap (fun engine => engine.2.providers AesAlgorithm.provider) ++
    (workspace.cache.toList.flatMap ProviderCache.values).map (·.provider)

/-- No cache holds a provider twice. -/
def Distinct (workspace : Workspace σ) : Prop :=
  (∀ engine ∈ workspace.engines, (engine.2.providers AesAlgorithm.provider).Nodup) ∧
    ∀ cache ∈ workspace.cache, (cache.providers ScriptedValue.provider).Nodup

/-- The names are distinct, and each engine is kept alive by a named or a loose object. -/
structure Tidy (loose : List Item) (workspace : Workspace σ) : Prop where
  names : (workspace.slots.map Prod.fst).Nodup
  ids : (workspace.engines.map Prod.fst).Nodup
  numbered : ∀ id ∈ workspace.engines.map Prod.fst, id < workspace.nextEngine
  alive : ∀ id ∈ workspace.engines.map Prod.fst,
    id ∈ (loose ++ workspace.items).filterMap Item.engine?

/-- What is open is held by the named and the loose objects and by the caches. -/
structure Kept (accounting : backend.Accounting) (loose : List Item) (workspace : Workspace σ) :
    Prop where
  tidy : workspace.Tidy loose
  holds : accounting.Holds workspace.Distinct
    ((loose ++ workspace.items).flatMap Item.providers ++ workspace.cachedProviders)
    ((loose ++ workspace.items).filterMap Item.key?) workspace.backend

/-- The first engine and the cache are empty, so nothing is held. -/
theorem kept_fresh {initial : σ}
    (exact : accounting.Lasts initial → accounting.Exact [] [] initial) :
    Kept accounting [] (fresh initial) where
  tidy :=
    { names := List.pairwise_singleton ..
      ids := List.pairwise_singleton ..
      numbered := List.forall_mem_singleton.mpr Nat.zero_lt_one
      alive := List.forall_mem_singleton.mpr (List.mem_singleton.mpr rfl) }
  holds lasts := by
    refine ⟨⟨List.forall_mem_singleton.mpr .nil, ?_⟩, exact lasts⟩
    intro cache cached
    cases cached
    exact .nil

variable {loose others : List Item} {workspace : Workspace σ}

theorem heldProviders_eq (workspace : Workspace σ) :
    workspace.heldProviders = workspace.items.flatMap Item.providers ++ workspace.cachedProviders :=
  List.append_assoc ..

section

variable {engines rest : List (EngineId × ProviderCache AesAlgorithm)} {id : EngineId}
  {cache : ProviderCache AesAlgorithm}

theorem perm_cachedProviders (perm : engines.Perm ((id, cache) :: rest)) :
    ({ workspace with engines } : Workspace σ).cachedProviders.Perm
      (cache.providers AesAlgorithm.provider ++
        ({ workspace with engines := rest } : Workspace σ).cachedProviders) := by
  rw [cachedProviders, cachedProviders, ← List.append_assoc]
  exact (perm.flatMap_right _).append_right _

theorem distinct_iff (perm : engines.Perm ((id, cache) :: rest)) :
    ({ workspace with engines } : Workspace σ).Distinct ↔
      (cache.providers AesAlgorithm.provider).Nodup ∧
        ({ workspace with engines := rest } : Workspace σ).Distinct := by
  have members : ∀ engine, engine ∈ engines ↔ engine ∈ (id, cache) :: rest :=
    fun _ => perm.mem_iff
  simp only [Distinct, members, List.forall_mem_cons, and_assoc]

/-- An engine apart from the others. -/
theorem perm_of_engineCache? (ids : (workspace.engines.map Prod.fst).Nodup)
    (found : workspace.engineCache? id = some cache) :
    workspace.engines.Perm ((id, cache) :: workspace.engines.filter (·.1 != id)) := by
  obtain ⟨entry, present, rfl⟩ := Option.map_eq_some_iff.mp found
  have named : entry.1 = id := by simpa using List.find?_some present
  have perm := Entries.perm_of_find? ids present
  rwa [← named] at perm ⊢

/-- The providers of an engine apart from those of the others. -/
theorem cachedProviders_without (ids : (workspace.engines.map Prod.fst).Nodup) (id : EngineId) :
    let closing := ((workspace.engineCache? id).toList.flatMap ProviderCache.values).map
      (·.provider)
    let others : Workspace σ :=
      { workspace with engines := workspace.engines.filter (·.1 != id) }
    workspace.cachedProviders.Perm (closing ++ others.cachedProviders) ∧
      (workspace.Distinct → others.Distinct ∧ closing.Nodup) := by
  dsimp only
  cases found : workspace.engineCache? id with
  | none =>
      have missing := Option.map_eq_none_iff.mp found
      rw [Entries.filter_of_find?_eq_none missing]
      exact ⟨.refl _, fun distinct => ⟨distinct, .nil⟩⟩
  | some cache =>
      have perm := perm_of_engineCache? ids found
      have values : [cache].flatMap ProviderCache.values = cache.values := List.append_nil _
      rw [Option.toList_some, values]
      refine ⟨perm_cachedProviders perm, fun distinct => ?_⟩
      obtain ⟨once, others⟩ := (distinct_iff perm).mp distinct
      exact ⟨others, once⟩

end

theorem provider_mem_of_key {items : List Item} {key : ImportedKey}
    (member : key ∈ items.filterMap Item.key?) : key.provider ∈ items.flatMap Item.providers := by
  obtain ⟨item, present, holds⟩ := List.mem_filterMap.mp member
  exact List.mem_flatMap.mpr ⟨item, present, by simp [Item.providers, holds]⟩

theorem Tidy.onBackend (tidy : workspace.Tidy loose) (final : σ) :
    Tidy loose { workspace with backend := final } :=
  ⟨tidy.names, tidy.ids, tidy.numbered, tidy.alive⟩

/-- The loose objects may change as long as they keep the same engines alive. -/
theorem Tidy.instead (tidy : workspace.Tidy loose)
    (engines : loose.filterMap Item.engine? ⊆ others.filterMap Item.engine?) :
    workspace.Tidy others := by
  refine ⟨tidy.names, tidy.ids, tidy.numbered, ?_⟩
  intro id member
  have alive := tidy.alive id member
  rw [List.filterMap_append, List.mem_append] at alive ⊢
  exact Or.imp_left (@engines id) alive

namespace Kept

/-- Accounts are kept while objects take over what others held. -/
theorem passed {slots : List (String × Item)} (kept : Kept accounting loose workspace)
    (names : (slots.map Prod.fst).Nodup)
    (passes : Item.PassTo (loose ++ workspace.items) (others ++ slots.map Prod.snd)) :
    Kept accounting others { workspace with slots } := by
  obtain ⟨tidy, holds⟩ := kept
  refine ⟨⟨names, tidy.ids, tidy.numbered, ?_⟩, ?_⟩
  · exact fun engine member => passes.engines _ (tidy.alive engine member)
  · apply holds.mono
    refine fun distinct => ⟨distinct, ?_, passes.keys⟩
    intro provider
    rw [List.mem_append, List.mem_append, passes.providers provider]
    rfl

theorem quiet {α : Type} {operation : StateM σ α} (quiet : accounting.Quiet operation)
    (kept : Kept accounting loose workspace) :
    Kept accounting loose (onBackend operation workspace).2 :=
  ⟨kept.tidy.onBackend _, quiet _ _ _ _ kept.holds⟩

theorem dressed (kept : Kept accounting loose workspace) (passes : Item.PassTo loose others) :
    Kept accounting others workspace := by
  apply kept.passed kept.tidy.names
  have appended := passes.append_left workspace.items
  exact ((Item.PassTo.of_perm List.perm_append_comm).trans appended).trans
    (.of_perm List.perm_append_comm)

end Kept

/-! ## Names -/

/-- What is left of the names when an object is taken out with its streams. -/
def slotsWithout (workspace : Workspace σ) (name : String) : List (String × Item) :=
  workspace.slots.filter fun slot => slot.1 != name && !slot.2.isStreamOf name

theorem slotsWithout_eq (workspace : Workspace σ) (name : String) :
    workspace.slotsWithout name =
      (workspace.slots.filter (·.1 != name)).filter (!·.2.isStreamOf name) := by
  rw [List.filter_filter]
  exact List.filter_congr fun slot _ => Bool.and_comm ..

theorem take_of_item {name : String} {item : Item} (present : workspace.item? name = some item) :
    take name workspace = (some item, { workspace with slots := workspace.slotsWithout name }) := by
  simp only [take, present]
  rfl

theorem take_of_missing {name : String} (missing : workspace.item? name = none) :
    take name workspace = (none, workspace) := by
  simp only [take, missing]

theorem slot_of_item {name : String} {item : Item} (present : workspace.item? name = some item) :
    workspace.slots.find? (·.1 == name) = some (name, item) := by
  obtain ⟨slot, found, rfl⟩ := Option.map_eq_some_iff.mp present
  have named : slot.1 = name := by simpa using List.find?_some found
  rw [found, ← named]

/-- The slots of a name all hold its object. -/
theorem item_of_slot {name : String} {item : Item} {slot : String × Item}
    (names : (workspace.slots.map Prod.fst).Nodup) (present : workspace.item? name = some item)
    (member : slot ∈ workspace.slots) (named : slot.1 = name) : slot.2 = item := by
  rw [Entries.eq_of_mem names (slot_of_item present) member named]

theorem name_not_mem_of_missing {name : String} (missing : workspace.item? name = none) :
    name ∉ workspace.slots.map Prod.fst := by
  intro member
  obtain ⟨slot, present, rfl⟩ := List.mem_map.mp member
  have different := List.find?_eq_none.mp (Option.map_eq_none_iff.mp missing) slot present
  simp at different

theorem name_not_mem_slotsWithout (workspace : Workspace σ) (name : String) :
    name ∉ (workspace.slotsWithout name).map Prod.fst := by
  intro member
  obtain ⟨slot, kept, rfl⟩ := List.mem_map.mp member
  have different := (List.mem_filter.mp kept).2
  simp at different

namespace Kept

/-- The object of a name is taken out of the workspace; its streams held nothing. -/
theorem taken {name : String} {item : Item} (kept : Kept accounting loose workspace)
    (present : workspace.item? name = some item) :
    Kept accounting (item :: loose) { workspace with slots := workspace.slotsWithout name } := by
  have unique := Entries.perm_of_find? kept.tidy.names (slot_of_item present)
  apply kept.passed
  · exact (List.filter_sublist.map _).nodup kept.tidy.names
  · have others : Item.PassTo workspace.items
        (item :: (workspace.slots.filter (·.1 != name)).map Prod.snd) :=
      .of_perm (unique.map Prod.snd)
    have streamless : Item.PassTo ((workspace.slots.filter (·.1 != name)).map Prod.snd)
        ((workspace.slotsWithout name).map Prod.snd) := by
      have bare : ∀ item ∈ (workspace.slots.filter (·.1 != name)).map Prod.snd,
          (!item.isStreamOf name) = false → item.Bare :=
        fun item _ stream => Item.bare_of_isStreamOf (by simpa using stream)
      have filtered := Item.PassTo.filter bare
      rw [List.filter_map] at filtered
      rwa [slotsWithout_eq]
    have remaining := others.trans (streamless.cons ⟨rfl, rfl, rfl⟩)
    exact (remaining.append_left loose).trans (.of_perm List.perm_middle)

/-- A loose object takes a name that is free. -/
theorem put {name : String} {item : Item} (kept : Kept accounting (item :: loose) workspace)
    (free : name ∉ workspace.slots.map Prod.fst) :
    Kept accounting loose { workspace with slots := workspace.slots ++ [(name, item)] } := by
  apply kept.passed
  · exact Entries.nodup_concat kept.tidy.names free item
  · rw [List.map_append]
    apply Item.PassTo.of_perm
    rw [← List.append_assoc]
    exact (List.perm_append_singleton item (loose ++ workspace.items)).symm

theorem updated {name : String} {item : Item} (kept : Kept accounting loose workspace)
    (same : ∀ slot ∈ workspace.slots, slot.1 = name → slot.2.HoldsAs item) :
    Kept accounting loose (update name item workspace).2 := by
  apply kept.passed
  · rw [Entries.names_replace]
    exact kept.tidy.names
  · rw [List.map_map]
    apply Item.PassTo.append_left
    apply Item.PassTo.map
    intro slot member
    simp only [Function.comp]
    split
    · rename_i named
      exact same slot member (by simpa using named)
    · exact ⟨rfl, rfl, rfl⟩

end Kept

end Workspace

end CipherModes
