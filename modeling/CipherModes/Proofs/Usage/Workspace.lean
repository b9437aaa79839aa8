import CipherModes.Proofs.Accounts.Workspace
import CipherModes.Proofs.Usage.Providers

/-!
# What a token keeps for a workspace

The keys that objects hold are live in the modes in which they are used, and the
providers that engines have cached are open in theirs. What is given up is given
back only if that takes nothing from any other object, whether or not the token
takes it.
-/

set_option autoImplicit false

namespace CipherModes

open Backend (Fronting)

/-! ## Keys of objects -/

namespace Item

/-- The key that an object holds, and how it uses it. A key that was imported by hand is not used. -/
def custody? : Item → Option Custody
  | cipher aes | blockwise aes _ => some ⟨aes.key, some .ecb⟩
  | gcm mode => some mode.custody
  | ordered mode => some mode.gcm.custody
  | key imported => some ⟨imported, none⟩
  | engine _ | rotating .. | stream .. | rotatingGcm .. | provider _ | acquired _ => none

theorem key_custody? (item : Item) : item.custody?.map Custody.key = item.key? := by
  cases item with
  | gcm mode => cases mode <;> rfl
  | ordered mode => cases mode with | mk mode least => cases mode <;> rfl
  | _ => rfl

theorem provider?_of_custody? {item : Item} {held : Custody} (holds : item.custody? = some held) :
    item.provider? = none := by
  cases item <;> first | rfl | cases holds

/-- What an object holds, if it holds anything, the other one holds too. -/
def Within (item other : Item) : Prop :=
  (item.custody? = none ∨ item.custody? = other.custody?) ∧
    (item.provider? = none ∨ item.provider? = other.provider?)

theorem sublist_filterMap {α β : Type} {slots : List α} {before after : α → Item}
    {held : Item → Option β}
    (each : ∀ slot ∈ slots, held (after slot) = none ∨ held (after slot) = held (before slot)) :
    ((slots.map after).filterMap held).Sublist ((slots.map before).filterMap held) := by
  induction slots with
  | nil => exact .refl []
  | cons slot rest ih =>
      obtain ⟨first, later⟩ := List.forall_mem_cons.mp each
      simp only [List.map_cons, List.filterMap_cons]
      rcases first with nothing | unchanged
      · rw [nothing]
        cases held (before slot) with
        | none => exact ih later
        | some _ => exact (ih later).cons _
      · rw [unchanged]
        cases held (before slot) with
        | none => exact ih later
        | some _ => exact (ih later).cons_cons _

/-- No object has more of its own than it had among the others before. -/
structure HoldLess (items others : List Item) : Prop where
  custody : (items.filterMap custody?).Subperm (others.filterMap custody?)
  providers : items.filterMap provider? ⊆ others.filterMap provider?

namespace HoldLess

variable {items others : List Item}

theorem of_subperm (subperm : items.Subperm others) : HoldLess items others := by
  obtain ⟨between, perm, sublist⟩ := subperm
  have fewer {α : Type} (held : Item → Option α) :
      (items.filterMap held).Subperm (others.filterMap held) :=
    ⟨_, perm.filterMap held, sublist.filterMap held⟩
  exact ⟨fewer custody?, (fewer provider?).subset⟩

theorem map {α : Type} {slots : List α} {before after : α → Item}
    (within : ∀ slot ∈ slots, (after slot).Within (before slot)) :
    HoldLess (slots.map after) (slots.map before) :=
  ⟨(sublist_filterMap fun slot member => (within slot member).1).subperm,
    (sublist_filterMap fun slot member => (within slot member).2).subset⟩

theorem of_nothing {item : Item} (keyless : item.custody? = none)
    (providerless : item.provider? = none) (items : List Item) : HoldLess (item :: items) items := by
  constructor
  · rw [List.filterMap_cons_none keyless]
  · rw [List.filterMap_cons_none providerless]
    exact List.Subset.refl _

theorem append_left (less : HoldLess items others) (loose : List Item) :
    HoldLess (loose ++ items) (loose ++ others) := by
  constructor
  · rw [List.filterMap_append, List.filterMap_append]
    exact (List.subperm_append_left _).mpr less.custody
  · rw [List.filterMap_append, List.filterMap_append]
    exact List.append_subset.mpr ⟨List.subset_append_left ..,
      List.subset_append_of_subset_right _ less.providers⟩

end HoldLess

end Item

variable {σ : Type} {backend : Backend σ} {front : backend.Fronting}
  {allowed : Token → Call → Prop} {initial : σ} {knows : ChainingMode → Handle → Prop}

namespace Workspace

def engineEntries (workspace : Workspace σ) : List (CacheKey × AesAlgorithm) :=
  workspace.engines.flatMap (·.2.entries)

/-- The providers that scripts were run on and that are still cached. -/
def scripted (workspace : Workspace σ) : List Provider :=
  (workspace.cache.toList.flatMap ProviderCache.values).map (·.provider)

/-- After calls that were allowed, the token keeps what the named and the loose objects and the
caches have. -/
abbrev ServedOn (front : backend.Fronting) (allowed : Token → Call → Prop) (initial : σ)
    (loose : List Item) (workspace : Workspace σ) : σ → Prop :=
  front.Serving allowed initial ((loose ++ workspace.items).filterMap Item.custody?)
    workspace.engineEntries
    ((loose ++ workspace.items).filterMap Item.provider? ++ workspace.scripted)

/-- An operation takes nothing from the objects and the caches of a workspace. -/
abbrev Spares (front : backend.Fronting) (allowed : Token → Call → Prop) (initial : σ)
    (workspace : Workspace σ) {α : Type} (operation : StateM σ α) : Prop :=
  front.Keeps allowed initial (workspace.items.filterMap Item.custody?) workspace.engineEntries
    (workspace.items.filterMap Item.provider? ++ workspace.scripted) operation

structure Served (front : backend.Fronting) (allowed : Token → Call → Prop) (initial : σ)
    (loose : List Item) (workspace : Workspace σ) : Prop where
  names : (workspace.slots.map Prod.fst).Nodup
  serving : ServedOn front allowed initial loose workspace workspace.backend

variable {loose others : List Item} {workspace : Workspace σ}

theorem mem_heldProviders_of_entry {entry : CacheKey × AesAlgorithm}
    (member : entry ∈ workspace.engineEntries) :
    entry.2.provider ∈ workspace.heldProviders := by
  obtain ⟨engine, present, cached⟩ := List.mem_flatMap.mp member
  apply List.mem_append_left
  apply List.mem_append_right
  exact List.mem_flatMap.mpr ⟨engine, present,
    List.mem_map_of_mem (List.mem_map_of_mem cached)⟩

theorem entries_of_engineCache? {id : EngineId} {cache : ProviderCache AesAlgorithm}
    (found : workspace.engineCache? id = some cache) :
    cache.entries ⊆ workspace.engineEntries := by
  obtain ⟨engine, present, rfl⟩ := Option.map_eq_some_iff.mp found
  intro entry member
  exact List.mem_flatMap.mpr ⟨engine, List.mem_of_find?_eq_some present, member⟩

theorem subperm_of_item {name : String} {item : Item}
    (names : (workspace.slots.map Prod.fst).Nodup) (present : workspace.item? name = some item) :
    (item :: (workspace.slotsWithout name).map Prod.snd).Subperm workspace.items := by
  have apart := (Entries.perm_of_find? names (slot_of_item present)).map Prod.snd
  rw [slotsWithout_eq]
  exact ((List.filter_sublist.map Prod.snd).cons_cons item).subperm.trans apart.symm.subperm

namespace Served

/-- Objects may come and go as long as they hold no more than before. -/
theorem passed {slots : List (String × Item)}
    (served : Served front allowed initial loose workspace) (names : (slots.map Prod.fst).Nodup)
    (less : Item.HoldLess (others ++ slots.map Prod.snd) (loose ++ workspace.items)) :
    Served front allowed initial others { workspace with slots } := by
  refine ⟨names, served.serving.shrink less.custody (List.Subset.refl _) ?_⟩
  exact List.append_subset.mpr ⟨List.subset_append_of_subset_left _ less.providers,
    List.subset_append_right ..⟩

theorem keeping {α : Type} {operation : StateM σ α}
    (served : Served front allowed initial [] workspace)
    (spares : Spares front allowed initial workspace operation) :
    Served front allowed initial [] (onBackend operation workspace).2 :=
  ⟨served.names, spares _ served.serving⟩

end Served

/-! ## Giving back -/

/-- No provider is closed that an engine has cached. -/
theorem closeUnheld_serving {kept closing : List Provider} {custody : List Custody}
    {cached : List (CacheKey × AesAlgorithm)} {strangers : List Provider}
    (admits : Fronting.Admits allowed knows)
    (held : ∀ entry ∈ cached, entry.2.provider ∈ workspace.heldProviders)
    (holds : front.Holds allowed initial
      (fun token => (∀ provider ∈ closing, provider.algorithm = aesAlgorithm) ∧
        token.Serves custody cached strangers) workspace.backend) :
    ∃ final, (closeUnheld backend kept closing workspace).2 = { workspace with backend := final } ∧
      front.Serving allowed initial custody cached strangers final := by
  induction closing generalizing workspace with
  | nil => exact ⟨workspace.backend, rfl, holds.mono fun _ => And.right⟩
  | cons provider rest ih =>
      by_cases present : provider ∈ kept ++ workspace.heldProviders
      · simp only [closeUnheld, if_pos present]
        exact ih held (holds.mono fun _ => And.imp_left fun known => (List.forall_mem_cons.mp known).2)
      · simp only [closeUnheld, if_neg present, onBackend]
        refine @ih { workspace with backend := (provider.release backend workspace.backend).2 }
          held ?_
        apply holds.step fun token _ => admits token (.closeProvider provider.raw) trivial
        rintro token next ⟨algorithms, serves⟩ fronted lasts
        obtain ⟨algorithm, remaining⟩ := List.forall_mem_cons.mp algorithms
        refine ⟨remaining, serves.spared fronted.effect lasts ⟨fun _ _ _ => nofun, ?_⟩⟩
        intro entry member
        refine ⟨fun same => present ?_, nofun⟩
        have known : entry.2.provider.algorithm = aesAlgorithm := by
          apply serves.algorithms
          apply List.mem_append_left
          exact List.mem_append_right _ (List.mem_map_of_mem member)
        have alike : provider = entry.2.provider := by
          obtain ⟨raw, name⟩ := provider
          cases same
          cases algorithm.trans known.symm
          rfl
        exact alike ▸ List.mem_append_right _ (held entry member)

namespace Served

theorem closed {kept closing : List Provider} (admits : Fronting.Admits allowed knows)
    (names : (workspace.slots.map Prod.fst).Nodup)
    (holds : front.Holds allowed initial
      (fun token => (∀ provider ∈ closing, provider.algorithm = aesAlgorithm) ∧
        token.Serves ((loose ++ workspace.items).filterMap Item.custody?) workspace.engineEntries
          ((loose ++ workspace.items).filterMap Item.provider? ++ workspace.scripted))
      workspace.backend) :
    Served front allowed initial loose (closeUnheld backend kept closing workspace).2 := by
  obtain ⟨final, finished, serving⟩ := @closeUnheld_serving _ backend front allowed initial knows
    workspace kept closing _ _ _ admits (fun _ => mem_heldProviders_of_entry) holds
  rw [finished]
  exact ⟨names, serving⟩

theorem engineReleased {kept : List Provider} {id : EngineId}
    (admits : Fronting.Admits allowed knows)
    (served : Served front allowed initial loose workspace) :
    Served front allowed initial loose (releaseEngine backend kept id workspace).2 := by
  by_cases held : id ∈ workspace.heldEngines
  · simp only [releaseEngine, if_pos held]
    exact served
  · simp only [releaseEngine, if_neg held]
    refine closed admits ?_ ?_
    · exact served.names
    apply served.serving.mono
    intro token serves
    constructor
    · intro provider member
      obtain ⟨value, cached, rfl⟩ := List.mem_map.mp member
      obtain ⟨cache, found, listed⟩ := List.mem_flatMap.mp cached
      obtain ⟨entry, present, rfl⟩ := List.mem_map.mp listed
      apply serves.algorithms
      apply List.mem_append_left
      apply List.mem_append_right
      exact List.mem_map_of_mem (entries_of_engineCache? (Option.mem_toList.mp found) present)
    · apply serves.shrink (.refl _) _ (List.Subset.refl _)
      intro entry member
      obtain ⟨engine, remaining, cached⟩ := List.mem_flatMap.mp member
      exact List.mem_flatMap.mpr ⟨engine, List.mem_of_mem_filter remaining, cached⟩

/-- The key of a loose object is destroyed before its provider may be closed. -/
theorem keyReleased {item : Item} {key : ImportedKey} (admits : Fronting.Admits allowed knows)
    (holds : item.key? = some key)
    (served : Served front allowed initial [item] workspace) :
    Served front allowed initial [] (releaseKey backend key workspace).2 := by
  obtain ⟨held, custody, rfl⟩ := Option.map_eq_some_iff.mp (item.key_custody?.trans holds)
  have serving := served.serving
  rw [ServedOn, List.singleton_append, List.filterMap_cons, List.filterMap_cons, custody,
    Item.provider?_of_custody? custody] at serving
  simp only [releaseKey, bind, StateT.bind]
  refine closed admits ?_ ?_
  · exact served.names
  apply (serving.releaseKey admits).mono
  rintro token ⟨algorithm, serves⟩
  exact ⟨List.forall_mem_singleton.mpr algorithm, serves⟩

theorem providerReleased {provider : Provider} {item : Item}
    (admits : Fronting.Admits allowed knows) (holds : item.provider? = some provider)
    (served : Served front allowed initial [item] workspace) :
    Served front allowed initial [] (closeUnheld backend [] [provider] workspace).2 := by
  apply closed admits served.names
  apply served.serving.mono
  intro token serves
  have stranger : provider ∈ ([item] ++ workspace.items).filterMap Item.provider? :=
    List.mem_filterMap.mpr ⟨item, .head _, holds⟩
  constructor
  · rw [List.forall_mem_singleton]
    apply serves.algorithms
    exact List.mem_append_right _ (List.mem_append_left _ stranger)
  · exact serves.shrink ((List.sublist_cons_self ..).filterMap _).subperm (List.Subset.refl _)
      (((List.sublist_cons_self ..).filterMap _).append_right _).subset

theorem unboundReleased {item : Item} (admits : Fronting.Admits allowed knows)
    (served : Served front allowed initial [item] workspace) :
    Served front allowed initial [] ((do
      match item.key? with
      | none => pure ()
      | some key => releaseKey backend key
      closeUnheld backend [] item.provider?.toList : StateM (Workspace σ) Unit) workspace).2 := by
  cases key : item.key? with
  | some imported =>
      rw [Item.provider?_of_key? key]
      exact served.keyReleased admits key
  | none =>
      cases provider : item.provider? with
      | some opened => exact served.providerReleased admits provider
      | none => exact served.passed served.names (.of_subperm .cons_self)

theorem itemReleased {item : Item} (admits : Fronting.Admits allowed knows)
    (served : Served front allowed initial [item] workspace) :
    Served front allowed initial [] (releaseItem backend item workspace).2 := by
  cases engine : item.engine? with
  | none =>
      simp only [releaseItem, engine]
      exact served.unboundReleased admits
  | some id =>
      simp only [releaseItem, engine]
      exact (served.engineReleased admits).unboundReleased admits

/-! ## Names -/

theorem taken {name : String} {item : Item} (served : Served front allowed initial [] workspace)
    (present : workspace.item? name = some item) :
    Served front allowed initial [item]
      { workspace with slots := workspace.slotsWithout name } :=
  served.passed ((List.filter_sublist.map _).nodup served.names)
    (.of_subperm (subperm_of_item served.names present))

theorem stored {name : String} {item : Item} (admits : Fronting.Admits allowed knows)
    (served : Served front allowed initial [item] workspace) :
    Served front allowed initial [] (store backend name item workspace).2 := by
  cases present : workspace.item? name with
  | none =>
      simp only [store, bind, StateT.bind, take_of_missing present]
      apply served.passed
      · exact Entries.nodup_concat served.names (name_not_mem_of_missing present) item
      · rw [List.map_append]
        exact .of_subperm (List.perm_append_singleton ..).subperm
  | some old =>
      simp only [store, bind, StateT.bind, take_of_item present]
      have both : Served front allowed initial [old]
          { workspace with slots := workspace.slotsWithout name ++ [(name, item)] } := by
        apply served.passed
        · apply Entries.nodup_concat _ (name_not_mem_slotsWithout workspace name)
          exact (List.filter_sublist.map _).nodup served.names
        · rw [List.map_append, ← List.append_assoc]
          apply Item.HoldLess.of_subperm
          apply (List.perm_append_singleton item _).subperm.trans
          exact (List.subperm_cons item).mpr (subperm_of_item served.names present)
      exact both.itemReleased admits

theorem updated {name : String} {item : Item}
    (served : Served front allowed initial loose workspace)
    (within : ∀ slot ∈ workspace.slots, slot.1 = name → item.Within slot.2) :
    Served front allowed initial loose (update name item workspace).2 := by
  apply served.passed
  · rw [Entries.names_replace]
    exact served.names
  · rw [List.map_map]
    apply Item.HoldLess.append_left
    apply Item.HoldLess.map
    intro slot member
    simp only [Function.comp]
    split
    · rename_i named
      exact within slot member (by simpa using named)
    · exact ⟨.inr rfl, .inr rfl⟩

/-- What holds nothing may stand for any other object. -/
theorem bareUpdated {name : String} {item : Item}
    (served : Served front allowed initial loose workspace) (custody : item.custody? = none)
    (providers : item.provider? = none) :
    Served front allowed initial loose (update name item workspace).2 :=
  served.updated fun _ _ _ => ⟨.inl custody, .inl providers⟩

theorem dropped (name : String) (admits : Fronting.Admits allowed knows)
    (served : Served front allowed initial [] workspace) :
    Served front allowed initial [] (drop backend name workspace).2 := by
  cases present : workspace.item? name with
  | none =>
      simp only [drop, bind, StateT.bind, take_of_missing present]
      exact served
  | some item =>
      simp only [drop, bind, StateT.bind, take_of_item present]
      exact (served.taken present).itemReleased admits

theorem cacheDropped (admits : Fronting.Admits allowed knows)
    (served : Served front allowed initial [] workspace) :
    Served front allowed initial [] (dropCache backend workspace).2 := by
  refine closed admits ?_ ?_
  · exact served.names
  apply served.serving.mono
  intro token serves
  constructor
  · intro provider member
    apply serves.algorithms
    exact List.mem_append_right _ (List.mem_append_right _ member)
  · apply serves.shrink (.refl _) (List.Subset.refl _)
    exact List.append_subset.mpr ⟨List.subset_append_left .., nofun⟩

end Served

end Workspace

end CipherModes
