import CipherModes.Proofs.Accounts.Release

/-!
# Emptying a workspace

Dropping an object takes its name and its streams out of the workspace and does
nothing to the backend but give handles back. When all names have been dropped
and the cache is gone, nothing is left.
-/

set_option autoImplicit false

namespace CipherModes

variable {σ : Type} {backend : Backend σ}

/-- From one state of a backend to another, handles were given back and nothing else was done. -/
inductive Backend.GivesBack (backend : Backend σ) (state : σ) : σ → Prop where
  | nothing : GivesBack backend state state
  | release {middle : σ} (before : GivesBack backend state middle) (call : Call)
      (release : call.operation.isRelease = true) :
      GivesBack backend state (backend.answer call middle).2

theorem Backend.GivesBack.trans {state middle last : σ} (first : backend.GivesBack state middle)
    (second : backend.GivesBack middle last) : backend.GivesBack state last := by
  induction second with
  | nothing => exact first
  | release _ call release ih => exact ih.release call release

namespace Workspace

variable {workspace next last : Workspace σ}

/-- Neither a name nor the cache was touched, and handles were given back. -/
structure GivesBack (backend : Backend σ) (workspace next : Workspace σ) : Prop where
  slots : next.slots = workspace.slots
  cache : next.cache = workspace.cache
  calls : backend.GivesBack workspace.backend next.backend

theorem GivesBack.trans (first : GivesBack backend workspace next)
    (second : GivesBack backend next last) : GivesBack backend workspace last :=
  ⟨second.slots.trans first.slots, second.cache.trans first.cache,
    first.calls.trans second.calls⟩

variable (backend)

theorem closeUnheld_givesBack (kept closing : List Provider) (workspace : Workspace σ) :
    GivesBack backend workspace (closeUnheld backend kept closing workspace).2 := by
  induction closing generalizing workspace with
  | nil => exact ⟨rfl, rfl, .nothing⟩
  | cons provider rest ih =>
      by_cases present : provider ∈ kept ++ workspace.heldProviders
      · simp only [closeUnheld, if_pos present]
        exact ih workspace
      · simp only [closeUnheld, if_neg present]
        have closed : GivesBack backend workspace
            (onBackend (provider.release backend) workspace).2 :=
          ⟨rfl, rfl, .release .nothing (.closeProvider provider.raw) rfl⟩
        exact closed.trans (ih _)

theorem releaseEngine_givesBack (kept : List Provider) (id : EngineId) (workspace : Workspace σ) :
    GivesBack backend workspace (releaseEngine backend kept id workspace).2 := by
  by_cases held : id ∈ workspace.heldEngines
  · simp only [releaseEngine, if_pos held]
    exact ⟨rfl, rfl, .nothing⟩
  · simp only [releaseEngine, if_neg held]
    have closed := closeUnheld_givesBack backend kept
      (((workspace.engineCache? id).toList.flatMap ProviderCache.values).map (·.provider))
      { workspace with engines := workspace.engines.filter (·.1 != id) }
    exact ⟨closed.slots, closed.cache, closed.calls⟩

theorem releaseKey_givesBack (key : ImportedKey) (workspace : Workspace σ) :
    GivesBack backend workspace (releaseKey backend key workspace).2 := by
  have destroyed : GivesBack backend workspace (onBackend (key.release backend) workspace).2 :=
    ⟨rfl, rfl, .release .nothing (.destroyKey key.raw) rfl⟩
  exact destroyed.trans (closeUnheld_givesBack backend [] [key.provider] _)

theorem releaseItem_givesBack (item : Item) (workspace : Workspace σ) :
    GivesBack backend workspace (releaseItem backend item workspace).2 := by
  have closed := closeUnheld_givesBack backend [] item.provider?.toList
  cases engine : item.engine? with
  | none =>
      cases key : item.key? with
      | none =>
          simp only [releaseItem, engine, key]
          exact closed workspace
      | some imported =>
          simp only [releaseItem, engine, key]
          exact (releaseKey_givesBack backend imported workspace).trans (closed _)
  | some id =>
      have started := releaseEngine_givesBack backend item.providers id workspace
      cases key : item.key? with
      | none =>
          simp only [releaseItem, engine, key]
          exact started.trans (closed _)
      | some imported =>
          simp only [releaseItem, engine, key]
          exact started.trans ((releaseKey_givesBack backend imported _).trans (closed _))

/-- Dropping a name leaves no slot of it and gives handles back. -/
theorem drop_givesBack (name : String) (workspace : Workspace σ) :
    (∀ slot ∈ (drop backend name workspace).2.slots, slot ∈ workspace.slots ∧ slot.1 ≠ name) ∧
      backend.GivesBack workspace.backend (drop backend name workspace).2.backend := by
  cases present : workspace.item? name with
  | none =>
      simp only [drop, bind, StateT.bind, take_of_missing present]
      refine ⟨fun slot member => ⟨member, ?_⟩, .nothing⟩
      rintro rfl
      exact name_not_mem_of_missing present (List.mem_map_of_mem member)
  | some item =>
      have released := releaseItem_givesBack backend item
        { workspace with slots := workspace.slotsWithout name }
      simp only [drop, bind, StateT.bind, take_of_item present]
      refine ⟨?_, released.calls⟩
      have slots : (releaseItem backend item
          { workspace with slots := workspace.slotsWithout name }).2.slots =
            workspace.slotsWithout name := released.slots
      intro slot member
      have remaining : slot ∈ workspace.slotsWithout name := slots ▸ member
      refine ⟨(List.mem_filter.mp remaining).1, ?_⟩
      rintro rfl
      exact name_not_mem_slotsWithout workspace _ (List.mem_map_of_mem remaining)

def dropNames (names : List String) (workspace : Workspace σ) : Workspace σ :=
  names.foldl (fun workspace name => (drop backend name workspace).2) workspace

theorem dropNames_givesBack (names : List String) (workspace : Workspace σ) :
    (∀ slot ∈ (dropNames backend names workspace).slots,
      slot ∈ workspace.slots ∧ slot.1 ∉ names) ∧
      backend.GivesBack workspace.backend (dropNames backend names workspace).backend := by
  induction names generalizing workspace with
  | nil => exact ⟨fun slot member => ⟨member, List.not_mem_nil⟩, .nothing⟩
  | cons name rest ih =>
      obtain ⟨first, before⟩ := drop_givesBack backend name workspace
      obtain ⟨later, after⟩ := ih (drop backend name workspace).2
      refine ⟨fun slot member => ?_, before.trans after⟩
      obtain ⟨present, others⟩ := later slot member
      obtain ⟨start, different⟩ := first slot present
      exact ⟨start, fun listed => (List.mem_cons.mp listed).elim different others⟩

/-- When everything has been dropped, nothing has a name and the cache is gone. -/
theorem dropAll_givesBack (workspace : Workspace σ) :
    ((dropAll backend workspace).2.slots = [] ∧ (dropAll backend workspace).2.cache = none) ∧
      backend.GivesBack workspace.backend (dropAll backend workspace).2.backend := by
  let names := (workspace.slots.map (·.1)).mergeSort fun left right => decide (left ≤ right)
  obtain ⟨remaining, before⟩ := dropNames_givesBack backend names workspace
  have closed := closeUnheld_givesBack backend []
    (((dropNames backend names workspace).cache.toList.flatMap ProviderCache.values).map
      (·.provider)) { dropNames backend names workspace with cache := none }
  refine ⟨⟨?_, closed.cache⟩, before.trans closed.calls⟩
  have empty : (dropNames backend names workspace).slots = [] := by
    rw [List.eq_nil_iff_forall_not_mem]
    intro slot member
    obtain ⟨present, unnamed⟩ := remaining slot member
    exact unnamed ((List.mergeSort_perm _ _).mem_iff.mpr (List.mem_map_of_mem present))
  exact closed.slots.trans empty

variable {backend}

namespace Kept

variable {accounting : backend.Accounting}

theorem namesDropped (names : List String) (kept : Kept accounting [] workspace) :
    Kept accounting [] (dropNames backend names workspace) := by
  induction names generalizing workspace with
  | nil => exact kept
  | cons name rest ih => exact ih (kept.dropped name)

theorem allDropped (kept : Kept accounting [] workspace) :
    Kept accounting [] (dropAll backend workspace).2 :=
  (kept.namesDropped _).cacheDropped

/-- No engine outlives the objects, so without objects and without a cache nothing is held. -/
theorem nothing_held (kept : Kept accounting [] workspace) (slots : workspace.slots = [])
    (cache : workspace.cache = none) : workspace.heldProviders = [] := by
  have items : workspace.items = [] := congrArg (List.map Prod.snd) slots
  have engines : workspace.engines = [] := by
    rw [List.eq_nil_iff_forall_not_mem]
    intro engine member
    have alive := kept.tidy.alive engine.1 (List.mem_map_of_mem member)
    rw [items] at alive
    cases alive
  rw [heldProviders, items, engines, cache]
  rfl

end Kept

end Workspace

end CipherModes
