import CipherModes.Proofs.Accounts.Workspace

/-!
# Giving back

When an object or a cache is given up, what nobody else holds is given back: an
engine with its providers first, then a key, then its provider. A provider is
closed once, and only when no key is left in it.
-/

set_option autoImplicit false

namespace CipherModes

open Backend (Accounting)

variable {σ : Type} {backend : Backend σ} {accounting : backend.Accounting}

namespace Workspace

variable {loose : List Item} {workspace : Workspace σ}

theorem closeUnheld_holds {facts : Prop} {kept closing held : List Provider}
    {keys : List ImportedKey} (nodup : facts → closing.Nodup)
    (same : ∀ provider, provider ∈ kept ++ workspace.heldProviders ↔ provider ∈ held)
    (covered : ∀ key ∈ keys, key.provider ∈ held)
    (holds : accounting.Holds facts (closing ++ held) keys workspace.backend) :
    ∃ final, (closeUnheld backend kept closing workspace).2 = { workspace with backend := final } ∧
      accounting.Holds facts held keys final := by
  induction closing generalizing workspace with
  | nil => exact ⟨workspace.backend, rfl, holds⟩
  | cons provider rest ih =>
      have unique : facts → rest.Nodup := fun known => (List.nodup_cons.mp (nodup known)).2
      by_cases present : provider ∈ kept ++ workspace.heldProviders
      · simp only [closeUnheld, if_pos present]
        apply ih unique same
        apply holds.mono
        refine fun known => ⟨known, ?_, .refl _⟩
        intro other
        rw [List.cons_append, List.mem_cons]
        constructor
        · rintro (rfl | member)
          · exact List.mem_append_right _ ((same _).mp present)
          · exact member
        · exact .inr
      · simp only [closeUnheld, if_neg present, onBackend]
        refine @ih { workspace with backend := (provider.release backend workspace.backend).2 }
          unique same ?_
        apply Accounting.Holds.release _ holds
        intro known
        have once := (List.nodup_cons.mp (nodup known)).1
        constructor
        · intro member
          exact (List.mem_append.mp member).elim once fun other => present ((same _).mpr other)
        · exact fun key member => List.mem_append_right _ (covered key member)

namespace Kept

/-- Providers that lose a holder are closed if they have no other. -/
theorem closed {kept closing : List Provider} (tidy : workspace.Tidy loose)
    (same : ∀ provider, provider ∈ kept ↔ provider ∈ loose.flatMap Item.providers)
    (holds : accounting.Holds (workspace.Distinct ∧ closing.Nodup)
      (closing ++ ((loose ++ workspace.items).flatMap Item.providers ++ workspace.cachedProviders))
      ((loose ++ workspace.items).filterMap Item.key?) workspace.backend) :
    Kept accounting loose (closeUnheld backend kept closing workspace).2 := by
  have members : ∀ provider, provider ∈ kept ++ workspace.heldProviders ↔ provider ∈
      (loose ++ workspace.items).flatMap Item.providers ++ workspace.cachedProviders := by
    intro provider
    rw [heldProviders_eq, List.flatMap_append, List.append_assoc, List.mem_append, same provider,
      ← List.mem_append]
  obtain ⟨final, finished, last⟩ := closeUnheld_holds And.right members
    (fun key member => List.mem_append_left _ (provider_mem_of_key member)) holds
  rw [finished]
  exact ⟨tidy.onBackend final, last.mono fun known => ⟨known.1, fun _ => Iff.rfl, .refl _⟩⟩

/-- A loose provider is closed if nobody else holds it. -/
theorem providerReleased {provider : Provider}
    (kept : Kept accounting [.provider provider] workspace) :
    Kept accounting [] (closeUnheld backend [] [provider] workspace).2 := by
  have tidy : workspace.Tidy [] := kept.tidy.instead nofun
  apply closed tidy fun _ => Iff.rfl
  exact kept.holds.mono fun known =>
    ⟨⟨known, List.pairwise_singleton ..⟩, fun _ => Iff.rfl, .refl _⟩

/-- A loose key is destroyed before its provider may be closed. -/
theorem keyReleased {key : ImportedKey} (kept : Kept accounting [.key key] workspace) :
    Kept accounting [] (releaseKey backend key workspace).2 := by
  have tidy : workspace.Tidy [.provider key.provider] := kept.tidy.instead nofun
  exact providerReleased ⟨tidy.onBackend _, kept.holds.releaseKey⟩

/-- An engine goes with its last object, and its providers with it. -/
theorem engineReleased {item : Item} {id : EngineId} (engine : item.engine? = some id)
    (kept : Kept accounting [item] workspace) :
    Kept accounting item.unbound (releaseEngine backend item.providers id workspace).2 := by
  by_cases held : id ∈ workspace.heldEngines
  · simp only [releaseEngine, if_pos held]
    apply kept.passed kept.tidy.names
    apply Item.PassTo.unbound
    intro other same
    rw [engine] at same
    cases same
    exact held
  · simp only [releaseEngine, if_neg held]
    have tidy : Tidy item.unbound
        { workspace with engines := workspace.engines.filter (·.1 != id) } := by
      have fewer : ((workspace.engines.filter (·.1 != id)).map Prod.fst).Sublist
          (workspace.engines.map Prod.fst) := List.filter_sublist.map _
      refine ⟨kept.tidy.names, fewer.nodup kept.tidy.ids,
        fun other member => kept.tidy.numbered other (fewer.subset member), ?_⟩
      intro other member
      have different : other ≠ id := by
        rintro rfl
        obtain ⟨remaining, present, same⟩ := List.mem_map.mp member
        simp [same] at present
      have alive := kept.tidy.alive other (fewer.subset member)
      rw [List.singleton_append, List.filterMap_cons, engine, List.mem_cons] at alive
      rw [List.filterMap_append]
      exact List.mem_append_right _ (alive.resolve_left different)
    apply closed tidy fun provider => Item.mem_providers_unbound.symm
    obtain ⟨perm, apart⟩ := cachedProviders_without kept.tidy.ids id
    apply kept.holds.mono
    refine fun distinct => ⟨apart distinct, ?_, .of_eq (Item.keys_unbound ..)⟩
    intro provider
    rw [List.mem_append, perm.mem_iff, List.mem_append, List.mem_append, List.mem_append,
      ← Item.providers_unbound]
    exact or_left_comm

/-- What is left of an object without its engine is given back. -/
theorem unboundReleased {item : Item} (kept : Kept accounting item.unbound workspace) :
    Kept accounting [] ((do
      match item.key? with
      | none => pure ()
      | some key => releaseKey backend key
      closeUnheld backend [] item.provider?.toList : StateM (Workspace σ) Unit) workspace).2 := by
  rw [Item.unbound] at kept
  cases key : item.key? with
  | some imported =>
      rw [key, Item.provider?_of_key? key] at kept
      rw [Item.provider?_of_key? key]
      exact kept.keyReleased
  | none =>
      rw [key] at kept
      cases provider : item.provider? with
      | some opened =>
          rw [provider] at kept
          exact kept.providerReleased
      | none =>
          rw [provider] at kept
          exact kept

/-- What a loose object held is given back. -/
theorem itemReleased {item : Item} (kept : Kept accounting [item] workspace) :
    Kept accounting [] (releaseItem backend item workspace).2 := by
  cases engine : item.engine? with
  | none =>
      have engineless : ∀ id, item.engine? = some id → id ∈ [].filterMap Item.engine? := by
        rw [engine]
        exact nofun
      have passes := Item.PassTo.unbound engineless
      rw [List.append_nil] at passes
      simp only [releaseItem, engine]
      exact (kept.dressed passes).unboundReleased
  | some id =>
      simp only [releaseItem, engine]
      exact (kept.engineReleased engine).unboundReleased

/-- A loose object takes a name; the object that had it is given up. -/
theorem stored {name : String} {item : Item} (kept : Kept accounting [item] workspace) :
    Kept accounting [] (store backend name item workspace).2 := by
  cases present : workspace.item? name with
  | none =>
      simp only [store, bind, StateT.bind, take_of_missing present]
      exact kept.put (name_not_mem_of_missing present)
  | some old =>
      simp only [store, bind, StateT.bind, take_of_item present]
      have both : Kept accounting [item, old]
          { workspace with slots := workspace.slotsWithout name } :=
        (kept.taken present).dressed (.of_perm (.swap ..))
      exact (both.put (name_not_mem_slotsWithout workspace name)).itemReleased

theorem dropped (name : String) (kept : Kept accounting [] workspace) :
    Kept accounting [] (drop backend name workspace).2 := by
  cases present : workspace.item? name with
  | none =>
      simp only [drop, bind, StateT.bind, take_of_missing present]
      exact kept
  | some item =>
      simp only [drop, bind, StateT.bind, take_of_item present]
      exact (kept.taken present).itemReleased

theorem cacheDropped (kept : Kept accounting [] workspace) :
    Kept accounting [] (dropCache backend workspace).2 := by
  have tidy : Tidy [] { workspace with cache := none } :=
    ⟨kept.tidy.names, kept.tidy.ids, kept.tidy.numbered, kept.tidy.alive⟩
  apply closed tidy fun _ => Iff.rfl
  apply kept.holds.mono
  rintro ⟨engines, cache⟩
  refine ⟨⟨⟨engines, nofun⟩, ?_⟩, ?_, .refl _⟩
  · cases cached : workspace.cache with
    | none => exact .nil
    | some values =>
        rw [Option.toList_some, List.flatMap_cons, List.flatMap_nil, List.append_nil]
        exact cache values cached
  · intro provider
    simp only [cachedProviders, List.mem_append, Option.toList_none, List.flatMap_nil, List.map_nil,
      List.append_nil]
    exact or_assoc.symm.trans or_comm

end Kept

end Workspace

end CipherModes
