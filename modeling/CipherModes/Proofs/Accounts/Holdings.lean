import CipherModes.Workspace.Item
import Mathlib.Data.List.Perm.Basic

/-!
# What objects hold

Engines, keys and providers pass from some objects to others when objects are
named, renamed, taken apart or changed.
-/

set_option autoImplicit false

namespace CipherModes

namespace Item

/-- Two objects keep the same alive. -/
def HoldsAs (item other : Item) : Prop :=
  item.engine? = other.engine? ∧ item.key? = other.key? ∧ item.provider? = other.provider?

/-- The object keeps nothing alive. -/
def Bare (item : Item) : Prop :=
  item.engine? = none ∧ item.key? = none ∧ item.provider? = none

theorem bare_of_isStreamOf {item : Item} {source : String} (stream : item.isStreamOf source) :
    item.Bare := by
  cases item <;> first | exact ⟨rfl, rfl, rfl⟩ | cases stream

theorem Bare.holdsAs {item other : Item} (bare : item.Bare) (alike : other.Bare) :
    item.HoldsAs other :=
  ⟨bare.1.trans alike.1.symm, bare.2.1.trans alike.2.1.symm, bare.2.2.trans alike.2.2.symm⟩

/-- No object holds a provider beside the one of its key. -/
theorem provider?_of_key? {item : Item} {key : ImportedKey} (holds : item.key? = some key) :
    item.provider? = none := by
  cases item <;> first | rfl | cases holds

/-- What some objects hold passes to others, which may keep more engines alive. -/
structure PassTo (items others : List Item) : Prop where
  engines : ∀ id, id ∈ items.filterMap engine? → id ∈ others.filterMap engine?
  providers : ∀ provider, provider ∈ items.flatMap providers ↔ provider ∈ others.flatMap providers
  keys : (items.filterMap key?).Perm (others.filterMap key?)

namespace PassTo

variable {items others last : List Item}

theorem trans (first : PassTo items others) (second : PassTo others last) : PassTo items last :=
  ⟨fun id member => second.engines id (first.engines id member),
    fun provider => (first.providers provider).trans (second.providers provider),
    first.keys.trans second.keys⟩

theorem of_perm (perm : items.Perm others) : PassTo items others :=
  ⟨fun _ => (perm.filterMap _).mem_iff.mp, fun _ => (perm.flatMap_right _).mem_iff,
    perm.filterMap _⟩

theorem cons {item other : Item} (same : item.HoldsAs other) (passes : PassTo items others) :
    PassTo (item :: items) (other :: others) := by
  obtain ⟨engine, key, provider⟩ := same
  constructor
  case engines =>
    intro id
    simp only [List.filterMap_cons, engine]
    cases other.engine? with
    | none => exact passes.engines id
    | some held =>
        simp only [List.mem_cons]
        exact Or.imp_right (passes.engines id)
  case providers =>
    intro held
    rw [List.flatMap_cons, List.flatMap_cons, List.mem_append, List.mem_append,
      passes.providers held, Item.providers, Item.providers, key, provider]
  case keys =>
    simp only [List.filterMap_cons, key]
    cases other.key? with
    | none => exact passes.keys
    | some held => exact passes.keys.cons held

theorem refl (items : List Item) : PassTo items items := of_perm (.refl items)

theorem append_left (passes : PassTo items others) (loose : List Item) :
    PassTo (loose ++ items) (loose ++ others) := by
  induction loose with
  | nil => exact passes
  | cons item rest ih => exact ih.cons ⟨rfl, rfl, rfl⟩

theorem of_key {item : Item} {imported : ImportedKey} (holds : item.key? = some imported) :
    PassTo [.key imported] [item] := by
  have opened : [item].flatMap Item.providers = [imported.provider] := by
    rw [List.flatMap_cons, Item.providers, holds, provider?_of_key? holds]
    rfl
  have live : [item].filterMap key? = [imported] := by
    rw [List.filterMap_cons, holds]
    rfl
  exact ⟨nofun, fun _ => opened ▸ Iff.rfl, .of_eq live.symm⟩

theorem of_nothing {item : Item} (keyless : item.key? = none)
    (providerless : item.provider? = none) : PassTo [] [item] := by
  have closed : [item].flatMap Item.providers = [] := by
    rw [List.flatMap_cons, Item.providers, keyless, providerless]
    rfl
  have dead : [item].filterMap key? = [] := by
    rw [List.filterMap_cons, keyless]
    rfl
  exact ⟨nofun, fun _ => closed ▸ Iff.rfl, .of_eq dead.symm⟩

theorem of_bare {item : Item} (bare : item.Bare) (items : List Item) :
    PassTo (item :: items) items := by
  obtain ⟨engine, key, provider⟩ := bare
  constructor
  case engines =>
    intro id
    simp only [List.filterMap_cons, engine]
    exact fun member => member
  case providers =>
    intro held
    simp only [List.flatMap_cons, Item.providers, key, provider]
    rfl
  case keys => simp only [List.filterMap_cons, key, List.Perm.refl]

/-- Bare objects can be left out. -/
theorem filter {kept : Item → Bool} (bare : ∀ item ∈ items, kept item = false → item.Bare) :
    PassTo items (items.filter kept) := by
  induction items with
  | nil => exact .refl []
  | cons item rest ih =>
      obtain ⟨first, later⟩ := List.forall_mem_cons.mp bare
      cases chosen : kept item with
      | true =>
          rw [List.filter_cons_of_pos chosen]
          exact (ih later).cons ⟨rfl, rfl, rfl⟩
      | false =>
          rw [List.filter_cons_of_neg (by simpa using chosen)]
          exact (of_bare (first chosen) rest).trans (ih later)

theorem map {α : Type} {slots : List α} {before after : α → Item}
    (same : ∀ slot ∈ slots, (before slot).HoldsAs (after slot)) :
    PassTo (slots.map before) (slots.map after) := by
  induction slots with
  | nil => exact .refl []
  | cons slot rest ih =>
      obtain ⟨first, later⟩ := List.forall_mem_cons.mp same
      exact (ih later).cons first

end PassTo

/-- What is left of an object without its engine. -/
def unbound (item : Item) : List Item :=
  item.key?.toList.map .key ++ item.provider?.toList.map .provider

theorem mem_providers_unbound {item : Item} {provider : Provider} :
    provider ∈ item.unbound.flatMap providers ↔ provider ∈ item.providers := by
  rw [unbound, Item.providers]
  cases item.key? <;> cases item.provider? <;> simp [providers, key?, provider?, or_comm]

theorem providers_unbound (item : Item) (items : List Item) (provider : Provider) :
    provider ∈ (item :: items).flatMap providers ↔
      provider ∈ (item.unbound ++ items).flatMap providers := by
  rw [List.flatMap_cons, List.flatMap_append, List.mem_append, List.mem_append,
    mem_providers_unbound]

theorem keys_unbound (item : Item) (items : List Item) :
    (item :: items).filterMap key? = (item.unbound ++ items).filterMap key? := by
  rw [List.filterMap_append, List.filterMap_cons, unbound]
  cases item.key? <;> cases item.provider? <;> rfl

/-- An object without its engine holds as much, if the engine is kept alive by another. -/
theorem PassTo.unbound {item : Item} {items : List Item}
    (alive : ∀ id, item.engine? = some id → id ∈ items.filterMap engine?) :
    PassTo (item :: items) (item.unbound ++ items) := by
  refine ⟨?_, providers_unbound item items, .of_eq (keys_unbound item items)⟩
  intro id member
  rw [List.filterMap_append]
  apply List.mem_append_right
  rw [List.filterMap_cons] at member
  cases engine : item.engine? with
  | none => rwa [engine] at member
  | some held =>
      rw [engine] at member
      rcases List.mem_cons.mp member with rfl | member
      · exact alive id engine
      · exact member

end Item

end CipherModes
