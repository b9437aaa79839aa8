import CipherModes.Workspace.Item

/-!
# A workspace

Named objects over one backend, with the engines and the cache that they share.
Objects share providers and engines, so what an object held is given back only
when nothing else holds it: an engine goes with the last object made from it,
and a provider with the last cache, object or key that refers to it. A key is
destroyed before its provider is closed.
-/

set_option autoImplicit false

namespace CipherModes

/-- Named objects over one backend. -/
structure Workspace (σ : Type) where
  backend : σ
  slots : List (String × Item)
  engines : List (EngineId × ProviderCache AesAlgorithm)
  nextEngine : EngineId
  cache : Option (ProviderCache ScriptedValue)

namespace Workspace

variable {σ α : Type}

def engineSlot : String := "engine"

def fresh (backend : σ) : Workspace σ where
  backend
  slots := [(engineSlot, .engine 0)]
  engines := [(0, .empty)]
  nextEngine := 1
  cache := some .empty

def item? (workspace : Workspace σ) (name : String) : Option Item :=
  (workspace.slots.find? (·.1 == name)).map (·.2)

def items (workspace : Workspace σ) : List Item := workspace.slots.map (·.2)

def engineCache? (workspace : Workspace σ) (engine : EngineId) :
    Option (ProviderCache AesAlgorithm) :=
  (workspace.engines.find? (·.1 == engine)).map (·.2)

def heldProviders (workspace : Workspace σ) : List Provider :=
  workspace.items.flatMap Item.providers ++
    workspace.engines.flatMap (fun engine => engine.2.values.map (·.provider)) ++
    (workspace.cache.toList.flatMap ProviderCache.values).map (·.provider)

def heldEngines (workspace : Workspace σ) : List EngineId :=
  workspace.items.filterMap Item.engine?

def onBackend (action : StateM σ α) : StateM (Workspace σ) α := fun workspace =>
  let (value, backend) := action workspace.backend
  (value, { workspace with backend })

/-- An operation on an engine, none if it is gone. -/
def onEngine (engine : EngineId) (action : Action (Driven σ) α) :
    StateM (Workspace σ) (Option (Except CipherError α)) := fun workspace =>
  match workspace.engineCache? engine with
  | none => (none, workspace)
  | some cache =>
      let (result, driven) := action { cache, backend := workspace.backend }
      let engines := workspace.engines.map fun entry =>
        if entry.1 == engine then (entry.1, driven.cache) else entry
      (some result, { workspace with backend := driven.backend, engines })

def onCache (action : Action (Caching ScriptedValue σ) α) :
    StateM (Workspace σ) (Option (Except CipherError α)) := fun workspace =>
  match workspace.cache with
  | none => (none, workspace)
  | some cache =>
      let (result, caching) := action { cache, backend := workspace.backend }
      (some result, { workspace with backend := caching.backend, cache := some caching.cache })

/-- Closes the providers that nothing refers to any more; `kept` are referred
to by an object that is being given up. -/
def closeUnheld (backend : Backend σ) (kept : List Provider) :
    List Provider → StateM (Workspace σ) Unit
  | [] => return ()
  | provider :: rest => fun workspace =>
      let (_, workspace) :=
        if provider ∈ kept ++ workspace.heldProviders then ((), workspace)
        else onBackend (provider.release backend) workspace
      closeUnheld backend kept rest workspace

/-- Gives up an engine that no object refers to, with its providers. -/
def releaseEngine (backend : Backend σ) (kept : List Provider) (engine : EngineId) :
    StateM (Workspace σ) Unit := fun workspace =>
  if engine ∈ workspace.heldEngines then ((), workspace)
  else
    let cached := ((workspace.engineCache? engine).toList.flatMap ProviderCache.values).map
      (·.provider)
    let engines := workspace.engines.filter (·.1 != engine)
    closeUnheld backend kept cached { workspace with engines }

/-- Destroys a key, and closes its provider if nothing else refers to it. -/
def releaseKey (backend : Backend σ) (key : ImportedKey) : StateM (Workspace σ) Unit := do
  onBackend (key.release backend)
  closeUnheld backend [] [key.provider]

/-- Gives back what an object held that has no name any more: first its engine,
then its key, then its provider. -/
def releaseItem (backend : Backend σ) (item : Item) : StateM (Workspace σ) Unit := do
  match item.engine? with
  | none => pure ()
  | some engine => releaseEngine backend item.providers engine
  match item.key? with
  | none => pure ()
  | some key => releaseKey backend key
  closeUnheld backend [] item.provider?.toList

/-- Takes the object of a name out of the workspace, with the streams made from
it, and keeps what it held. -/
def take (name : String) : StateM (Workspace σ) (Option Item) := fun workspace =>
  match workspace.item? name with
  | none => (none, workspace)
  | some item =>
      let slots := workspace.slots.filter fun slot =>
        slot.1 != name && !slot.2.isStreamOf name
      (some item, { workspace with slots })

/-- Drops the object of a name: whether there was one. -/
def drop (backend : Backend σ) (name : String) : StateM (Workspace σ) Bool := do
  match ← take name with
  | none => return false
  | some item =>
      releaseItem backend item
      return true

/-- Names a new object; the one that had the name is dropped. -/
def store (backend : Backend σ) (name : String) (item : Item) : StateM (Workspace σ) Unit := do
  let old ← take name
  modify fun workspace => { workspace with slots := workspace.slots ++ [(name, item)] }
  match old with
  | none => pure ()
  | some old => releaseItem backend old

def update (name : String) (item : Item) : StateM (Workspace σ) Unit :=
  modify fun workspace =>
    { workspace with
      slots := workspace.slots.map fun slot => if slot.1 == name then (slot.1, item) else slot }

/-- Gives up the cache, if it is still there, with its providers. -/
def dropCache (backend : Backend σ) : StateM (Workspace σ) Unit := fun workspace =>
  let cached := (workspace.cache.toList.flatMap ProviderCache.values).map (·.provider)
  closeUnheld backend [] cached { workspace with cache := none }

/-- Drops all objects in the order of their names, then the cache. -/
def dropAll (backend : Backend σ) : StateM (Workspace σ) Unit := fun workspace =>
  let names := (workspace.slots.map (·.1)).mergeSort fun left right => decide (left ≤ right)
  let workspace := names.foldl (fun workspace name => (drop backend name workspace).2) workspace
  dropCache backend workspace

end Workspace

end CipherModes
