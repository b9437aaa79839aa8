import CipherModes.Provider

/-!
# The provider cache

A cache opens a provider once for each algorithm, set of flags and mode, and
keeps the value that an initialiser made of it. The initialiser runs while
nothing is cached yet and may itself acquire from the cache. If it puts a value
under the same key first, that value stays: the outer one is given up and its
provider closed. An initialiser that fails has its provider closed, and nothing
is cached for it.
-/

set_option autoImplicit false

namespace CipherModes

/-- What a cached value is found by. -/
structure CacheKey where
  algorithm : String
  flags : ProviderFlags
  mode : String
  deriving DecidableEq, Repr

/-- The cached values, each made of a provider of its own. -/
structure ProviderCache (α : Type) where
  entries : List (CacheKey × α) := []
  /-- How many initialisers have been started; numbers them from one. -/
  started : Nat := 0
  deriving Repr

namespace ProviderCache

variable {α : Type}

def empty : ProviderCache α := {}

def find? (cache : ProviderCache α) (key : CacheKey) : Option α :=
  (cache.entries.find? (·.1 == key)).map (·.2)

/-- Puts a value under a key that has none. -/
def insert (cache : ProviderCache α) (key : CacheKey) (value : α) : ProviderCache α :=
  { cache with entries := cache.entries ++ [(key, value)] }

def size (cache : ProviderCache α) : Nat := cache.entries.length

def values (cache : ProviderCache α) : List α := cache.entries.map (·.2)

end ProviderCache

/-- A cache and the backend that it opens providers on. -/
structure Caching (α σ : Type) where
  cache : ProviderCache α
  backend : σ

namespace Caching

variable {α β σ : Type}

def onBackend (action : StateM σ β) : StateM (Caching α σ) β := fun state =>
  let (value, backend) := action state.backend
  (value, { state with backend })

/-- An operation on the backend alone that may fail. -/
def tryBackend (action : Action σ β) : Action (Caching α σ) β := fun state =>
  let (result, backend) := action state.backend
  (result, { state with backend })

end Caching

/-- What makes a value of a new provider, given the number of its start. -/
abbrev Initialiser (α σ : Type) := Nat → Provider → Action (Caching α σ) α

namespace ProviderCache

variable {α σ : Type}

/-- Starts an initialiser on a new provider, and closes the provider if the
initialiser fails. -/
def initialise (backend : Backend σ) (provider : Provider) (initialiser : Initialiser α σ) :
    Action (Caching α σ) α := fun state =>
  let started := state.cache.started + 1
  match initialiser started provider { state with cache := { state.cache with started } } with
  | (.error error, state) =>
      (.error error, (Caching.onBackend (provider.release backend) state).2)
  | (.ok value, state) => (.ok value, state)

/-- Keeps a new value, unless its key has got another one in the meantime: then
the provider of the new value is closed and the other value is the answer. -/
def settle (backend : Backend σ) (owned : α → Provider) (key : CacheKey) (candidate : α) :
    StateM (Caching α σ) α := fun state =>
  match state.cache.find? key with
  | none => (candidate, { state with cache := state.cache.insert key candidate })
  | some winner =>
      (winner, (Caching.onBackend ((owned candidate).release backend) state).2)

/-- The value under a key: the cached one, or one made of a new provider. -/
def acquire (backend : Backend σ) (owned : α → Provider) (key : CacheKey)
    (initialiser : Initialiser α σ) : Action (Caching α σ) α := fun state =>
  match state.cache.find? key with
  | some value => (.ok value, state)
  | none =>
      match Caching.tryBackend (Provider.acquire backend key.algorithm key.flags) state with
      | (.error error, state) => (.error error, state)
      | (.ok provider, state) =>
          match initialise backend provider initialiser state with
          | (.error error, state) => (.error error, state)
          | (.ok candidate, state) =>
              let (value, state) := settle backend owned key candidate state
              (.ok value, state)

end ProviderCache

end CipherModes
