import CipherModes.Proofs.Cache.Ending
import CipherModes.Proofs.Engine.Coherence

/-!
# Nested initialisers

An initialiser may ask the same cache for more values, for its own key too, and
the initialisers of those may do the same. Between asking and keeping, the cache
has changed; but it only ever grows, and what is answered stays its answer.
-/

set_option autoImplicit false

namespace CipherModes

/-- What someone who has a cache does with it, for instance an initialiser: makes calls, looks
at the cache, asks it for values by further initialisers, and ends. -/
inductive Course (α : Type)
  | finish (result : Except CipherError α)
  | call (request : Call) (next : Reply request → Course α)
  | look (next : ProviderCache α → Course α)
  /-- Asks for a value. The inner course is given its number and its provider. -/
  | acquire (key : CacheKey) (inner : Nat → Provider → Course α)
      (next : Except CipherError α → Course α)

namespace Course

variable {α σ : Type}

def run (backend : Backend σ) (owned : α → Provider) : Course α → Action (Caching α σ) α
  | finish result, state => (result, state)
  | call request next, state =>
      let (reply, answered) := backend.answer request state.backend
      run backend owned (next reply) { state with backend := answered }
  | look next, state => run backend owned (next state.cache) state
  | acquire key inner next, state =>
      let (result, later) := ProviderCache.acquire backend owned key
        (fun serial provider => run backend owned (inner serial provider)) state
      run backend owned (next result) later

theorem run_call (backend : Backend σ) (owned : α → Provider) (request : Call)
    (next : Reply request → Course α) (state : Caching α σ) :
    (call request next).run backend owned state =
      (next (backend.answer request state.backend).1).run backend owned
        { state with backend := (backend.answer request state.backend).2 } := rfl

/-- What makes a value by a course. -/
def initialiser (backend : Backend σ) (owned : α → Provider)
    (inner : Nat → Provider → Course α) : Initialiser α σ :=
  fun serial provider => (inner serial provider).run backend owned

/-- In the run of a course from a state, the cache is asked for a key in another state, by the
course itself or by a course within it. -/
inductive Asks (backend : Backend σ) (owned : α → Provider) :
    Course α → Caching α σ → CacheKey → (Nat → Provider → Course α) → Caching α σ → Prop where
  | here {key : CacheKey} {inner : Nat → Provider → Course α}
      {next : Except CipherError α → Course α} {state : Caching α σ} :
      Asks backend owned (.acquire key inner next) state key inner state
  | within {key asked : CacheKey} {inner deeper : Nat → Provider → Course α}
      {next : Except CipherError α → Course α} {state before : Caching α σ}
      {provider : Provider} {opened : σ} (missing : state.cache.find? key = none)
      (acquired : Provider.acquire backend key.algorithm key.flags state.backend =
        (.ok provider, opened)) :
      Asks backend owned (inner (state.cache.started + 1) provider) ⟨state.cache.start, opened⟩
        asked deeper before →
      Asks backend owned (.acquire key inner next) state asked deeper before
  | after {key asked : CacheKey} {inner other : Nat → Provider → Course α}
      {next : Except CipherError α → Course α} {state before : Caching α σ} :
      Asks backend owned
        (next (ProviderCache.acquire backend owned key (initialiser backend owned inner) state).1)
        (ProviderCache.acquire backend owned key (initialiser backend owned inner) state).2
        asked other before →
      Asks backend owned (.acquire key inner next) state asked other before
  | called {request : Call} {next : Reply request → Course α} {asked : CacheKey}
      {other : Nat → Provider → Course α} {state before : Caching α σ} :
      Asks backend owned (next (backend.answer request state.backend).1)
        { state with backend := (backend.answer request state.backend).2 } asked other before →
      Asks backend owned (.call request next) state asked other before
  | looked {next : ProviderCache α → Course α} {asked : CacheKey}
      {other : Nat → Provider → Course α} {state before : Caching α σ} :
      Asks backend owned (next state.cache) state asked other before →
      Asks backend owned (.look next) state asked other before

end Course

/-! ## Caches grow -/

namespace ProviderCache

variable {α σ : Type} {cache last : ProviderCache α} {key : CacheKey} {value : α}

def keys (cache : ProviderCache α) : List CacheKey := cache.entries.map (·.1)

theorem find?_eq_none_iff : cache.find? key = none ↔ key ∉ cache.keys := by
  simp only [find?, keys, Option.map_eq_none_iff, List.find?_eq_none, List.mem_map, beq_iff_eq,
    not_exists, not_and]

/-- What is found in a cache is found in every larger one. -/
theorem find?_of_grown (grows : cache.entries <+: last.entries)
    (found : cache.find? key = some value) : last.find? key = some value := by
  obtain ⟨added, same⟩ := grows
  rw [find?] at found ⊢
  rw [← same, List.find?_append]
  obtain ⟨entry, present, rfl⟩ := Option.map_eq_some_iff.mp found
  rw [present]
  rfl

theorem find?_insert (missing : cache.find? key = none) :
    (cache.insert key value).find? key = some value := by
  rw [find?, Option.map_eq_none_iff] at missing
  rw [find?, insert, List.find?_append, missing]
  simp

/-- Nothing was replaced or removed, and each key still has at most one value. -/
structure Grows (cache last : ProviderCache α) : Prop where
  entries_kept : cache.entries <+: last.entries
  nodup : cache.keys.Nodup → last.keys.Nodup

namespace Grows

theorem refl (cache : ProviderCache α) : Grows cache cache := ⟨List.prefix_rfl, id⟩

theorem trans {middle : ProviderCache α} (first : Grows cache middle)
    (second : Grows middle last) : Grows cache last :=
  ⟨first.entries_kept.trans second.entries_kept, second.nodup ∘ first.nodup⟩

/-- The number of starts is not what grows. -/
theorem of_start (grows : Grows cache.start last) : Grows cache last :=
  ⟨grows.entries_kept, grows.nodup⟩

theorem insert (cache : ProviderCache α) (missing : cache.find? key = none) (value : α) :
    Grows cache (cache.insert key value) := by
  constructor
  case entries_kept => exact List.prefix_append ..
  case nodup =>
    intro nodup
    have absent := find?_eq_none_iff.mp missing
    have keys : (cache.insert key value).keys = cache.keys ++ [key] := List.map_append
    rw [keys]
    have one : [key].Nodup := List.pairwise_singleton ..
    refine List.nodup_append.mpr ⟨nodup, one, ?_⟩
    intro other member new alone
    rw [List.mem_singleton.mp alone]
    rintro rfl
    exact absent member

end Grows

/-- Where its initialiser only lets the cache grow, so does asking for a value. -/
theorem Ending.grows {backend : Backend σ} {owned : α → Provider}
    {initialiser : Initialiser α σ} {state : Caching α σ}
    {outcome : Except CipherError α × Caching α σ}
    (ending : Ending backend owned key initialiser state outcome)
    (grows : ∀ provider opened, Provider.acquire backend key.algorithm key.flags state.backend =
      (.ok provider, opened) → Grows state.cache
        (initialiser (state.cache.started + 1) provider ⟨state.cache.start, opened⟩).2.cache) :
    Grows state.cache outcome.2.cache := by
  cases ending with
  | hit | unopened => exact .refl _
  | failed missing acquired ran | lost missing acquired ran =>
      have inner := grows _ _ acquired
      rw [ran] at inner
      exact inner
  | won missing acquired ran first =>
      have inner := grows _ _ acquired
      rw [ran] at inner
      exact inner.trans (.insert _ first _)

/-- What its initialiser put into the cache stays there. -/
theorem Ending.grows_after {backend : Backend σ} {owned : α → Provider}
    {initialiser : Initialiser α σ} {state : Caching α σ} {provider : Provider} {opened : σ}
    {outcome : Except CipherError α × Caching α σ}
    (ending : Ending backend owned key initialiser state outcome)
    (missing : state.cache.find? key = none)
    (acquired : Provider.acquire backend key.algorithm key.flags state.backend =
      (.ok provider, opened)) :
    Grows (initialiser (state.cache.started + 1) provider ⟨state.cache.start, opened⟩).2.cache
      outcome.2.cache := by
  cases ending with
  | hit found => cases missing.symm.trans found
  | unopened _ refused => cases acquired.symm.trans refused
  | failed _ again ran | lost _ again ran =>
      cases acquired.symm.trans again
      rw [ran]
      exact .refl _
  | won _ again ran first =>
      cases acquired.symm.trans again
      rw [ran]
      exact .insert _ first _

/-- A value that was answered is the one under its key. -/
theorem Ending.find?_of_ok {backend : Backend σ} {owned : α → Provider}
    {initialiser : Initialiser α σ} {state after : Caching α σ}
    (ending : Ending backend owned key initialiser state (.ok value, after)) :
    after.cache.find? key = some value := by
  cases ending with
  | hit found => exact found
  | won missing acquired ran first => exact find?_insert first
  | lost missing acquired ran late => exact late

end ProviderCache

namespace Course

variable {α σ : Type} {backend : Backend σ} {owned : α → Provider} {course : Course α}
  {state before : Caching α σ} {key : CacheKey} {inner : Nat → Provider → Course α}

theorem run_grows (backend : Backend σ) (owned : α → Provider) (course : Course α)
    (state : Caching α σ) :
    ProviderCache.Grows state.cache (course.run backend owned state).2.cache := by
  induction course generalizing state with
  | finish result => exact ProviderCache.Grows.refl state.cache
  | call request next ih =>
      exact ih _ { state with backend := (backend.answer request state.backend).2 }
  | look next ih => exact ih _ state
  | acquire key inner next innerIH nextIH =>
      have ending := ProviderCache.acquire_ending backend owned key
        (initialiser backend owned inner) state
      have asked := ending.grows fun provider opened _ =>
        ProviderCache.Grows.of_start
          (innerIH (state.cache.started + 1) provider ⟨state.cache.start, opened⟩)
      exact asked.trans (nextIH _ _)

theorem acquire_grows (backend : Backend σ) (owned : α → Provider) (key : CacheKey)
    (inner : Nat → Provider → Course α) (state : Caching α σ) :
    ProviderCache.Grows state.cache
      (ProviderCache.acquire backend owned key (initialiser backend owned inner) state).2.cache :=
  run_grows backend owned (.acquire key inner .finish) state

/-- Wherever the cache is asked, it has grown since the start and will have grown at the end. -/
theorem Asks.grows (asks : Asks backend owned course state key inner before) :
    ProviderCache.Grows state.cache before.cache ∧
      ProviderCache.Grows
        (ProviderCache.acquire backend owned key (initialiser backend owned inner) before).2.cache
        (course.run backend owned state).2.cache := by
  induction asks with
  | @here key inner next state => exact ⟨.refl _, run_grows backend owned (next _) _⟩
  | @within key asked inner deeper next state before provider opened missing acquired _ ih =>
      obtain ⟨sofar, remaining⟩ := ih
      have kept := (ProviderCache.acquire_ending backend owned key
        (initialiser backend owned inner) state).grows_after missing acquired
      exact ⟨.of_start sofar, (remaining.trans kept).trans (run_grows backend owned (next _) _)⟩
  | @after key asked inner other next state before _ ih =>
      obtain ⟨sofar, remaining⟩ := ih
      exact ⟨(acquire_grows backend owned key inner state).trans sofar, remaining⟩
  | called _ ih => exact ih
  | looked _ ih => exact ih

end Course

end CipherModes
