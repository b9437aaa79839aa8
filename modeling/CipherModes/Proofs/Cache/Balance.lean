import CipherModes.Backend.Recorded
import CipherModes.Proofs.Cache.Course
import CipherModes.Script

/-!
# Open providers and cached values

In the record of a run, the providers that were opened and not closed are those
of the cached values and of the initialisers that have not ended. When nobody is
asking any more, there are as many of them as cached values.
-/

set_option autoImplicit false

namespace CipherModes

/-! ## Providers in a record -/

namespace Event

/-- The open providers after a call, of those before it. -/
def track : Event → List Handle → List Handle
  | ⟨.openProvider _ _, reply⟩, opened =>
      match reply.result with
      | .ok provider => provider :: opened
      | .error _ => opened
  | ⟨.closeProvider provider, reply⟩, opened =>
      match reply.result with
      | .ok _ => opened.erase provider
      | .error _ => opened
  | _, opened => opened

/-- If the call closes a provider, it succeeded. -/
def ClosesWell : Event → Prop
  | ⟨.closeProvider _, reply⟩ => reply.result = .ok ()
  | _ => True

instance : (event : Event) → Decidable event.ClosesWell
  | ⟨.closeProvider _, ⟨.ok (), _, _⟩⟩ => .isTrue rfl
  | ⟨.closeProvider _, ⟨.error _, _, _⟩⟩ => .isFalse nofun
  | ⟨.openProvider .., _⟩ | ⟨.importKey .., _⟩ | ⟨.destroyKey .., _⟩ | ⟨.getProperty .., _⟩
  | ⟨.setProperty .., _⟩ | ⟨.crypt .., _⟩ | ⟨.aeadEncrypt .., _⟩ | ⟨.aeadDecrypt .., _⟩
  | ⟨.fipsEnabled, _⟩ => .isTrue trivial

end Event

/-- The providers that were opened and not closed. -/
def openedProviders (events : List Event) : List Handle :=
  events.foldl (fun opened event => event.track opened) []

theorem openedProviders_concat (events : List Event) (event : Event) :
    openedProviders (events ++ [event]) = event.track (openedProviders events) := by
  rw [openedProviders, List.foldl_append, List.foldl_cons, List.foldl_nil, openedProviders]

/-- Neither opens nor closes a provider. -/
def Call.SparesProviders (call : Call) : Prop :=
  call.operation ≠ .openProvider ∧ call.operation ≠ .closeProvider

theorem Event.track_of_spares {event : Event} (spares : event.call.SparesProviders)
    (opened : List Handle) : event.track opened = opened := by
  obtain ⟨call, reply⟩ := event
  cases call with
  | openProvider => exact absurd rfl spares.1
  | closeProvider => exact absurd rfl spares.2
  | importKey | destroyKey | getProperty | setProperty | crypt | aeadEncrypt | aeadDecrypt
    | fipsEnabled => rfl

/-! ## Runs -/

variable {α σ : Type} {backend : Backend σ} {owned : α → Provider}

/-- Values are made of the provider that an initialiser was given, no other provider is opened or
closed, and the values that the course itself makes are accepted. -/
def Course.Tame (owned : α → Provider) : (accepts : α → Prop) → Course α → Prop
  | accepts, finish result => ∀ value, result = .ok value → accepts value
  | accepts, call request next => request.SparesProviders ∧ ∀ reply, (next reply).Tame owned accepts
  | accepts, look next => ∀ cache, (next cache).Tame owned accepts
  | accepts, acquire _ inner next =>
      (∀ serial provider, (inner serial provider).Tame owned fun value => owned value = provider) ∧
        ∀ result, (next result).Tame owned accepts

/-- If every provider was closed well, then the open ones are some that are being used and those
of the cached values. -/
def Balanced (owned : α → Provider) (used : List Handle)
    (state : Caching α (Recorded σ)) : Prop :=
  (∀ event ∈ state.backend.events, event.ClosesWell) →
    (openedProviders state.backend.events).Perm
      (used ++ state.cache.values.map fun value => (owned value).raw)

namespace Balanced

variable {used : List Handle} {state : Caching α (Recorded σ)} {cache : ProviderCache α}

/-- Another call is balanced by its own event. -/
theorem answer {others : List Handle} (balanced : Balanced owned used state) (call : Call)
    (tracks : (Event.mk call (backend.answer call state.backend.inner).1).ClosesWell →
      ∀ opened : List Handle,
        opened.Perm (used ++ state.cache.values.map fun value => (owned value).raw) →
        ((Event.mk call (backend.answer call state.backend.inner).1).track opened).Perm
          (others ++ state.cache.values.map fun value => (owned value).raw)) :
    Balanced owned others
      { state with backend := (backend.recorded.answer call state.backend).2 } := by
  intro closed
  rw [Backend.recorded] at closed ⊢
  obtain ⟨before, last⟩ := List.forall_mem_append.mp closed
  rw [openedProviders_concat]
  exact tracks (List.forall_mem_singleton.mp last) _ (balanced before)

theorem call (balanced : Balanced owned used state) {request : Call}
    (spares : request.SparesProviders) :
    Balanced owned used
      { state with backend := (backend.recorded.answer request state.backend).2 } := by
  apply balanced.answer
  intro _ opened same
  rwa [Event.track_of_spares spares]

theorem refused (balanced : Balanced owned used state) {algorithm : String}
    {flags : ProviderFlags} {error : CipherError} {next : Recorded σ}
    (failed : Provider.acquire backend.recorded algorithm flags state.backend =
      (.error error, next)) : Balanced owned used { state with backend := next } := by
  have answered : Balanced owned used { state with
      backend := (backend.recorded.answer (.openProvider algorithm flags) state.backend).2 } := by
    apply balanced.answer
    intro _ opened same
    cases replied : (backend.answer (.openProvider algorithm flags) state.backend.inner).1.result with
    | error error => simpa only [Event.track, replied] using same
    | ok raw => simp only [Provider.acquire, Backend.recorded, replied] at failed; cases failed
  have kept : next = (backend.recorded.answer (.openProvider algorithm flags) state.backend).2 := by
    simp only [Provider.acquire] at failed
    split at failed
    · cases failed
      rfl
    · cases failed
  rwa [kept]

theorem opened (balanced : Balanced owned used state) {algorithm : String}
    {flags : ProviderFlags} {provider : Provider} {next : Recorded σ}
    (acquired : Provider.acquire backend.recorded algorithm flags state.backend =
      (.ok provider, next)) :
    Balanced owned (provider.raw :: used) { state with backend := next } := by
  cases replied : (backend.answer (.openProvider algorithm flags) state.backend.inner).1.result with
  | error error =>
      simp only [Provider.acquire, Backend.recorded, replied] at acquired
      cases acquired
  | ok raw =>
      have answered : Balanced owned (raw :: used) { state with
          backend := (backend.recorded.answer (.openProvider algorithm flags) state.backend).2 } := by
        apply balanced.answer
        intro _ opened same
        simp only [Event.track, replied]
        exact same.cons raw
      simp only [Provider.acquire, Backend.recorded, replied] at acquired
      cases acquired
      exact answered

theorem start (balanced : Balanced owned used state) :
    Balanced owned used ⟨state.cache.start, state.backend⟩ := balanced

theorem released {provider : Provider} (balanced : Balanced owned (provider.raw :: used) state) :
    Balanced owned used
      { state with backend := (provider.release backend.recorded state.backend).2 } := by
  apply balanced.answer
  intro closed opened same
  rw [Event.ClosesWell] at closed
  simpa only [Event.track, closed, List.cons_append, List.erase_cons_head] using
    same.erase provider.raw

theorem insert {provider : Provider} {value : α} {key : CacheKey}
    (balanced : Balanced owned (provider.raw :: used) state) (owns : owned value = provider) :
    Balanced owned used { state with cache := state.cache.insert key value } := by
  intro closed
  have added : (state.cache.insert key value).values = state.cache.values ++ [value] :=
    List.map_append
  have moved : (provider.raw :: (used ++ state.cache.values.map fun value => (owned value).raw)).Perm
      (used ++ ((state.cache.values.map fun value => (owned value).raw) ++ [provider.raw])) := by
    rw [← List.append_assoc]
    exact (List.perm_append_singleton _ _).symm
  rw [added, List.map_append, List.map_singleton, owns]
  exact (balanced closed).trans moved

/-- Balance is kept while a cache is asked, whatever else is being used. -/
def keeping (backend : Backend σ) (owned : α → Provider) (others : List Handle) :
    ProviderCache.Keeping backend.recorded owned where
  Keeps used := Balanced owned (used.map Provider.raw ++ others)
  refused balanced failed := balanced.refused failed
  opened balanced acquired := (balanced.opened acquired).start
  released balanced := balanced.released
  inserted balanced := balanced.insert rfl

end Balanced

/-! ## Nested asking -/

theorem Course.run_balanced {accepts : α → Prop} {course : Course α}
    (tame : course.Tame owned accepts) {used : List Handle} {state : Caching α (Recorded σ)}
    (balanced : Balanced owned used state) :
    Balanced owned used (course.run backend.recorded owned state).2 ∧
      ∀ value, (course.run backend.recorded owned state).1 = .ok value → accepts value := by
  induction course generalizing accepts used state with
  | finish result => exact ⟨balanced, tame⟩
  | call request next ih => exact ih _ (tame.2 _) (balanced.call tame.1)
  | look next ih => exact ih _ (tame _) balanced
  | acquire key inner next innerIH nextIH =>
      have ending := ProviderCache.acquire_ending backend.recorded owned key
        (initialiser backend.recorded owned inner) state
      let keeping := Balanced.keeping backend owned used
      have initialises : ∀ serial provider,
          (initialiser backend.recorded owned inner serial provider).Establishes
            (keeping.Keeps [provider])
            (fun value next => owned value = provider ∧ keeping.Keeps [provider] next)
            (keeping.Keeps [provider]) :=
        fun serial provider => .of_outcome fun _ held =>
          innerIH serial provider (tame.1 serial provider) held
      have asked : Balanced owned used _ := ending.keeps keeping initialises balanced
      exact nextIH _ (tame.2 _) asked

end CipherModes
