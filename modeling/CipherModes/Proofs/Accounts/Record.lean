import CipherModes.Proofs.Accounts.Layers
import CipherModes.Proofs.Cache.Balance
import CipherModes.Proofs.Token.Accounting

/-!
# Accounts after each call

While an operation is under way, a handle is held from the call that issued it
until the call that gives it back. So the record tells after each call what is
held, and the token has just that.
-/

set_option autoImplicit false

namespace CipherModes

/-! ## Calls one after another -/

namespace Backend

variable {σ : Type} {backend : Backend σ} {initial middle last : σ} {events later : List Event}

/-- From one state of a backend to another, these calls were made and answered. -/
inductive Leads (backend : Backend σ) (initial : σ) : List Event → σ → Prop where
  | nothing : Leads backend initial [] initial
  | answer {events : List Event} {state : σ} (before : Leads backend initial events state)
      (call : Call) :
      Leads backend initial (events ++ [⟨call, (backend.answer call state).1⟩])
        (backend.answer call state).2

/-- The state to which the calls of a record lead. -/
def replay (backend : Backend σ) (initial : σ) (events : List Event) : σ :=
  events.foldl (fun state event => (backend.answer event.call state).2) initial

namespace Leads

theorem replay_eq (leads : backend.Leads initial events last) :
    backend.replay initial events = last := by
  induction leads with
  | nothing => rfl
  | answer before call ih =>
      rw [← ih]
      exact List.foldl_append

theorem trans (first : backend.Leads initial events middle)
    (second : backend.Leads middle later last) : backend.Leads initial (events ++ later) last := by
  induction second with
  | nothing => rwa [List.append_nil]
  | answer before call ih =>
      rw [← List.append_assoc]
      exact ih.answer call

/-- Every front of a record leads to a state in between. -/
theorem split (leads : backend.Leads initial (events ++ later) last) :
    ∃ middle, backend.Leads initial events middle ∧ backend.Leads middle later last := by
  generalize whole : events ++ later = all at leads
  induction leads generalizing later with
  | nothing =>
      obtain ⟨rfl, rfl⟩ := List.append_eq_nil_iff.mp whole
      exact ⟨initial, .nothing, .nothing⟩
  | answer before call ih =>
      rcases List.eq_nil_or_concat later with rfl | ⟨rest, event, rfl⟩
      · rw [List.append_nil] at whole
        rw [whole]
        exact ⟨_, before.answer call, .nothing⟩
      · rw [List.concat_eq_append, ← List.append_assoc] at whole
        obtain ⟨same, newest⟩ := List.append_inj' whole rfl
        obtain ⟨middle, first, second⟩ := ih same
        cases newest
        rw [List.concat_eq_append]
        exact ⟨middle, first, second.answer call⟩

/-- Handles that run out have run out for good. -/
theorem lasts_before (accounting : backend.Accounting) (leads : backend.Leads initial events last)
    (lasts : accounting.Lasts last) : accounting.Lasts initial := by
  induction leads with
  | nothing => exact lasts
  | answer before call ih => exact ih (accounting.lasts_before lasts)

end Leads

end Backend

/-! ## Handles in a record -/

/-- The live keys after a call, of those before it, each with its provider. -/
def Event.trackKey : Event → List (Handle × Handle) → List (Handle × Handle)
  | ⟨.importKey provider _, reply⟩, live =>
      match reply.result with
      | .ok key => (key, provider) :: live
      | .error _ => live
  | ⟨.destroyKey key, reply⟩, live =>
      match reply.result with
      | .ok _ => live.filter (·.1 != key)
      | .error _ => live
  | _, live => live

/-- The keys that were imported and not destroyed, each with its provider. -/
def importedKeys (events : List Event) : List (Handle × Handle) :=
  events.foldl (fun live event => event.trackKey live) []

theorem importedKeys_concat (events : List Event) (event : Event) :
    importedKeys (events ++ [event]) = event.trackKey (importedKeys events) :=
  List.foldl_append

namespace Event

variable {call : Call} {reply : Reply call} {opened : List Handle} {live : List (Handle × Handle)}

theorem track_of_error {error : BackendError} (failed : reply.result = .error error) :
    track ⟨call, reply⟩ opened = opened := by
  cases call with
  | openProvider | closeProvider => simp only [track, failed]
  | _ => rfl

theorem trackKey_of_error {error : BackendError} (failed : reply.result = .error error) :
    trackKey ⟨call, reply⟩ live = live := by
  cases call with
  | importKey | destroyKey => simp only [trackKey, failed]
  | _ => rfl

end Event

/-! ## A token along a record -/

namespace Token

variable {token : Token} {opened : List Handle} {live : List (Handle × Handle)}

/-- Just these handles are on the token, where each key is in one of these providers. -/
structure Bears (opened : List Handle) (live : List (Handle × Handle)) (token : Token) : Prop where
  exact : Exact (opened.map fun handle => ⟨handle, aesAlgorithm⟩)
    (live.map fun key => ⟨⟨key.2, aesAlgorithm⟩, key.1, 0⟩) token
  once : opened.Nodup
  inside : ∀ key ∈ live, key.2 ∈ opened

namespace Bears

theorem tallies (bears : token.Bears opened live) : token.Tallies opened live := by
  have tallies := bears.exact.tallies ?_
  · rwa [List.map_map, List.map_map, List.map_id'', List.map_id''] at tallies
    all_goals exact fun _ => rfl
  · intro key member
    obtain ⟨pair, present, rfl⟩ := List.mem_map.mp member
    exact List.mem_map_of_mem (bears.inside pair present)

theorem after_open {algorithm : String} {flags : ProviderFlags} {raw : Handle}
    (success : (token.answer (.openProvider algorithm flags)).1.result = .ok raw)
    (lasts : (token.answer (.openProvider algorithm flags)).2.handlesIssued < Handle.limit)
    (bears : token.Bears opened live) :
    (token.answer (.openProvider algorithm flags)).2.Bears (raw :: opened) live := by
  obtain ⟨fresh, added⟩ := bears.exact.opened success lasts
  cases added.algorithms _ (.head _)
  refine ⟨added, List.nodup_cons.mpr ⟨?_, bears.once⟩, ?_⟩
  · exact fun member => fresh (List.mem_map_of_mem member)
  · exact fun key member => List.mem_cons_of_mem _ (bears.inside key member)

theorem after_import {provider key : Handle} {secret : Bytes}
    (success : (token.answer (.importKey provider secret)).1.result = .ok key)
    (lasts : (token.answer (.importKey provider secret)).2.handlesIssued < Handle.limit)
    (bears : token.Bears opened live) :
    (token.answer (.importKey provider secret)).2.Bears opened ((key, provider) :: live) := by
  have present := (bears.exact.open_iff _).mp (provider_of_imported success)
  obtain ⟨_, member, rfl⟩ := present
  obtain ⟨handle, held, rfl⟩ := List.mem_map.mp member
  have imported := @Exact.imported token _ _ ⟨⟨handle, aesAlgorithm⟩, key, 0⟩ secret success lasts
    bears.exact
  exact ⟨imported, bears.once, List.forall_mem_cons.mpr ⟨held, bears.inside⟩⟩

theorem after_close {provider : Handle}
    (success : (token.answer (.closeProvider provider)).1.result = .ok ())
    (lasts : (token.answer (.closeProvider provider)).2.handlesIssued < Handle.limit)
    (bears : token.Bears opened live) :
    (token.answer (.closeProvider provider)).2.Bears (opened.erase provider) live := by
  obtain ⟨present, unused⟩ := closable_of_ok success
  obtain ⟨_, member, rfl⟩ := (bears.exact.open_iff _).mp present
  obtain ⟨handle, held, rfl⟩ := List.mem_map.mp member
  have remaining : ∀ key ∈ live, key.2 ∈ opened.erase handle := by
    intro key member
    obtain ⟨entry, found, same⟩ := bears.exact.entry_of_key (List.mem_map_of_mem member)
    have inside : entry.2.provider = key.2 := congrArg Prod.snd same
    have different : key.2 ≠ handle := inside ▸ unused entry (List.mem_of_find?_eq_some found)
    exact (List.mem_erase_of_ne different).mpr (bears.inside key member)
  have apart := (List.perm_cons_erase held).map fun handle : Handle =>
    (⟨handle, aesAlgorithm⟩ : Provider)
  have exact := Token.accounting.exact_of_same bears.exact (fun _ => apart.mem_iff) (.refl _)
  refine ⟨(Exact.closed ?_ ?_ lasts exact).2, bears.once.erase _, remaining⟩
  · intro member
    obtain ⟨other, kept, same⟩ := List.mem_map.mp member
    cases same
    exact bears.once.not_mem_erase kept
  · intro key member
    obtain ⟨pair, present, rfl⟩ := List.mem_map.mp member
    exact List.mem_map_of_mem (remaining pair present)

theorem after_destroy {key : Handle}
    (success : (token.answer (.destroyKey key)).1.result = .ok ())
    (lasts : (token.answer (.destroyKey key)).2.handlesIssued < Handle.limit)
    (bears : token.Bears opened live) :
    (token.answer (.destroyKey key)).2.Bears opened (live.filter (·.1 != key)) := by
  have perm : token.keys.handles.Perm (live.map Prod.fst) := by
    have listed := bears.exact.live.map Prod.fst
    rwa [List.map_map, List.map_map, List.map_map] at listed
  have once : (live.map Prod.fst).Nodup := perm.nodup_iff.mp bears.exact.live_once
  obtain ⟨pair, found⟩ : ∃ pair, live.find? (·.1 == key) = some pair := by
    rw [← Option.isSome_iff_exists, List.find?_isSome]
    obtain ⟨pair, member, rfl⟩ := List.mem_map.mp (perm.mem_iff.mp (key_of_destroyed success))
    exact ⟨pair, member, by simp⟩
  have named : pair.1 = key := by simpa using List.find?_some found
  subst named
  have exact := Token.accounting.exact_of_same bears.exact (fun _ => Iff.rfl)
    ((Entries.perm_of_find? once found).map _)
  exact ⟨(Exact.destroyed lasts exact).2, bears.once,
    fun key member => bears.inside key (List.mem_of_mem_filter member)⟩

/-- A record tells what is on a token after another call as before. -/
theorem answer {call : Call} (lasts : (token.answer call).2.handlesIssued < Handle.limit)
    (bears : token.Bears opened live) :
    (token.answer call).2.Bears (Event.track ⟨call, (token.answer call).1⟩ opened)
      (Event.trackKey ⟨call, (token.answer call).1⟩ live) := by
  cases replied : (token.answer call).1.result with
  | error error =>
      rwa [Event.track_of_error replied, Event.trackKey_of_error replied,
        unchanged_of_error replied]
  | ok value =>
      cases call with
      | openProvider algorithm flags =>
          simp only [Event.track, replied]
          exact bears.after_open replied lasts
      | closeProvider provider =>
          simp only [Event.track, replied]
          exact bears.after_close replied lasts
      | importKey provider secret =>
          simp only [Event.trackKey, replied]
          exact bears.after_import replied lasts
      | destroyKey key =>
          simp only [Event.trackKey, replied]
          exact bears.after_destroy replied lasts
      | getProperty | setProperty | crypt | aeadEncrypt | aeadDecrypt | fipsEnabled =>
          exact ⟨bears.exact.kept trivial lasts, bears.once, bears.inside⟩

end Bears

end Token

/-! ## Behind a plan -/

section

variable {plan : Plan} {initial last : Interposed Token} {done rest : List Event}

/-- What a plan answers by itself neither issues a handle nor gives one back. -/
theorem Plan.tracks_nothing {made : List Operation} {call : Call} {reply : Reply call}
    (planned : plan.answer? made call = some reply) (opened : List Handle)
    (live : List (Handle × Handle)) :
    Event.track ⟨call, reply⟩ opened = opened ∧ Event.trackKey ⟨call, reply⟩ live = live := by
  by_cases reads : ∃ handle name output, call = .getProperty handle name output
  · obtain ⟨handle, name, output, rfl⟩ := reads
    exact ⟨rfl, rfl⟩
  · obtain ⟨error, failed⟩ := error_of_answer? planned fun handle name output same =>
      reads ⟨handle, name, output, same⟩
    exact ⟨Event.track_of_error failed, Event.trackKey_of_error failed⟩

theorem Token.Bears.along (spares : plan.SparesReleases) (bears : initial.inner.Bears [] [])
    (leads : (Token.backend.interposed plan).Leads initial done last)
    (lasts : last.inner.handlesIssued < Handle.limit) :
    last.inner.Bears (openedProviders done) (importedKeys done) := by
  induction leads with
  | nothing => exact bears
  | @answer events state before call ih =>
      have bore := ih ((Token.accounting.interposed spares).lasts_before lasts)
      rw [openedProviders_concat, importedKeys_concat]
      cases planned : plan.answer? state.made call with
      | some reply =>
          rw [Backend.Accounting.answer_of_planned planned]
          obtain ⟨opened, live⟩ := Plan.tracks_nothing planned (openedProviders events)
            (importedKeys events)
          rwa [opened, live]
      | none =>
          rw [Backend.Accounting.answer_of_unplanned planned] at lasts ⊢
          exact bore.answer lasts

/-- After each call, a token has what was issued and not given back. -/
theorem Token.tallies_replay (spares : plan.SparesReleases) (bears : initial.inner.Bears [] [])
    (leads : (Token.backend.interposed plan).Leads initial (done ++ rest) last)
    (lasts : last.inner.handlesIssued < Handle.limit) :
    ((Token.backend.interposed plan).replay initial done).inner.Tallies (openedProviders done)
      (importedKeys done) := by
  obtain ⟨middle, first, second⟩ := leads.split
  rw [first.replay_eq]
  exact (bears.along spares first
    (second.lasts_before (Token.accounting.interposed spares) lasts)).tallies

end

end CipherModes
