import CipherModes.Proofs.Token.GivenBack
import Mathlib.Data.List.Induction

/-!
# The ledger of a token

The record of a run tells in which order handles were issued and how many
objects came and went. As long as there are handles left, the tables and the
counters of the token agree with it.
-/

set_option autoImplicit false

namespace CipherModes

/-! ## Counting in a record -/

/-- How many calls of a kind succeeded. -/
def succeeded (operation : Operation) (events : List Event) : Nat :=
  events.countP fun event => event.call.operation == operation && event.reply.result.isOk

theorem issuedHandles_concat (events : List Event) (event : Event) :
    issuedHandles (events ++ [event]) = issuedHandles events ++ event.issued?.toList := by
  rw [issuedHandles, List.filterMap_append]
  cases issued : event.issued? <;> simp [issuedHandles, issued]

section

variable {operation : Operation} {call : Call} {reply : Reply call}

private theorem succeeded_concat (operation : Operation) (events : List Event) (event : Event) :
    succeeded operation (events ++ [event]) = succeeded operation events +
      if event.call.operation = operation ∧ event.reply.result.isOk then 1 else 0 := by
  rw [succeeded, List.countP_append, List.countP_singleton]
  simp only [Bool.and_eq_true, beq_iff_eq]
  rfl

theorem succeeded_of_ok {value : call.Value} (success : reply.result = .ok value)
    (events : List Event) :
    succeeded operation (events ++ [⟨call, reply⟩]) =
      succeeded operation events + if call.operation = operation then 1 else 0 := by
  simp only [succeeded_concat, success, Except.isOk, Except.toBool, and_true]

theorem succeeded_of_error {error : BackendError} (failed : reply.result = .error error)
    (events : List Event) :
    succeeded operation (events ++ [⟨call, reply⟩]) = succeeded operation events := by
  rw [succeeded_concat, if_neg (by simp [failed, Except.isOk, Except.toBool]), Nat.add_zero]

theorem succeeded_of_ne (different : call.operation ≠ operation) (events : List Event) :
    succeeded operation (events ++ [⟨call, reply⟩]) = succeeded operation events := by
  rw [succeeded_concat, if_neg (fun both => different both.1), Nat.add_zero]

end

theorem exists_import {events : List Event} {key : Handle × Handle}
    (member : key ∈ importedKeys events) :
    ∃ secret reply, ⟨.importKey key.2 secret, reply⟩ ∈ events ∧ reply.result = .ok key.1 := by
  induction events using List.reverseRecOn with
  | nil => cases member
  | append_singleton events event ih =>
      have older (before : key ∈ importedKeys events) : ∃ secret reply,
          ⟨.importKey key.2 secret, reply⟩ ∈ events ++ [event] ∧ reply.result = .ok key.1 := by
        obtain ⟨secret, reply, recorded, success⟩ := ih before
        exact ⟨secret, reply, List.mem_append_left _ recorded, success⟩
      rw [importedKeys_concat] at member
      obtain ⟨call, reply⟩ := event
      cases replied : reply.result with
      | error error =>
          rw [Event.trackKey_of_error replied] at member
          exact older member
      | ok value =>
          cases call with
          | importKey provider secret =>
              simp only [Event.trackKey, replied] at member
              rcases List.mem_cons.mp member with rfl | before
              · exact ⟨secret, reply, List.mem_append_right _ (.head _), replied⟩
              · exact older before
          | destroyKey handle =>
              simp only [Event.trackKey, replied] at member
              exact older (List.mem_of_mem_filter member)
          | _ => exact older member

namespace Token

variable {settings : Settings} {token : Token} {call : Call} {events : List Event}

/-! ## What the record counts -/

/-- Handles are issued in order, and objects are counted as they come and go. -/
structure Counted (events : List Event) (token : Token) : Prop where
  apart : ∀ handle ∈ token.providers.handles, handle ∉ token.keys.handles
  numbered : (issuedHandles events).map (·.id.toNat) = List.range' 1 token.handlesIssued
  opened : token.providersOpened = succeeded .openProvider events
  imported : token.keysImported = succeeded .importKey events
  open_providers : token.providers.size + succeeded .closeProvider events =
    succeeded .openProvider events
  live_keys : token.keys.size + succeeded .destroyKey events = succeeded .importKey events

theorem counted_fresh (settings : Settings) : Counted [] (fresh settings) :=
  ⟨nofun, rfl, rfl, rfl, rfl, rfl⟩

namespace Counted

variable {opened : List Handle} {live : List (Handle × Handle)} {next : Token}

private theorem unmoved {reply : Reply call} (counted : Counted events token)
    (issues : Event.issued? ⟨call, reply⟩ = none)
    (uncounted : ∀ operation ∈ [.openProvider, .closeProvider, .importKey, .destroyKey],
      succeeded operation (events ++ [⟨call, reply⟩]) = succeeded operation events)
    (sameProviders : next.providers.handles = token.providers.handles)
    (sameKeys : next.keys = token.keys) (sameOpened : next.providersOpened = token.providersOpened)
    (sameImported : next.keysImported = token.keysImported) :
    Counted (events ++ [⟨call, reply⟩]) next := by
  have sameSize : next.providers.size = token.providers.size := by
    rw [HandleTable.size_eq, HandleTable.size_eq, sameProviders]
  constructor
  case apart =>
    rw [sameProviders, sameKeys]
    exact counted.apart
  case numbered =>
    rw [issuedHandles_concat, issues, handlesIssued, sameOpened, sameImported]
    simpa [handlesIssued] using counted.numbered
  case opened => rw [sameOpened, uncounted _ (by simp), counted.opened]
  case imported => rw [sameImported, uncounted _ (by simp), counted.imported]
  case open_providers =>
    rw [sameSize, uncounted _ (by simp), uncounted _ (by simp), counted.open_providers]
  case live_keys => rw [sameKeys, uncounted _ (by simp), uncounted _ (by simp), counted.live_keys]

private theorem moved {reply : Reply call} {value : call.Value} (counted : Counted events token)
    (success : reply.result = .ok value)
    (apart : ∀ handle ∈ next.providers.handles, handle ∉ next.keys.handles)
    (numbered : (issuedHandles (events ++ [⟨call, reply⟩])).map (·.id.toNat) =
      List.range' 1 next.handlesIssued)
    (opened : next.providersOpened =
      token.providersOpened + if call.operation = .openProvider then 1 else 0)
    (imported : next.keysImported =
      token.keysImported + if call.operation = .importKey then 1 else 0)
    (providers : next.providers.size + (if call.operation = .closeProvider then 1 else 0) =
      token.providers.size + if call.operation = .openProvider then 1 else 0)
    (keys : next.keys.size + (if call.operation = .destroyKey then 1 else 0) =
      token.keys.size + if call.operation = .importKey then 1 else 0) :
    Counted (events ++ [⟨call, reply⟩]) next := by
  refine ⟨apart, numbered, ?_, ?_, ?_, ?_⟩ <;> simp only [succeeded_of_ok success]
  · rw [opened, counted.opened]
  · rw [imported, counted.imported]
  · have before := counted.open_providers
    omega
  · have before := counted.live_keys
    omega

private theorem numbered_next {reply : Reply call} (counted : Counted events token)
    (accounted : token.Accounted) (remain : token.handlesIssued + 1 < Handle.limit)
    (issues : Event.issued? ⟨call, reply⟩ = some (.issuedAfter token.issued)) :
    (issuedHandles (events ++ [⟨call, reply⟩])).map (·.id.toNat) =
      List.range' 1 (token.handlesIssued + 1) := by
  rw [issuedHandles_concat, issues, List.map_append, counted.numbered, List.range'_1_concat]
  simp [(accounted.issue remain).2, Nat.add_comm]

private theorem numbered_still {reply : Reply call} (counted : Counted events token)
    (issues : Event.issued? ⟨call, reply⟩ = none)
    (same : next.handlesIssued = token.handlesIssued) :
    (issuedHandles (events ++ [⟨call, reply⟩])).map (·.id.toNat) =
      List.range' 1 next.handlesIssued := by
  rw [issuedHandles_concat, issues, Option.toList_none, List.append_nil, counted.numbered, same]

theorem answer {providers : List Provider} {keys : List ImportedKey}
    (counted : Counted events token) (exact : Exact providers keys token)
    (lasts : (token.answer call).2.handlesIssued < Handle.limit) :
    Counted (events ++ [⟨call, (token.answer call).1⟩]) (token.answer call).2 := by
  have outcome := token.answer_outcome call
  generalize token.answer call = answered at outcome lasts ⊢
  obtain ⟨reply, next⟩ := answered
  cases outcome with
  | refused status =>
      exact counted.unmoved (by cases call <;> rfl)
        (fun _ _ => succeeded_of_error rfl events) rfl rfl rfl rfl
  | answered keeps success =>
      cases call with
      | openProvider | closeProvider | importKey | destroyKey => cases keeps
      | crypt direction =>
          refine counted.unmoved rfl (fun operation moves => succeeded_of_ne ?_ events) rfl rfl rfl
            rfl
          cases direction <;> rintro rfl <;> simp [Call.operation] at moves
      | _ =>
          refine counted.unmoved rfl (fun operation moves => succeeded_of_ne ?_ events) rfl rfl rfl
            rfl
          rintro rfl
          simp [Call.operation] at moves
  | switched present read =>
      refine counted.unmoved rfl (fun operation moves => succeeded_of_ne ?_ events)
        (HandleTable.handles_replace ..) rfl rfl rfl
      rintro rfl
      simp [Call.operation] at moves
  | opened known =>
      have grown : token.providersOpened + 1 + token.keysImported = token.handlesIssued + 1 :=
        Nat.add_right_comm ..
      have remain : token.handlesIssued + 1 < Handle.limit := grown ▸ lasts
      obtain ⟨noProvider, noKey⟩ := exact.accounted.unused remain
      refine counted.moved rfl ?apart ?numbered rfl rfl (HandleTable.size_insert noProvider .cbc) rfl
      case apart =>
        intro handle member
        rcases HandleTable.mem_handles_insert.mp member with rfl | older
        · exact HandleTable.get?_eq_none_iff.mp noKey
        · exact counted.apart handle older
      case numbered =>
        rw [numbered_next counted exact.accounted remain rfl, ← grown]
        rfl
  | @imported provider secret mode material present made =>
      have remain : token.handlesIssued + 1 < Handle.limit := lasts
      obtain ⟨noProvider, noKey⟩ := exact.accounted.unused remain
      refine counted.moved rfl ?_ (numbered_next counted exact.accounted remain rfl) rfl rfl rfl
        (HandleTable.size_insert noKey ⟨provider, UInt32.ofNat (secret.length * 8), material⟩)
      intro handle member
      rw [HandleTable.mem_handles_insert, not_or]
      refine ⟨?_, counted.apart handle member⟩
      rintro rfl
      exact HandleTable.get?_eq_none_iff.mp noProvider member
  | closed present unused =>
      refine counted.moved rfl ?_ (numbered_still counted rfl rfl) rfl rfl
        (HandleTable.size_erase exact.open_once present) rfl
      intro handle member
      exact counted.apart handle (HandleTable.mem_handles_erase.mp member).1
  | destroyed present =>
      refine counted.moved rfl ?_ (numbered_still counted rfl rfl) rfl rfl rfl
        (HandleTable.size_erase exact.live_once present)
      intro handle member held
      exact counted.apart handle member (HandleTable.mem_handles_erase.mp held).1

end Counted

theorem Counted.along {initial last : Token} (counted : Counted [] initial)
    (bears : initial.Bears [] []) (leads : backend.Leads initial events last)
    (lasts : last.handlesIssued < Handle.limit) :
    Counted events last ∧ last.Bears (openedProviders events) (importedKeys events) := by
  induction leads with
  | nothing => exact ⟨counted, bears⟩
  | answer before call ih =>
      obtain ⟨counted, bears⟩ := ih (accounting.lasts_before lasts)
      rw [openedProviders_concat, importedKeys_concat]
      exact ⟨counted.answer bears.exact lasts, bears.answer lasts⟩

private theorem handlesIssued_answer (token : Token) (call : Call) :
    (token.answer call).2.handlesIssued =
      token.handlesIssued + (Event.issued? ⟨call, (token.answer call).1⟩).toList.length := by
  have outcome := token.answer_outcome call
  generalize token.answer call = answered at outcome ⊢
  obtain ⟨reply, next⟩ := answered
  cases outcome with
  | refused status => cases call <;> rfl
  | answered keeps success =>
      cases call with
      | openProvider | closeProvider | importKey | destroyKey => cases keeps
      | _ => rfl
  | opened => exact Nat.add_right_comm ..
  | closed | imported | destroyed | switched => rfl

/-- The counters of a token count the handles in the record, even past the last number. -/
theorem length_issuedHandles {initial last : Token} (leads : backend.Leads initial events last) :
    initial.handlesIssued + (issuedHandles events).length = last.handlesIssued := by
  induction leads with
  | nothing => rfl
  | @answer events token before call ih =>
      rw [issuedHandles_concat, List.length_append, ← Nat.add_assoc, ih]
      exact (handlesIssued_answer token call).symm

/-- A provider can be closed just if it is open and no key is left in it. -/
theorem closes_iff {provider : Handle} :
    (token.answer (.closeProvider provider)).1.result = .ok () ↔
      provider ∈ token.providers.handles ∧
        ∀ entry ∈ token.keys.entries, entry.2.provider ≠ provider := by
  refine ⟨closable_of_ok, ?_⟩
  rintro ⟨present, unused⟩
  obtain ⟨mode, found⟩ := HandleTable.exists_get? present
  have empty : ¬ token.keys.entries.any (·.2.provider == provider) := by
    rw [List.any_eq_true]
    rintro ⟨entry, member, same⟩
    exact unused entry member (beq_iff_eq.mp same)
  simp only [answer, closeProvider, if_neg empty, found]
  rfl

/-- What holds of a token after a run that is recorded. -/
structure Ledger (events : List Event) (token : Token) : Prop where
  apart : ∀ handle ∈ token.providers.handles, handle ∉ token.keys.handles
  /-- Each key was imported into its provider, which is open. -/
  inside : ∀ entry ∈ token.keys.entries,
    (∃ secret reply, ⟨.importKey entry.2.provider secret, reply⟩ ∈ events ∧
      reply.result = .ok entry.1) ∧ entry.2.provider ∈ token.providers.handles
  once : (issuedHandles events).Nodup
  /-- The handles are the numbers from one on, in the order in which they were issued. -/
  numbered : (issuedHandles events).map (·.id.toNat) =
    List.range' 1 (token.providersOpened + token.keysImported)
  opened : token.providersOpened = succeeded .openProvider events
  imported : token.keysImported = succeeded .importKey events
  open_providers : token.providers.size + succeeded .closeProvider events =
    succeeded .openProvider events
  live_keys : token.keys.size + succeeded .destroyKey events = succeeded .importKey events
  closes : ∀ provider, (token.answer (.closeProvider provider)).1.result = .ok () ↔
    provider ∈ token.providers.handles ∧
      ∀ entry ∈ token.keys.entries, entry.2.provider ≠ provider

theorem bears_fresh (settings : Settings) : (fresh settings).Bears [] [] :=
  ⟨exact_fresh settings, .nil, nofun⟩

/-- Over any calls, as long as there are handles left. -/
theorem keeps_ledger {calls : List Call}
    (lasts : (issuedHandles ((fresh settings).trace calls)).length < Handle.limit) :
    Ledger ((fresh settings).trace calls) ((fresh settings).afterCalls calls) := by
  have leads := leads_trace (fresh settings) calls
  have count : (issuedHandles ((fresh settings).trace calls)).length =
      ((fresh settings).afterCalls calls).handlesIssued := by
    rw [← length_issuedHandles leads]
    exact (Nat.zero_add _).symm
  obtain ⟨counted, bears⟩ :=
    (counted_fresh settings).along (bears_fresh settings) leads (count ▸ lasts)
  have within := (within_fresh settings).along leads
  constructor
  case inside =>
    intro entry member
    exact ⟨exists_import (within.keys entry member), within.inside entry member⟩
  case once =>
    apply List.Nodup.of_map
    rw [counted.numbered]
    exact List.nodup_range'
  case apart => exact counted.apart
  case numbered => exact counted.numbered
  case opened => exact counted.opened
  case imported => exact counted.imported
  case open_providers => exact counted.open_providers
  case live_keys => exact counted.live_keys
  case closes => exact fun provider => closes_iff

/-- A key is refused in the chained mode and then made, its provider cannot be closed, and another
provider comes and goes. -/
theorem keeps_ledger_past_refusals :
    let calls : List Call :=
      [.openProvider aesAlgorithm .none, .importKey (.issuedAfter 0) (Bytes.zeros 16),
        .setProperty (.issuedAfter 0) PropertyName.chainingMode (encodeWide ChainingMode.gcm.text),
        .importKey (.issuedAfter 0) (Bytes.zeros 16), .closeProvider (.issuedAfter 0),
        .openProvider aesAlgorithm .none, .closeProvider (.issuedAfter 2)]
    (issuedHandles ((fresh {}).trace calls)).map (·.id) = [1, 2, 3] ∧
      ((fresh {}).afterCalls calls).counters = [1, 1, 2, 1] ∧
      Ledger ((fresh {}).trace calls) ((fresh {}).afterCalls calls) :=
  ⟨by decide +kernel, by decide +kernel, keeps_ledger (by decide +kernel)⟩

end Token

end CipherModes
