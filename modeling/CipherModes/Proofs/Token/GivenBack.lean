import CipherModes.Proofs.Accounts.Record
import CipherModes.Proofs.Token.Outcomes

/-!
# Handles that were given back

Whatever is on a token is in the record of the calls made on it. So a call on a
handle that the record does not show open or live is refused, also when handles
have run out and were issued again.
-/

set_option autoImplicit false

namespace CipherModes

/-! ## Handles in a record -/

/-- The handle that a call issued. -/
def Event.issued? : Event → Option Handle
  | ⟨.openProvider _ _, reply⟩ => reply.result.toOption
  | ⟨.importKey _ _, reply⟩ => reply.result.toOption
  | _ => none

def issuedHandles (events : List Event) : List Handle := events.filterMap Event.issued?

/-- A call that neither issues a handle nor takes one back leaves no track. -/
theorem Event.tracks_nothing {call : Call} (keeps : call.KeepsHandles) (reply : Reply call)
    (opened : List Handle) (live : List (Handle × Handle)) :
    track ⟨call, reply⟩ opened = opened ∧ trackKey ⟨call, reply⟩ live = live := by
  cases call with
  | openProvider | closeProvider | importKey | destroyKey => cases keeps
  | getProperty | setProperty | crypt | aeadEncrypt | aeadDecrypt | fipsEnabled => exact ⟨rfl, rfl⟩

namespace Token

variable {settings : Settings} {token : Token} {call : Call} {events : List Event}

/-- The record of calls made one after another. -/
def trace (token : Token) : List Call → List Event
  | [] => []
  | call :: rest => ⟨call, (token.answer call).1⟩ :: (token.answer call).2.trace rest

theorem leads_trace (token : Token) (calls : List Call) :
    backend.Leads token (token.trace calls) (token.afterCalls calls) := by
  induction calls generalizing token with
  | nil => exact .nothing
  | cons call rest ih => exact (Backend.Leads.nothing.answer call).trans (ih (token.answer call).2)

/-! ## What is on a token is in the record -/

/-- What is on a token is among these providers and keys. -/
structure Within (opened : List Handle) (live : List (Handle × Handle)) (token : Token) :
    Prop where
  providers : ∀ handle ∈ token.providers.handles, handle ∈ opened
  keys : ∀ entry ∈ token.keys.entries, (entry.1, entry.2.provider) ∈ live
  inside : ∀ entry ∈ token.keys.entries, entry.2.provider ∈ token.providers.handles

namespace Within

variable {opened : List Handle} {live : List (Handle × Handle)}

/-- A record is not left behind, even by a handle that is issued again. -/
theorem answer (within : token.Within opened live) (call : Call) :
    (token.answer call).2.Within (Event.track ⟨call, (token.answer call).1⟩ opened)
      (Event.trackKey ⟨call, (token.answer call).1⟩ live) := by
  have outcome := token.answer_outcome call
  generalize token.answer call = answered at outcome ⊢
  obtain ⟨reply, next⟩ := answered
  cases outcome with
  | refused status =>
      rwa [Event.track_of_error rfl, Event.trackKey_of_error rfl]
  | answered keeps success =>
      obtain ⟨sameProviders, sameKeys⟩ := Event.tracks_nothing keeps reply opened live
      rwa [sameProviders, sameKeys]
  | opened known =>
      refine ⟨?_, within.keys, ?_⟩
      · intro handle member
        rcases HandleTable.mem_handles_insert.mp member with rfl | older
        · exact .head _
        · exact .tail _ (within.providers handle older)
      · intro entry member
        exact HandleTable.mem_handles_insert.mpr (.inr (within.inside entry member))
  | closed present unused =>
      refine ⟨?_, within.keys, ?_⟩
      · intro handle member
        obtain ⟨older, different⟩ := HandleTable.mem_handles_erase.mp member
        exact (List.mem_erase_of_ne different).mpr (within.providers handle older)
      · intro entry member
        exact HandleTable.mem_handles_erase.mpr ⟨within.inside entry member, unused entry member⟩
  | imported present made =>
      refine ⟨within.providers, ?_, ?_⟩
      · intro entry member
        rcases HandleTable.mem_entries_insert.mp member with rfl | ⟨older, -⟩
        · exact .head _
        · exact .tail _ (within.keys entry older)
      · intro entry member
        rcases HandleTable.mem_entries_insert.mp member with rfl | ⟨older, -⟩
        · exact HandleTable.mem_handles_of_get? present
        · exact within.inside entry older
  | destroyed present =>
      refine ⟨within.providers, ?_, ?_⟩
      · intro entry member
        obtain ⟨older, different⟩ := HandleTable.mem_entries_erase.mp member
        exact List.mem_filter.mpr ⟨within.keys entry older, bne_iff_ne.mpr different⟩
      · intro entry member
        exact within.inside entry (HandleTable.mem_entries_erase.mp member).1
  | switched present read =>
      refine ⟨?_, within.keys, ?_⟩ <;> rw [HandleTable.handles_replace]
      · exact within.providers
      · exact within.inside

theorem along {initial last : Token} (within : initial.Within [] [])
    (leads : backend.Leads initial events last) :
    last.Within (openedProviders events) (importedKeys events) := by
  induction leads with
  | nothing => exact within
  | answer before call ih =>
      rw [openedProviders_concat, importedKeys_concat]
      exact ih.answer call

end Within

theorem within_fresh (settings : Settings) : (fresh settings).Within [] [] := ⟨nofun, nofun, nofun⟩

/-- After any calls, a call is refused on every handle that was given back, or never issued: for
the handle, unless the call finds fault with its own buffers first. -/
theorem refuses_what_was_given_back {calls : List Call} {handle : Handle}
    (names : call.handle? = some handle)
    (notOpen : handle ∉ openedProviders ((fresh settings).trace calls))
    (notLive : handle ∉ (importedKeys ((fresh settings).trace calls)).map Prod.fst) :
    ((fresh settings).afterCalls calls).answer call =
      (.fail (call.bufferFault?.getD .invalidHandle), (fresh settings).afterCalls calls) := by
  have within := (within_fresh settings).along (leads_trace (fresh settings) calls)
  apply answer_of_absent names
  case noProvider =>
    exact HandleTable.get?_eq_none_iff.mpr fun present => notOpen (within.providers handle present)
  case noKey =>
    apply HandleTable.get?_eq_none_iff.mpr
    intro present
    obtain ⟨entry, member, rfl⟩ := List.mem_map.mp present
    exact notLive (List.mem_map_of_mem (within.keys entry member))
  case unused =>
    rintro entry member rfl
    exact notOpen (within.providers _ (within.inside entry member))

/-- A provider is opened and set to single blocks, a key is imported into it and destroyed. -/
def oneKeySpent : List Call :=
  let provider := Handle.issuedAfter 0
  let key := Handle.issuedAfter 1
  [.openProvider aesAlgorithm .none,
    .setProperty provider PropertyName.chainingMode (encodeWide ChainingMode.ecb.text),
    .importKey provider (Bytes.zeros 16), .destroyKey key]

/-- A key that was destroyed, with buffers in which nothing is wrong. -/
theorem refuses_what_was_given_back_for_handle :
    let key := Handle.issuedAfter 1
    let events := (fresh {}).trace oneKeySpent
    let token := (fresh {}).afterCalls oneKeySpent
    key ∈ issuedHandles events ∧ key ∉ openedProviders events ∧
      key ∉ (importedKeys events).map Prod.fst ∧
      token.answer (.crypt .decrypt key (Bytes.zeros 16) (Bytes.zeros 16)) =
        (.fail .invalidHandle, token) := by
  have notOpen : Handle.issuedAfter 1 ∉ openedProviders ((fresh {}).trace oneKeySpent) := by
    decide +kernel
  have notLive : Handle.issuedAfter 1 ∉
      (importedKeys ((fresh {}).trace oneKeySpent)).map Prod.fst := by decide +kernel
  exact ⟨by decide +kernel, notOpen, notLive, refuses_what_was_given_back rfl notOpen notLive⟩

/-- An input that is no whole block is reported in place of the handle. -/
theorem reports_input_before_handle :
    let key := Handle.issuedAfter 1
    let events := (fresh {}).trace oneKeySpent
    let call := Call.crypt .encrypt key [0] [0]
    call.handle? = some key ∧ key ∈ issuedHandles events ∧ key ∉ openedProviders events ∧
      key ∉ (importedKeys events).map Prod.fst ∧
      (((fresh {}).afterCalls oneKeySpent).answer call).1.status? = some .invalidBufferSize := by
  decide +kernel

end Token

end CipherModes
