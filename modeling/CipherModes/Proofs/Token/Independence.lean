import CipherModes.Proofs.Token.Accounting

/-!
# Calls in either order

A call on a handle that issues no new one sees of a token only what the token
has for that handle, and changes nothing else. So two such calls on two handles
can change places, unless one handle is that of a provider and the other that of
a key in it.
-/

set_option autoImplicit false

namespace CipherModes

/-- The call works with what its handle names and issues no handle. -/
def Operation.worksOnHandle : Operation → Bool
  | openProvider | importKey | fipsEnabled => false
  | closeProvider | destroyKey | getProperty | setProperty | encrypt | decrypt | aeadEncrypt
  | aeadDecrypt => true

namespace HandleTable

variable {α : Type} {left right : Handle}

theorem erase_comm (table : HandleTable α) (left right : Handle) :
    (table.erase left).erase right = (table.erase right).erase left := by
  simp only [erase, List.filter_filter, Bool.and_comm]

theorem replace_erase (different : left ≠ right) (table : HandleTable α) (value : α) :
    (table.erase right).replace left value = (table.replace left value).erase right := by
  obtain ⟨entries⟩ := table
  simp only [replace, erase, mk.injEq]
  induction entries with
  | nil => rfl
  | cons entry rest ih =>
      obtain ⟨name, old⟩ := entry
      by_cases erased : name = right
      · have kept : name ≠ left := fun same => different (same.symm.trans erased)
        simpa [erased, Ne.symm different] using ih
      · by_cases replaced : name = left
        · simpa [replaced, different] using ih
        · simpa [erased, replaced] using ih

theorem replace_comm (different : left ≠ right) (table : HandleTable α) (first second : α) :
    (table.replace left first).replace right second =
      (table.replace right second).replace left first := by
  simp only [replace, List.map_map]
  congr 1
  apply List.map_congr_left
  intro entry _
  by_cases atLeft : entry.1 = left
  · simp [atLeft, different]
  · by_cases atRight : entry.1 = right <;> simp [atLeft, atRight, Ne.symm different]

/-- Where each handle has one entry, that entry is what the handle names. -/
theorem get?_of_mem {table : HandleTable α} (once : table.handles.Nodup) {entry : Handle × α}
    (member : entry ∈ table.entries) : table.get? entry.1 = some entry.2 := by
  cases found : table.entries.find? (·.1 == entry.1) with
  | none => exact absurd (List.find?_eq_none.mp found entry member) (by simp)
  | some other =>
      rw [get?, found, Entries.eq_of_mem once found member rfl]
      rfl

end HandleTable

namespace Token

variable {token other : Token} {call : Call} {handle left right : Handle}

/-! ## What a call sees and what it changes -/

/-- What a token has for one handle. -/
structure Sight where
  settings : Settings
  mode : Option ChainingMode
  key : Option KeyObject
  /-- Some key was imported into the provider of the handle. -/
  inUse : Bool

def sight (token : Token) (handle : Handle) : Sight where
  settings := token.settings
  mode := token.providers.get? handle
  key := token.keys.get? handle
  inUse := token.keys.entries.any (·.2.provider == handle)

/-- What a call can change under its handle. -/
inductive Change
  | nothing
  | closed
  | destroyed
  | switched (mode : ChainingMode)

def Change.make (handle : Handle) (token : Token) : Change → Token
  | nothing => token
  | closed => { token with providers := token.providers.erase handle }
  | destroyed => { token with keys := token.keys.erase handle }
  | switched mode => { token with providers := token.providers.replace handle mode }

/-- Both tokens answer a call alike and make the same change under the handle. -/
def ActsAlike (handle : Handle) (token other : Token) (call : Call) : Prop :=
  ∃ reply change, token.answer call = (reply, Change.make handle token change) ∧
    other.answer call = (reply, Change.make handle other change)

theorem property_of_sight (same : token.sight handle = other.sight handle) (name : String) :
    token.property handle name = other.property handle name := by
  simp only [sight, Sight.mk.injEq] at same
  obtain ⟨settings, mode, key, -⟩ := same
  simp only [property, providerProperty, settings, mode, key]

theorem actsAlike_of_sight (same : token.sight handle = other.sight handle)
    (names : call.handle? = some handle) (works : call.operation.worksOnHandle = true) :
    ActsAlike handle token other call := by
  have properties := property_of_sight same
  simp only [sight, Sight.mk.injEq] at same
  obtain ⟨-, mode, key, inUse⟩ := same
  cases call with
  | openProvider | importKey | fipsEnabled => cases works
  | closeProvider =>
      cases names
      simp only [ActsAlike, answer, closeProvider, mode, inUse]
      split_ifs
      · exact ⟨_, .nothing, rfl, rfl⟩
      · cases other.providers.get? handle with
        | none => exact ⟨_, .nothing, rfl, rfl⟩
        | some old => exact ⟨_, .closed, rfl, rfl⟩
  | destroyKey =>
      cases names
      simp only [ActsAlike, answer, destroyKey, key]
      cases other.keys.get? handle with
      | none => exact ⟨_, .nothing, rfl, rfl⟩
      | some object => exact ⟨_, .destroyed, rfl, rfl⟩
  | getProperty _ name output =>
      cases names
      simp only [ActsAlike, answer, getProperty, properties]
      cases other.property handle name with
      | error status => exact ⟨_, .nothing, rfl, rfl⟩
      | ok value =>
          dsimp only
          split_ifs <;> exact ⟨_, .nothing, rfl, rfl⟩
  | setProperty _ name value =>
      cases names
      simp only [ActsAlike, answer, setProperty, mode, key]
      cases other.providers.get? handle with
      | none => cases other.keys.get? handle <;> exact ⟨_, .nothing, rfl, rfl⟩
      | some old =>
          dsimp only
          split_ifs
          · cases (decodeWide? value).bind ChainingMode.ofText? with
            | none => exact ⟨_, .nothing, rfl, rfl⟩
            | some new => exact ⟨_, .switched new, rfl, rfl⟩
          · exact ⟨_, .nothing, rfl, rfl⟩
  | crypt direction _ input output =>
      cases names
      simp only [ActsAlike, answer, crypt, key]
      split_ifs
      · exact ⟨_, .nothing, rfl, rfl⟩
      · exact ⟨_, .nothing, rfl, rfl⟩
      · rcases other.keys.get? handle with _ | ⟨_, _, _ | _⟩ <;> exact ⟨_, .nothing, rfl, rfl⟩
  | aeadEncrypt _ nonce aad buffer tag =>
      cases names
      by_cases lengths : aeadLengths nonce tag = true
      · simp only [ActsAlike, answer, aeadEncrypt, key, lengths, not_true_eq_false, if_false]
        split_ifs
        · exact ⟨_, .nothing, rfl, rfl⟩
        · rcases other.keys.get? handle with _ | ⟨_, _, _ | _⟩ <;> exact ⟨_, .nothing, rfl, rfl⟩
      · simp only [ActsAlike, answer, aeadEncrypt, lengths]
        exact ⟨_, .nothing, rfl, rfl⟩
  | aeadDecrypt _ nonce aad buffer tag =>
      cases names
      by_cases lengths : aeadLengths nonce tag = true
      · simp only [ActsAlike, answer, aeadDecrypt, key, lengths, not_true_eq_false, if_false]
        split_ifs
        · exact ⟨_, .nothing, rfl, rfl⟩
        · rcases other.keys.get? handle with _ | ⟨_, _, _ | schedule⟩
          · exact ⟨_, .nothing, rfl, rfl⟩
          · exact ⟨_, .nothing, rfl, rfl⟩
          · dsimp only
            cases Gcm.openDetached? schedule.encrypt nonce aad buffer tag <;>
              exact ⟨_, .nothing, rfl, rfl⟩
      · simp only [ActsAlike, answer, aeadDecrypt, lengths]
        exact ⟨_, .nothing, rfl, rfl⟩

/-! ## Changes under two handles -/

/-- No key of the one handle is in a provider of the other. -/
def Apart (token : Token) (left right : Handle) : Prop :=
  ∀ object ∈ token.keys.get? left, object.provider ≠ right

instance : Decidable (token.Apart left right) :=
  inferInstanceAs (Decidable (∀ object ∈ token.keys.get? left, object.provider ≠ right))

theorem make_comm (different : left ≠ right) (token : Token) (first second : Change) :
    (first.make left (second.make right token)) = second.make right (first.make left token) := by
  cases first <;> cases second <;>
    simp only [Change.make, HandleTable.erase_comm _ left right,
      HandleTable.replace_erase different, HandleTable.replace_erase different.symm,
      HandleTable.replace_comm different.symm]

theorem sight_make (different : left ≠ right) (once : token.keys.handles.Nodup)
    (apart : token.Apart left right) (change : Change) :
    (change.make left token).sight right = token.sight right := by
  cases change with
  | nothing => rfl
  | closed => simp only [Change.make, sight, HandleTable.get?_erase_ne different.symm]
  | switched mode => simp only [Change.make, sight, HandleTable.get?_replace_ne different.symm]
  | destroyed =>
      have inUse : (token.keys.erase left).entries.any (·.2.provider == right) =
          token.keys.entries.any (·.2.provider == right) := by
        rw [Bool.eq_iff_iff, List.any_eq_true, List.any_eq_true]
        constructor
        · rintro ⟨entry, member, inside⟩
          exact ⟨entry, (HandleTable.mem_entries_erase.mp member).1, inside⟩
        · rintro ⟨entry, member, inside⟩
          refine ⟨entry, HandleTable.mem_entries_erase.mpr ⟨member, ?_⟩, inside⟩
          rintro rfl
          exact apart _ (HandleTable.get?_of_mem once member) (by simpa using inside)
      simp only [Change.make, sight, HandleTable.get?_erase_ne different.symm, inUse]

theorem sight_answer (different : left ≠ right) (once : token.keys.handles.Nodup)
    (apart : token.Apart left right) (names : call.handle? = some left)
    (works : call.operation.worksOnHandle = true) :
    (token.answer call).2.sight right = token.sight right := by
  obtain ⟨reply, change, answered, -⟩ : ActsAlike left token token call :=
    actsAlike_of_sight rfl names works
  rw [answered]
  exact sight_make different once apart change

/-! ## Reached tokens -/

theorem Effect.keys_once {next : Token} (effect : token.Effect call next)
    (once : token.keys.handles.Nodup) : next.keys.handles.Nodup := by
  cases effect with
  | nothing | opened | closed | switched => exact once
  | imported provider secret object =>
      refine List.nodup_cons.mpr ⟨?_, once.sublist (List.filter_sublist.map _)⟩
      rintro member
      exact (HandleTable.mem_handles_erase.mp member).2 rfl
  | destroyed key => exact once.sublist (List.filter_sublist.map _)

theorem keys_once_afterCalls (settings : Settings) (calls : List Call) :
    ((fresh settings).afterCalls calls).keys.handles.Nodup := by
  suffices ∀ token : Token, token.keys.handles.Nodup →
      (token.afterCalls calls).keys.handles.Nodup from this _ .nil
  induction calls with
  | nil => exact fun _ once => once
  | cons call rest ih => exact fun token once => ih _ ((token.answer_effect call).keys_once once)

/-! ## Either order -/

/-- Whichever call comes first, each is answered as if it came alone, and the token comes to the
same. -/
structure Exchanges (token : Token) (first second : Call) : Prop where
  first_alike : ((token.answer second).2.answer first).1 = (token.answer first).1
  second_alike : ((token.answer first).2.answer second).1 = (token.answer second).1
  same_token : ((token.answer first).2.answer second).2 = ((token.answer second).2.answer first).2

theorem exchange_on_two_handles {settings : Settings} {calls : List Call} {first second : Call}
    (different : left ≠ right) (firstNames : first.handle? = some left)
    (secondNames : second.handle? = some right)
    (firstWorks : first.operation.worksOnHandle = true)
    (secondWorks : second.operation.worksOnHandle = true)
    (firstApart : ((fresh settings).afterCalls calls).Apart left right)
    (secondApart : ((fresh settings).afterCalls calls).Apart right left) :
    ((fresh settings).afterCalls calls).Exchanges first second := by
  have once := keys_once_afterCalls settings calls
  generalize (fresh settings).afterCalls calls = token at once firstApart secondApart ⊢
  have unseen := sight_answer different once firstApart firstNames firstWorks
  have unseen' := sight_answer different.symm once secondApart secondNames secondWorks
  obtain ⟨reply, change, alone, after⟩ := actsAlike_of_sight unseen'.symm firstNames firstWorks
  obtain ⟨reply', change', alone', after'⟩ := actsAlike_of_sight unseen.symm secondNames secondWorks
  rw [alone] at after'
  rw [alone'] at after
  constructor
  · rw [alone', after, alone]
  · rw [alone, after', alone']
  · rw [alone, alone', after, after']
    exact (make_comm different token change change').symm

/-- The provider of the handle 1 has no key and the key of the handle 3 is in the provider of
the handle 2, so closing the one and destroying the other can change places. -/
theorem closing_and_destroying_exchange :
    let provider := fun count => Handle.issuedAfter count
    let calls : List Call :=
      [.openProvider "AES" .none, .openProvider "AES" .none,
        .setProperty (provider 1) PropertyName.chainingMode (encodeWide ChainingMode.ecb.text),
        .importKey (provider 1) (Bytes.zeros 16)]
    ((fresh {}).afterCalls calls).keys.get? (provider 2) ≠ none ∧
      ((fresh {}).afterCalls calls).Exchanges (.closeProvider (provider 0))
        (.destroyKey (provider 2)) := by
  exact ⟨by decide +kernel, exchange_on_two_handles (by decide) rfl rfl rfl rfl
    (by decide +kernel) (by decide +kernel)⟩

end Token

end CipherModes
