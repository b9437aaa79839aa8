import CipherModes.Proofs.Accounts.Backend
import CipherModes.Proofs.Accounts.Entries
import CipherModes.Proofs.Token.Calls
import Mathlib.Data.List.Dedup

/-!
# Accounts of a token

A token has an entry for each open provider and for each live key, under the
handle that the holder has. As long as handles last, no two have the same.
-/

set_option autoImplicit false

namespace CipherModes

namespace HandleTable

variable {α : Type} {table : HandleTable α} {handle other : Handle} {value : α}

theorem get?_eq_none_iff : table.get? handle = none ↔ handle ∉ table.handles := by
  simp only [get?, handles, Option.map_eq_none_iff, List.find?_eq_none, List.mem_map, beq_iff_eq,
    not_exists, not_and]

theorem exists_get? (present : handle ∈ table.handles) :
    ∃ value, table.get? handle = some value := by
  rw [← Option.ne_none_iff_exists']
  exact fun absent => get?_eq_none_iff.mp absent present

theorem entries_insert (absent : table.get? handle = none) (value : α) :
    (table.insert handle value).entries = (handle, value) :: table.entries := by
  rw [insert, Entries.filter_of_find?_eq_none (Option.map_eq_none_iff.mp absent)]

theorem mem_handles_erase : other ∈ (table.erase handle).handles ↔
    other ∈ table.handles ∧ other ≠ handle := by
  simp only [erase, handles, List.mem_map, List.mem_filter, bne_iff_ne]
  constructor
  · rintro ⟨entry, ⟨present, different⟩, rfl⟩
    exact ⟨⟨entry, present, rfl⟩, different⟩
  · rintro ⟨⟨entry, present, rfl⟩, different⟩
    exact ⟨entry, ⟨present, different⟩, rfl⟩

theorem size_eq (table : HandleTable α) : table.size = table.handles.length :=
  (List.length_map _).symm

theorem size_insert (absent : table.get? handle = none) (value : α) :
    (table.insert handle value).size = table.size + 1 := by
  rw [size, entries_insert absent, List.length_cons, size]

theorem size_erase (once : table.handles.Nodup) (present : table.get? handle = some value) :
    (table.erase handle).size + 1 = table.size := by
  obtain ⟨entry, found, -⟩ := Option.map_eq_some_iff.mp present
  exact (Entries.perm_of_find? once found).length_eq.symm

theorem mem_handles_of_get? (found : table.get? handle = some value) : handle ∈ table.handles := by
  by_contra absent
  rw [get?_eq_none_iff.mpr absent] at found
  cases found

theorem mem_entries_erase {entry : Handle × α} : entry ∈ (table.erase handle).entries ↔
    entry ∈ table.entries ∧ entry.1 ≠ handle := by
  simp only [erase, List.mem_filter, bne_iff_ne]

theorem mem_entries_insert {entry : Handle × α} : entry ∈ (table.insert handle value).entries ↔
    entry = (handle, value) ∨ entry ∈ table.entries ∧ entry.1 ≠ handle := by
  rw [insert, List.mem_cons, List.mem_filter, bne_iff_ne]

theorem mem_handles_insert :
    other ∈ (table.insert handle value).handles ↔ other = handle ∨ other ∈ table.handles := by
  by_cases same : other = handle <;> simp [handles, insert, same]

theorem handles_replace (table : HandleTable α) (handle : Handle) (value : α) :
    (table.replace handle value).handles = table.handles :=
  Entries.names_replace table.entries handle value

end HandleTable

namespace Token

variable {token : Token} {providers : List Provider} {keys : List ImportedKey}

/-- Just these providers are open, each once, and just these keys are live, each in its
provider. -/
structure Exact (providers : List Provider) (keys : List ImportedKey) (token : Token) : Prop where
  accounted : token.Accounted
  open_once : token.providers.handles.Nodup
  open_iff : ∀ handle, handle ∈ token.providers.handles ↔
    ∃ provider ∈ providers, provider.raw = handle
  algorithms : ∀ provider ∈ providers, provider.algorithm = aesAlgorithm
  live_once : token.keys.handles.Nodup
  live : (token.keys.entries.map fun entry => (entry.1, entry.2.provider)).Perm
    (keys.map fun key => (key.raw, key.provider.raw))

theorem exact_fresh (settings : Settings) : Exact [] [] (fresh settings) where
  accounted := accounted_fresh settings
  open_once := .nil
  open_iff _ := ⟨nofun, nofun⟩
  algorithms := nofun
  live_once := .nil
  live := .nil

namespace Exact

/-- All providers are of one algorithm, so a handle tells them apart. -/
theorem eq_of_raw (exact : Exact providers keys token) {provider other : Provider}
    (first : provider ∈ providers) (second : other ∈ providers) (same : provider.raw = other.raw) :
    provider = other := by
  have algorithms := (exact.algorithms _ first).trans (exact.algorithms _ second).symm
  cases provider
  cases other
  cases same
  cases algorithms
  rfl

theorem kept {call : Call} (keeps : call.KeepsHandles)
    (lasts : (token.answer call).2.handlesIssued < Handle.limit)
    (exact : Exact providers keys token) : Exact providers keys (token.answer call).2 := by
  have effect := token.answer_effect call
  generalize (token.answer call).2 = next at effect lasts
  have accounted := exact.accounted.step effect lasts
  cases effect with
  | nothing => exact exact
  | opened | closed | imported | destroyed => cases keeps
  | switched provider name value mode =>
      refine ⟨accounted, ?_, ?_, exact.algorithms, exact.live_once, exact.live⟩
      · rw [HandleTable.handles_replace]
        exact exact.open_once
      · rw [HandleTable.handles_replace]
        exact exact.open_iff

theorem refused {call : Call} {error : BackendError}
    (failed : (token.answer call).1.result = .error error) (exact : Exact providers keys token) :
    Exact providers keys (token.answer call).2 := by
  rwa [unchanged_of_error failed]

theorem opened {algorithm : String} {flags : ProviderFlags} {raw : Handle}
    (success : (token.answer (.openProvider algorithm flags)).1.result = .ok raw)
    (lasts : (token.answer (.openProvider algorithm flags)).2.handlesIssued < Handle.limit)
    (exact : Exact providers keys token) :
    ⟨raw, algorithm⟩ ∉ providers ∧
      Exact (⟨raw, algorithm⟩ :: providers) keys
        (token.answer (.openProvider algorithm flags)).2 := by
  have accounted := exact.accounted.step (token.answer_effect _) lasts
  generalize answered : token.answer (.openProvider algorithm flags) = outcome
    at success lasts accounted ⊢
  simp only [answer, openProvider] at answered
  split at answered
  · cases answered
    cases success
  rename_i available
  split at answered
  · cases answered
    cases success
  cases answered
  cases success
  obtain ⟨absent, -⟩ := exact.accounted.unused (by simp only [handlesIssued] at lasts ⊢; omega)
  have fresh := HandleTable.get?_eq_none_iff.mp absent
  have handles : (token.providers.insert (.issuedAfter token.issued) .cbc).handles =
      .issuedAfter token.issued :: token.providers.handles := by
    rw [HandleTable.handles, HandleTable.entries_insert absent]
    rfl
  constructor
  · exact fun member => fresh ((exact.open_iff _).mpr ⟨_, member, rfl⟩)
  · refine ⟨accounted, ?_, ?_, ?_, exact.live_once, exact.live⟩
    · rw [handles]
      exact List.nodup_cons.mpr ⟨fresh, exact.open_once⟩
    · intro handle
      rw [handles, List.mem_cons, exact.open_iff handle, List.exists_mem_cons_iff, eq_comm]
    · rw [List.forall_mem_cons]
      exact ⟨of_not_not (not_or.mp available).1, exact.algorithms⟩

theorem imported {key : ImportedKey} {secret : Bytes}
    (success : (token.answer (.importKey key.provider.raw secret)).1.result = .ok key.raw)
    (lasts : (token.answer (.importKey key.provider.raw secret)).2.handlesIssued < Handle.limit)
    (exact : Exact providers keys token) :
    Exact providers (key :: keys) (token.answer (.importKey key.provider.raw secret)).2 := by
  have accounted := exact.accounted.step (token.answer_effect _) lasts
  generalize answered : token.answer (.importKey key.provider.raw secret) = outcome
    at success lasts accounted ⊢
  simp only [answer, importKey] at answered
  split at answered
  · cases answered
    cases success
  split at answered
  case isFalse =>
    cases answered
    cases success
  split at answered
  · cases answered
    cases success
  rename_i material made
  cases answered
  have raw : key.raw = .issuedAfter token.issued := (Except.ok.inj success).symm
  obtain ⟨-, absent⟩ := exact.accounted.unused (by simp only [handlesIssued] at lasts ⊢; omega)
  have entries := HandleTable.entries_insert absent
    ⟨key.provider.raw, UInt32.ofNat (secret.length * 8), material⟩
  refine ⟨accounted, exact.open_once, exact.open_iff, exact.algorithms, ?_, ?_⟩
  · rw [HandleTable.handles, entries]
    exact List.nodup_cons.mpr ⟨HandleTable.get?_eq_none_iff.mp absent, exact.live_once⟩
  · rw [entries, List.map_cons, List.map_cons, raw]
    exact exact.live.cons _

/-- A key that is held has an entry, in which its provider stands. -/
theorem entry_of_key (exact : Exact providers keys token) {key : ImportedKey}
    (member : key ∈ keys) :
    ∃ entry, token.keys.entries.find? (·.1 == key.raw) = some entry ∧
      (entry.1, entry.2.provider) = (key.raw, key.provider.raw) := by
  have pair : (key.raw, key.provider.raw) ∈
      token.keys.entries.map fun entry => (entry.1, entry.2.provider) :=
    exact.live.mem_iff.mpr (List.mem_map_of_mem member)
  obtain ⟨entry, present, same⟩ := List.mem_map.mp pair
  cases found : token.keys.entries.find? (·.1 == key.raw) with
  | none =>
      have other := List.find?_eq_none.mp found entry present
      exact absurd (congrArg Prod.fst same) (by simpa using other)
  | some first =>
      rw [Entries.eq_of_mem exact.live_once found present (congrArg Prod.fst same)] at same
      exact ⟨first, rfl, same⟩

theorem closed {provider : Provider} (unheld : provider ∉ providers)
    (covered : ∀ key ∈ keys, key.provider ∈ providers)
    (lasts : (token.answer (.closeProvider provider.raw)).2.handlesIssued < Handle.limit)
    (exact : Exact (provider :: providers) keys token) :
    (token.answer (.closeProvider provider.raw)).1.result = .ok () ∧
      Exact providers keys (token.answer (.closeProvider provider.raw)).2 := by
  have accounted := exact.accounted.step (token.answer_effect _) lasts
  have apart : ∀ other ∈ providers, other.raw ≠ provider.raw := by
    intro other member same
    rw [exact.eq_of_raw (List.mem_cons_of_mem _ member) (.head _) same] at member
    exact unheld member
  have empty : ¬ token.keys.entries.any (·.2.provider == provider.raw) := by
    rw [List.any_eq_true]
    rintro ⟨entry, present, inside⟩
    have pair := exact.live.mem_iff.mp
      (List.mem_map_of_mem (f := fun entry => (entry.1, entry.2.provider)) present)
    obtain ⟨key, member, same⟩ := List.mem_map.mp pair
    exact apart _ (covered key member) ((congrArg Prod.snd same).trans (by simpa using inside))
  obtain ⟨mode, present⟩ := HandleTable.exists_get?
    ((exact.open_iff provider.raw).mpr ⟨provider, .head _, rfl⟩)
  simp only [answer, closeProvider, if_neg empty, present] at accounted ⊢
  refine ⟨rfl, accounted, ?_, ?_, (List.forall_mem_cons.mp exact.algorithms).2, exact.live_once,
    exact.live⟩
  · exact (List.filter_sublist.map _).nodup exact.open_once
  · intro handle
    rw [HandleTable.mem_handles_erase, exact.open_iff handle]
    constructor
    · rintro ⟨⟨other, member, rfl⟩, different⟩
      rcases List.mem_cons.mp member with rfl | member
      · exact absurd rfl different
      · exact ⟨other, member, rfl⟩
    · rintro ⟨other, member, rfl⟩
      exact ⟨⟨other, List.mem_cons_of_mem _ member, rfl⟩, apart other member⟩

theorem destroyed {key : ImportedKey}
    (lasts : (token.answer (.destroyKey key.raw)).2.handlesIssued < Handle.limit)
    (exact : Exact providers (key :: keys) token) :
    (token.answer (.destroyKey key.raw)).1.result = .ok () ∧
      Exact providers keys (token.answer (.destroyKey key.raw)).2 := by
  have accounted := exact.accounted.step (token.answer_effect _) lasts
  obtain ⟨entry, found, same⟩ := exact.entry_of_key (.head _)
  have present : token.keys.get? key.raw = some entry.2 := congrArg (Option.map Prod.snd) found
  simp only [answer, destroyKey, present] at accounted ⊢
  refine ⟨rfl, accounted, exact.open_once, exact.open_iff, exact.algorithms, ?_, ?_⟩
  · exact (List.filter_sublist.map _).nodup exact.live_once
  · have apart := (Entries.perm_of_find? exact.live_once found).map fun entry =>
      (entry.1, entry.2.provider)
    rw [List.map_cons, same] at apart
    exact (apart.symm.trans exact.live).cons_inv

end Exact

/-- What some holders hold is on the token, and nothing else is. A key is told by its handle and
that of its provider. -/
structure Tallies (providers : List Handle) (keys : List (Handle × Handle)) (token : Token) :
    Prop where
  open_providers : token.providers.size = providers.dedup.length
  live_keys : token.keys.size = keys.length
  provider_found : ∀ provider ∈ providers, ∃ mode, token.providers.get? provider = some mode
  key_found : ∀ key ∈ keys, ∃ object, token.keys.get? key.1 = some object ∧
    object.provider = key.2 ∧ key.2 ∈ providers

/-- A key that is held is found with its provider. -/
theorem Exact.tallies (exact : Exact providers keys token)
    (covered : ∀ key ∈ keys, key.provider ∈ providers) :
    token.Tallies (providers.map Provider.raw)
      (keys.map fun key => (key.raw, key.provider.raw)) where
  open_providers := by
    have perm : token.providers.handles.Perm (providers.map Provider.raw).dedup := by
      rw [List.perm_ext_iff_of_nodup exact.open_once (List.nodup_dedup _)]
      intro handle
      rw [exact.open_iff handle, List.mem_dedup, List.mem_map]
    have length := perm.length_eq
    rwa [HandleTable.handles, List.length_map] at length
  live_keys := by
    have length := exact.live.length_eq
    rwa [List.length_map] at length
  provider_found := by
    intro handle member
    obtain ⟨provider, held, same⟩ := List.mem_map.mp member
    exact HandleTable.exists_get? ((exact.open_iff handle).mpr ⟨provider, held, same⟩)
  key_found := by
    intro pair member
    obtain ⟨key, held, rfl⟩ := List.mem_map.mp member
    obtain ⟨entry, found, same⟩ := exact.entry_of_key held
    exact ⟨entry.2, congrArg (Option.map Prod.snd) found, congrArg Prod.snd same,
      List.mem_map_of_mem (covered key held)⟩

/-! ## Which calls succeed -/

theorem closable_of_ok {provider : Handle}
    (success : (token.answer (.closeProvider provider)).1.result = .ok ()) :
    provider ∈ token.providers.handles ∧
      ∀ entry ∈ token.keys.entries, entry.2.provider ≠ provider := by
  simp only [answer, closeProvider] at success
  split at success
  · cases success
  rename_i unused
  constructor
  · by_contra absent
    rw [HandleTable.get?_eq_none_iff.mpr absent] at success
    cases success
  · intro entry member same
    exact unused (List.any_eq_true.mpr ⟨entry, member, by simpa using same⟩)

theorem provider_of_imported {provider key : Handle} {secret : Bytes}
    (success : (token.answer (.importKey provider secret)).1.result = .ok key) :
    provider ∈ token.providers.handles := by
  by_contra absent
  simp only [answer, importKey, HandleTable.get?_eq_none_iff.mpr absent] at success
  cases success

theorem key_of_destroyed {key : Handle}
    (success : (token.answer (.destroyKey key)).1.result = .ok ()) :
    key ∈ token.keys.handles := by
  by_contra absent
  simp only [answer, destroyKey, HandleTable.get?_eq_none_iff.mpr absent] at success
  cases success

/-- A token keeps accounts. -/
def accounting : backend.Accounting where
  Lasts token := token.handlesIssued < Handle.limit
  Exact := Exact
  lasts_before {call token} lasts :=
    Nat.lt_of_le_of_lt (token.answer_effect call).handlesIssued_le lasts
  exact_of_same exact members perm :=
    { exact with
      open_iff := fun handle => (exact.open_iff handle).trans (by simp only [members])
      algorithms := fun provider member => exact.algorithms provider ((members provider).mpr member)
      live := exact.live.trans (perm.map _) }
  kept keeps lasts exact := exact.kept keeps lasts
  refused _ failed _ exact := exact.refused failed
  opened success lasts exact := exact.opened success lasts
  imported success lasts exact := exact.imported success lasts
  closed unheld covered lasts exact := exact.closed unheld covered lasts
  destroyed lasts exact := exact.destroyed lasts

end Token

end CipherModes
