import CipherModes.Proofs.Attempts.Objects

/-!
# Attempts that failed are forgotten

Whatever call made an attempt at a cipher or a GCM fail, it leaves at most a
provider behind, cached for the next one. What there was goes on as before, and
a new attempt that no call makes fail comes to what it would have come to.
-/

set_option autoImplicit false

namespace CipherModes

namespace Driven

variable {plan : Plan} {state next : Driven (Interposed Token)}

namespace Residue

variable (residue : Residue plan state next)
include residue

theorem keys_eq : next.token.keys = state.token.keys := by
  cases residue with
  | nothing keys | provider keys => exact keys

theorem providers_size : next.token.providers.size + state.cache.size =
    state.token.providers.size + next.cache.size := by
  cases residue with
  | nothing keys entries providers =>
      rw [ProviderCache.size, ProviderCache.size, entries, providers]
  | provider keys entries unused providers =>
      rw [ProviderCache.size, ProviderCache.size, entries, providers,
        HandleTable.size_insert unused, List.length_append]
      exact (Nat.add_right_comm ..).trans (Nat.add_assoc ..)

theorem provider_kept {handle : Handle} {mode : ChainingMode}
    (present : state.token.providers.get? handle = some mode) :
    next.token.providers.get? handle = some mode := by
  cases residue with
  | nothing keys entries providers => rw [providers, present]
  | @provider _ algorithm keys entries unused providers =>
      have different : handle ≠ algorithm.provider.raw := by
        intro same
        rw [same, unused] at present
        cases present
      rw [providers, HandleTable.get?_insert_ne different, present]

theorem entries_eq : ∃ added, next.cache.entries = state.cache.entries ++ added := by
  cases residue with
  | nothing keys entries => exact ⟨[], entries.trans (List.append_nil _).symm⟩
  | provider keys entries => exact ⟨_, entries⟩

end Residue

theorem Sound.calm (sound : state.Sound plan) : state.Sound plan.calm := by
  refine ⟨sound.accounted, sound.inside, fun entry member => ?_⟩
  obtain ⟨set, reported, named⟩ := sound.cached entry member
  exact ⟨set, (plan.offer_calm _).trans reported, named⟩

/-- The same error, or objects that differ in nothing but the handles of their keys and behave the
same where they were made. -/
inductive SameEnd : Except CipherError Created × Driven (Interposed Token) →
    Except CipherError Created × Driven (Interposed Token) → Prop where
  | failed {error : CipherError} {next other : Driven (Interposed Token)} :
      SameEnd (.error error, next) (.error error, other)
  | made {created twin : Created} {next other : Driven (Interposed Token)}
      {material : KeyMaterial} (alike : created.Alike twin)
      (live : next.token.material? created.key.raw = some material)
      (twinLive : other.token.material? twin.key.raw = some material)
      (behaves : created.BehavesAs twin next.token other.token) :
      SameEnd (.ok created, next) (.ok twin, other)

/-- What can be said of an engine and its token after an attempt from which nothing was made. -/
structure Forgets (plan : Plan) (state next : Driven (Interposed Token)) : Prop where
  keys : next.token.keys = state.token.keys
  /-- As many providers are open that the engine has not cached. -/
  uncached : next.token.providers.size + state.cache.size =
    state.token.providers.size + next.cache.size
  kept : ∀ handle mode, state.token.providers.get? handle = some mode →
    next.token.providers.get? handle = some mode
  cached : ∃ added, next.cache.entries = state.cache.entries ++ added ∧
    ∀ entry ∈ added, Validated plan next.token entry ∧ entry.2.allowed.lengths.WellFormed ∧
      entry.2.blockSize ≠ 0
  existing : ∀ object : Created, object.BehavesAs object state.token next.token
  repeated : ∀ creation : Creation,
    (creation.run (Token.backend.interposed plan.calm) next).2.Lasts →
    (creation.run (Token.backend.interposed plan.calm) state).2.Lasts →
      SameEnd (creation.run (Token.backend.interposed plan.calm) next)
        (creation.run (Token.backend.interposed plan.calm) state)

theorem Leaves.forgets (leaves : Leaves plan state next) (sound : state.Sound plan)
    (lasts : next.Lasts) : Forgets plan state next := by
  have residue := leaves.residue lasts
  have after := sound.after leaves lasts
  refine ⟨residue.keys_eq, residue.providers_size, fun _ _ => residue.provider_kept, ?_, ?_, ?_⟩
  case refine_1 =>
    obtain ⟨added, entries⟩ := residue.entries_eq
    refine ⟨added, entries, fun entry member => ?_⟩
    have validated := after.cached entry (entries ▸ List.mem_append_right _ member)
    exact ⟨validated, entry.2.allowed.wellFormed, Plan.blockSize_of_offer validated.reported⟩
  case refine_2 =>
    intro object
    apply (Created.Alike.refl object).behavesAs
    rw [Token.material?, Token.material?, residue.keys_eq]
  case refine_3 =>
    intro creation lasts others
    -- Providers report the same where no call fails, so both states are sound there as well.
    have comparable : Comparable plan.calm next state :=
      ⟨plan.calm_calm, after.calm, sound.calm, leaves.follows.settings_eq⟩
    have ended := creation.run_alike comparable lasts others
    generalize creation.run (Token.backend.interposed plan.calm) next = outcome at ended ⊢
    generalize creation.run (Token.backend.interposed plan.calm) state = other at ended ⊢
    cases ended with
    | error => exact .failed
    | ok same live twinLive =>
        exact .made same live twinLive (same.behavesAs (live.trans twinLive.symm))

/-- However an attempt fails, it leaves the keys as they were and no provider but in the cache,
what there was behaves as before, and so does what is made after it. -/
theorem failed_attempt_is_forgotten {error : CipherError} (spares : plan.SparesReleases)
    (reached : state.ReachedBehind plan) {creation : Creation}
    (failed : creation.run (Token.backend.interposed plan) state = (.error error, next))
    (lasts : next.Lasts) : Forgets plan state next := by
  have follows := creation.run_follows spares state
  rw [failed] at follows
  have sound := ReachedBehind.sound spares reached (Nat.lt_of_le_of_lt follows.issued_le lasts)
  exact (creation.run_leaves spares sound lasts failed).forgets sound lasts

/-- The first block of a GCM over blocks fails, so that its key was imported in vain. Once more, and
it is made. -/
theorem failed_attempt_is_forgotten_when_block_fails :
    ∃ plan : Plan, plan.fault .encrypt 1 = some .notSupported ∧
      let backend := Token.backend.interposed plan
      let start : Driven (Interposed Token) := .fresh { inner := .fresh .default }
      let provider : Provider := ⟨⟨1, by decide⟩, aesAlgorithm⟩
      let cipher : AesCipher := ⟨0, ⟨provider, ⟨2, by decide⟩, 128⟩, Bytes.zeros 16, 16⟩
      let first : Except CipherError Created × Driven (Interposed Token) :=
        (Creation.cipher 0 (Bytes.zeros 16)).run backend start
      let second : Except CipherError Created × Driven (Interposed Token) :=
        (Creation.gcm cipher 8 16).run backend first.2
      let third : Except CipherError Created × Driven (Interposed Token) :=
        (Creation.gcm cipher 8 16).run (Token.backend.interposed plan.calm) second.2
      first.1 = .ok (.cipher cipher) ∧
        second.1 = .error (.backend ⟨Operation.encrypt.name, .notSupported⟩) ∧
        second.2.token.counters = [1, 1, 1, 2] ∧ Forgets plan first.2 second.2 ∧
        third.1.isOk = true ∧ third.2.token.counters = [1, 2, 1, 3] := by
  let plan : Plan :=
    { fault := fun
        | .encrypt, 1 => some .notSupported
        | _, _ => none }
  refine ⟨plan, rfl, ?_⟩
  intro backend start provider cipher first second third
  have spares : plan.SparesReleases := fun operation number release => by
    cases operation <;> first | rfl | cases release
  have fresh : start.ReachedBehind plan := .fresh .default
  have reached : first.2.ReachedBehind plan :=
    Creation.run_reached fresh (.cipher 0 (Bytes.zeros 16))
  have failed : second.1 = .error (.backend ⟨Operation.encrypt.name, .notSupported⟩) := by
    decide +kernel
  have ran : (Creation.gcm cipher 8 16).run backend first.2 =
      (.error (.backend ⟨Operation.encrypt.name, .notSupported⟩), second.2) := by
    rw [← failed]
    exact (Prod.eta second).symm
  have lasts : second.2.Lasts := by decide +kernel
  have forgets : Forgets plan first.2 second.2 :=
    failed_attempt_is_forgotten spares reached ran lasts
  have third_ok : third.1.isOk = true := by decide +kernel
  exact ⟨by decide +kernel, failed, by decide +kernel, forgets, third_ok, by decide +kernel⟩

end Driven

end CipherModes
