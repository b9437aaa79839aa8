import CipherModes.Proofs.Attempts.Setup

/-!
# What an engine leaves behind

An engine that asks for the provider of a mode has it in its cache, or opens it
and puts it there, or fails and closes what it has opened. Whatever calls fail,
nothing is left behind but providers that are cached with what they reported.
-/

set_option autoImplicit false

namespace CipherModes

namespace HandleTable

variable {α : Type} {table : HandleTable α} {handle : Handle}

theorem replace_insert_self (table : HandleTable α) (handle : Handle) (value other : α) :
    (table.insert handle value).replace handle other = table.insert handle other := by
  have others : (table.entries.filter (·.1 != handle)).map (fun entry =>
      if entry.1 == handle then (entry.1, other) else entry) =
        table.entries.filter (·.1 != handle) := by
    refine (List.map_congr_left ?_).trans (List.map_id _)
    intro entry member
    have different : ¬ (entry.1 == handle) = true := by simpa using (List.mem_filter.mp member).2
    rw [if_neg different, id]
  simpa [replace, insert] using others

theorem erase_insert (absent : table.get? handle = none) (value : α) :
    (table.insert handle value).erase handle = table := by
  have others := Entries.filter_of_find?_eq_none (Option.map_eq_none_iff.mp absent)
  simp [erase, insert, others]

end HandleTable

namespace Token

variable {token : Token}

theorem withProvider_replace (token : Token) (mode : ChainingMode) :
    { token.withProvider .cbc with providers :=
        (token.withProvider .cbc).providers.replace (.issuedAfter token.issued) mode } =
      token.withProvider mode := by
  simp only [withProvider, HandleTable.replace_insert_self]

theorem handlesIssued_withProvider (token : Token) (mode : ChainingMode) :
    (token.withProvider mode).handlesIssued = token.handlesIssued + 1 :=
  Nat.add_right_comm ..

theorem follows_withProvider (opening : token.settings.opening = .ok ())
    (mode : ChainingMode) : token.Follows (token.withProvider mode) := by
  have opened := Follows.answer token (.openProvider aesAlgorithm .none)
  rw [answer_open, if_neg (Settings.enabled_of_opening opening)] at opened
  have switched := Follows.answer (token.withProvider .cbc)
    (.setProperty (.issuedAfter token.issued) PropertyName.chainingMode (encodeWide mode.text))
  rw [answer_setMode mode (HandleTable.get?_insert_self ..), withProvider_replace] at switched
  exact opened.trans switched

/-- A provider that was just opened can be closed, and then all is as before but the counts. -/
theorem close_withProvider (accounted : token.Accounted) (inside : token.KeysInside)
    (remain : token.handlesIssued + 1 < Handle.limit) (mode : ChainingMode) :
    let closed := ((token.withProvider mode).answer (.closeProvider (.issuedAfter token.issued))).2
    closed.providers = token.providers ∧ closed.keys = token.keys := by
  have unused := (accounted.unused remain).1
  have idle : ¬ token.keys.entries.any (·.2.provider == .issuedAfter token.issued) := by
    rw [List.any_eq_true]
    intro used
    obtain ⟨entry, member, same⟩ := used
    have present := inside entry member
    rw [beq_iff_eq.mp same] at present
    exact HandleTable.get?_eq_none_iff.mp unused present
  simp only [answer, closeProvider, withProvider, if_neg idle, HandleTable.get?_insert_self,
    HandleTable.erase_insert unused]
  exact ⟨trivial, trivial⟩

end Token

namespace Driven

/-- The token that an engine drives behind a plan. -/
abbrev token (state : Driven (Interposed Token)) : Token := state.backend.inner

abbrev Lasts (state : Driven (Interposed Token)) : Prop :=
  state.token.handlesIssued < Handle.limit

variable {plan : Plan} {state next : Driven (Interposed Token)} {mode : ChainingMode}

/-- What is cached for a mode: a provider that is open in the mode, with what it reported. -/
structure Validated (plan : Plan) (token : Token) (entry : CacheKey × AesAlgorithm) : Prop where
  mode_set : ∃ mode, entry.1 = cacheKey mode ∧
    token.providers.get? entry.2.provider.raw = some mode
  reported : plan.offer token.settings = .ok (entry.2.allowed, entry.2.blockSize)
  named : entry.2.provider.algorithm = aesAlgorithm

/-- The token has accounts of its handles, and the engine has cached nothing that is not sound. -/
structure Sound (plan : Plan) (state : Driven (Interposed Token)) : Prop where
  accounted : state.token.Accounted
  inside : state.token.KeysInside
  cached : ∀ entry ∈ state.cache.entries, Validated plan state.token entry

/-- The keys are the same, and at most one provider was opened and is cached. -/
inductive Residue (plan : Plan) (state next : Driven (Interposed Token)) : Prop where
  | nothing (keys : next.token.keys = state.token.keys)
      (entries : next.cache.entries = state.cache.entries)
      (providers : next.token.providers = state.token.providers)
  | provider {mode : ChainingMode} {algorithm : AesAlgorithm}
      (keys : next.token.keys = state.token.keys)
      (entries : next.cache.entries = state.cache.entries ++ [(cacheKey mode, algorithm)])
      (unused : state.token.providers.get? algorithm.provider.raw = none)
      (providers : next.token.providers = state.token.providers.insert algorithm.provider.raw mode)
      (reported : plan.offer state.token.settings = .ok (algorithm.allowed, algorithm.blockSize))
      (named : algorithm.provider.algorithm = aesAlgorithm)

/-- As long as there are handles left, nothing else is left behind. -/
structure Leaves (plan : Plan) (state next : Driven (Interposed Token)) : Prop where
  follows : state.token.Follows next.token
  residue : next.Lasts → Residue plan state next

theorem Leaves.unchanged (state : Driven (Interposed Token)) : Leaves plan state state :=
  ⟨.refl _, fun _ => .nothing rfl rfl rfl⟩

theorem Residue.of_same {middle : Driven (Interposed Token)} (residue : Residue plan state middle)
    (sameKeys : next.token.keys = middle.token.keys) (cache : next.cache = middle.cache)
    (sameProviders : next.token.providers = middle.token.providers) : Residue plan state next := by
  cases residue with
  | nothing keys entries providers =>
      exact .nothing (sameKeys.trans keys) (cache ▸ entries) (sameProviders.trans providers)
  | provider keys entries unused providers reported named =>
      exact .provider (sameKeys.trans keys) (cache ▸ entries) unused
        (sameProviders.trans providers) reported named

theorem Sound.after (sound : state.Sound plan) (leaves : Leaves plan state next)
    (remain : next.Lasts) : next.Sound plan := by
  refine ⟨leaves.follows.accounted remain sound.accounted,
    leaves.follows.keysInside sound.inside, ?_⟩
  have settings := leaves.follows.settings_eq
  cases leaves.residue remain with
  | nothing keys entries providers =>
      rw [entries]
      intro entry member
      obtain ⟨set, reported, named⟩ := sound.cached entry member
      exact ⟨providers ▸ set, settings ▸ reported, named⟩
  | @provider mode algorithm keys entries unused providers reported named =>
      rw [entries, List.forall_mem_append, List.forall_mem_singleton]
      constructor
      · intro entry member
        obtain ⟨⟨other, key, present⟩, reported, named⟩ := sound.cached entry member
        refine ⟨⟨other, key, ?_⟩, settings ▸ reported, named⟩
        -- The new provider has a handle of its own, so those cached before keep their modes.
        have different : entry.2.provider.raw ≠ algorithm.provider.raw := by
          intro same
          rw [same, unused] at present
          cases present
        rw [providers, HandleTable.get?_insert_ne different, present]
      · refine ⟨⟨mode, rfl, ?_⟩, settings ▸ reported, named⟩
        rw [providers, HandleTable.get?_insert_self]

theorem Sound.present (sound : state.Sound plan) {algorithm : AesAlgorithm}
    (member : (cacheKey mode, algorithm) ∈ state.cache.entries) :
    state.token.providers.get? algorithm.provider.raw = some mode := by
  obtain ⟨other, key, present⟩ := (sound.cached _ member).mode_set
  rwa [← cacheKey_injective key] at present

/-! ## Asking for a provider -/

/-- The provider that an engine opens next. -/
def newProvider (token : Token) : Provider := ⟨.issuedAfter token.issued, aesAlgorithm⟩

/-- A cache in which one more provider has been begun to be set up. -/
def begun (cache : ProviderCache AesAlgorithm) : ProviderCache AesAlgorithm :=
  { cache with started := cache.started + 1 }

/-- How asking an engine for the provider of a mode ends behind a plan, and what is expected. -/
inductive Obtained (plan : Plan) (mode : ChainingMode) (state : Driven (Interposed Token)) :
    Except CipherError AesAlgorithm × Driven (Interposed Token) → Prop where
  | cached {algorithm : AesAlgorithm}
      (found : state.cache.find? (cacheKey mode) = some algorithm) :
      Obtained plan mode state (.ok algorithm, state)
  | unopened {error : CipherError} {opened : Interposed Token}
      (expects : plan.Calm → plan.offer state.token.settings = .error error)
      (same : opened.inner = state.token) :
      Obtained plan mode state (.error error, { state with backend := opened })
  | closed {error : CipherError} {last : Interposed Token} {set : ChainingMode}
      (opening : state.token.settings.opening = .ok ())
      (expects : plan.Calm → plan.offer state.token.settings = .error error)
      (opened : last.inner = state.token.withProvider set) :
      Obtained plan mode state
        (.error error,
          { cache := begun state.cache
            backend := ((newProvider state.token).release (Token.backend.interposed plan) last).2 })
  | opened {algorithm : AesAlgorithm} {last : Interposed Token}
      (opening : state.token.settings.opening = .ok ())
      (offers : plan.offer state.token.settings = .ok (algorithm.allowed, algorithm.blockSize))
      (new : algorithm.provider = newProvider state.token)
      (opened : last.inner = state.token.withProvider mode) :
      Obtained plan mode state
        (.ok algorithm,
          { cache := (begun state.cache).insert (cacheKey mode) algorithm, backend := last })

theorem obtained_algorithm (plan : Plan) (mode : ChainingMode)
    (state : Driven (Interposed Token)) :
    Obtained plan mode state (algorithm (Token.backend.interposed plan) mode state) := by
  cases found : state.cache.find? (cacheKey mode) with
  | some cached =>
      rw [algorithm_of_found found]
      exact .cached found
  | none =>
      have acquiring := Provider.acquire_meets plan state.backend
      cases acquired : Provider.acquire (Token.backend.interposed plan) aesAlgorithm .none
          state.backend with
      | mk result opened =>
          rw [acquired] at acquiring
          cases acquiring with
          | error expects same =>
              rw [algorithm_of_acquire_error found acquired]
              refine .unopened (fun calm => ?_) same
              rw [Plan.offer, expects calm]
              rfl
          | ok opening holds =>
              obtain ⟨rfl, same⟩ := holds
              have offered :
                  plan.offer state.token.settings = plan.limits opened.inner.settings := by
                rw [Plan.offer, opening, same]
                rfl
              have present : opened.inner.providers.get? (.issuedAfter state.token.issued) =
                  some .cbc := by
                rw [same]
                exact HandleTable.get?_insert_self ..
              have setting :=
                AesAlgorithm.initialise_meets plan mode (newProvider state.token) present
              rw [← offered, same, newProvider, state.token.withProvider_replace] at setting
              cases ran : AesAlgorithm.initialise (Token.backend.interposed plan) mode
                  ⟨.issuedAfter state.token.issued, aesAlgorithm⟩ opened with
              | mk outcome last =>
                  rw [ran] at setting
                  cases setting with
                  | ok offers holds =>
                      obtain ⟨rfl, switched⟩ := holds
                      rw [algorithm_of_ok found acquired ran]
                      exact .opened opening offers rfl switched
                  | error offers holds =>
                      rw [algorithm_of_initialise_error found acquired ran]
                      obtain unset | switched := holds
                      · exact .closed opening offers unset
                      · exact .closed opening offers switched

theorem release_newProvider (spares : plan.SparesReleases) (token : Token)
    (last : Interposed Token) :
    ((newProvider token).release (Token.backend.interposed plan) last).2.inner =
      (last.inner.answer (.closeProvider (.issuedAfter token.issued))).2 :=
  Plan.inner_of_release spares rfl last

section

variable {outcome : Except CipherError AesAlgorithm × Driven (Interposed Token)}
  (spares : plan.SparesReleases)
include spares

theorem Obtained.follows (obtained : Obtained plan mode state outcome) :
    state.token.Follows outcome.2.token := by
  cases obtained with
  | cached found => exact .refl _
  | unopened expects same => exact same ▸ .refl _
  | closed opening expects opened =>
      dsimp only [token]
      rw [release_newProvider spares, opened]
      exact (Token.follows_withProvider opening _).trans (.answer _ _)
  | opened opening offers new opened =>
      dsimp only [token]
      rw [opened]
      exact Token.follows_withProvider opening mode

theorem Obtained.leaves (sound : state.Sound plan) (obtained : Obtained plan mode state outcome) :
    Leaves plan state outcome.2 := by
  refine ⟨obtained.follows spares, ?_⟩
  cases obtained with
  | cached found => exact fun _ => .nothing rfl rfl rfl
  | unopened expects same =>
      exact fun _ => .nothing (congrArg Token.keys same) rfl (congrArg Token.providers same)
  | closed opening expects opened =>
      have released := release_newProvider spares state.backend.inner
      dsimp only [Lasts, token]
      rw [released, opened, Token.handlesIssued_of_release rfl, Token.handlesIssued_withProvider]
      intro remain
      obtain ⟨providers, keys⟩ := Token.close_withProvider sound.accounted sound.inside remain _
      refine .nothing ?_ rfl ?_
      · dsimp only [token]
        rw [released, opened, keys]
      · dsimp only [token]
        rw [released, opened, providers]
  | opened opening offers new opened =>
      dsimp only [Lasts, token]
      rw [opened, Token.handlesIssued_withProvider]
      intro remain
      have unused := (sound.accounted.unused remain).1
      refine .provider ?_ rfl (new ▸ unused) ?_ offers (new ▸ rfl)
      · exact (congrArg Token.keys opened).trans rfl
      · rw [new]
        exact (congrArg Token.providers opened).trans rfl

/-- An engine comes to a provider that is cached with what could be told of it, or it fails. -/
theorem algorithm_meets (sound : state.Sound plan) (mode : ChainingMode) :
    Meets plan (plan.offer state.token.settings)
      (fun algorithm told next => Leaves plan state next ∧
        (cacheKey mode, algorithm) ∈ next.cache.entries ∧
        told = (algorithm.allowed, algorithm.blockSize))
      (Leaves plan state) (algorithm (Token.backend.interposed plan) mode state) := by
  have obtained := obtained_algorithm plan mode state
  have leaves := obtained.leaves spares sound
  generalize algorithm (Token.backend.interposed plan) mode state = outcome at obtained leaves ⊢
  cases obtained with
  | cached found =>
      have member := ProviderCache.mem_of_find? found
      exact .ok (sound.cached _ member).reported ⟨leaves, member, rfl⟩
  | unopened expects | closed opening expects => exact .error expects leaves
  | opened opening offers =>
      exact .ok offers ⟨leaves, List.mem_append_right _ (.head _), rfl⟩

end

/-! ## Reachable states -/

/-- What an engine and its token can come to behind a plan: the engine asks for providers, and
meanwhile anyone calls the token, but leaves the engine's providers alone. -/
inductive ReachedBehind (plan : Plan) : Driven (Interposed Token) → Prop where
  | fresh (settings : Settings) : ReachedBehind plan (.fresh { inner := .fresh settings })
  | asked {state : Driven (Interposed Token)} (mode : ChainingMode) :
      ReachedBehind plan state →
        ReachedBehind plan (algorithm (Token.backend.interposed plan) mode state).2
  | called {state : Driven (Interposed Token)} (call : Call) :
      ReachedBehind plan state →
      (∀ entry ∈ state.cache.entries, call.LeavesAlone entry.2.provider.raw) →
        ReachedBehind plan
          { state with backend := ((Token.backend.interposed plan).answer call state.backend).2 }

theorem Sound.called (sound : state.Sound plan) {call : Call} {reply : Reply call}
    {last : Interposed Token} (fronted : state.token.Fronted call reply last.inner)
    (alone : ∀ entry ∈ state.cache.entries, call.LeavesAlone entry.2.provider.raw)
    (remain : last.inner.handlesIssued < Handle.limit) :
    Sound plan { state with backend := last } := by
  have effect := fronted.effect
  refine ⟨sound.accounted.step effect remain, ?_, ?_⟩
  · change last.inner.KeysInside
    generalize last.inner = after at fronted
    cases fronted with
    | passed => exact sound.inside.answer call
    | failed | told => exact sound.inside
  · intro entry member
    obtain ⟨⟨mode, key, present⟩, reported, named⟩ := sound.cached entry member
    have kept := effect.provider_kept sound.accounted remain (alone entry member) present
    exact ⟨⟨mode, key, kept⟩, effect.settings_eq ▸ reported, named⟩

theorem ReachedBehind.sound (spares : plan.SparesReleases) (reached : ReachedBehind plan state)
    (remain : state.Lasts) : state.Sound plan := by
  -- Handles are only ever issued, so those that remain in the end remained all along.
  induction reached with
  | fresh settings => exact ⟨Token.accounted_fresh settings, nofun, nofun⟩
  | @asked state mode _ ih =>
      have obtained := obtained_algorithm plan mode state
      have before := Nat.lt_of_le_of_lt (obtained.follows spares).issued_le remain
      exact (ih before).after (obtained.leaves spares (ih before)) remain
  | @called state call _ alone ih =>
      have fronted := (Token.fronting.interposed plan).answered call state.backend
      have before := Nat.lt_of_le_of_lt fronted.effect.handlesIssued_le remain
      exact (ih before).called fronted alone remain

end Driven

end CipherModes
