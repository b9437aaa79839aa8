import CipherModes.Proofs.Attempts.Objects

/-!
# Engines that are left alone

An engine works on a token on which no call is made to fail, and nobody else touches the providers
that it has cached. Then the settings alone say what it comes to when it asks for a provider: what
it has cached it was offered, and what it is offered does not change. This holds however many
handles have been issued, also when a handle is issued a second time.
-/

set_option autoImplicit false

namespace CipherModes

/-! ## What a token offers -/

namespace Settings

/-- The key lengths and the block length that a token reports of its providers where nothing is
planned for them, if they make sense. -/
def limits (settings : Settings) : Except CipherError (AllowedKeyLengths × Nat) :=
  ({} : Plan).limits settings

/-- What an engine can know of a provider that it opens. -/
def offer (settings : Settings) : Except CipherError (AllowedKeyLengths × Nat) :=
  ({} : Plan).offer settings

theorem limits_eq (settings : Settings) : settings.limits = do
    let allowed ← AllowedKeyLengths.check settings.keyLengths
    if settings.blockLength = 0 then throw (.invalidBlockSize 0)
    else return (allowed, settings.blockLength.toNat) := by
  simp only [limits, Plan.limits, Plan.read_of_nothing _ (KeyLengths.length_encode _),
    Plan.read_of_nothing _ (length_encodeWord _), bind, Except.bind, KeyLengths.decode_encode,
    decodeWord_encodeWord]

theorem offer_eq (settings : Settings) :
    settings.offer = settings.opening >>= fun _ => settings.limits := rfl

theorem blockSize_of_offer {settings : Settings} {told : AllowedKeyLengths × Nat}
    (offers : settings.offer = .ok told) : told.2 = settings.blockLength.toNat := by
  simp only [offer_eq, limits_eq, bind, Except.bind] at offers
  split at offers
  · cases offers
  · split at offers
    · cases offers
    · split at offers
      · cases offers
      · cases offers
        rfl

end Settings

variable {settings : Settings} {token : Token} {provider : Provider} {mode old : ChainingMode}

theorem Provider.setText_mode (mode : ChainingMode)
    (present : token.providers.get? provider.raw = some old) :
    provider.setText Token.backend PropertyName.chainingMode mode.text token =
      (.ok (), { token with providers := token.providers.replace provider.raw mode }) := by
  have answered := Token.answer_setMode mode present
  simp only [setText, Action.ofCall, Backend.setText, Token.backend, answered]
  rfl

/-- A provider is put into its mode, whether its limits make sense or not. -/
theorem AesAlgorithm.initialise_eq (mode : ChainingMode)
    (present : token.providers.get? provider.raw = some old) :
    initialise Token.backend mode provider token =
      (token.settings.limits.map fun told => ⟨provider, told.1, told.2⟩,
        { token with providers := token.providers.replace provider.raw mode }) := by
  let switched : Token :=
    { token with providers := token.providers.replace provider.raw mode }
  have still : switched.providers.get? provider.raw = some mode :=
    HandleTable.get?_replace_self present mode
  rw [initialise, Action.bind_of_ok (Provider.setText_mode mode present),
    Action.bind_of_ok (Provider.getKeyLengths_keyLengths still), Settings.limits_eq]
  cases AllowedKeyLengths.check token.settings.keyLengths with
  | error error => rfl
  | ok allowed =>
      change (provider.getWord Token.backend PropertyName.blockLength >>= _) switched = _
      rw [Action.bind_of_ok (Provider.getWord_blockLength still)]
      by_cases zero : switched.settings.blockLength = 0
      · have same : token.settings.blockLength = 0 := zero
        simp only [if_pos zero, bind, Except.bind, if_pos same]
        rfl
      · have same : token.settings.blockLength ≠ 0 := zero
        simp only [if_neg zero, bind, Except.bind, if_neg same]
        rfl

theorem Provider.acquire_aes (token : Token) :
    acquire Token.backend aesAlgorithm .none token =
      match token.settings.opening with
      | .error error => (.error error, token)
      | .ok _ => (.ok (Driven.newProvider token), token.withProvider .cbc) := by
  simp only [acquire, Token.backend, Token.answer_open, Settings.opening]
  by_cases disabled : token.settings.disables aesAlgorithm
  · simp only [if_pos disabled]
    rfl
  · simp only [if_neg disabled]
    rfl

namespace Driven

variable {state : Driven Token}

/-- How asking for the provider of a mode ends on a token, and what was offered. -/
inductive Given (mode : ChainingMode) (state : Driven Token) :
    Except CipherError AesAlgorithm × Driven Token → Prop where
  | cached {algorithm : AesAlgorithm}
      (found : state.cache.find? (cacheKey mode) = some algorithm) :
      Given mode state (.ok algorithm, state)
  | refused {error : CipherError} {next : Driven Token}
      (missing : state.cache.find? (cacheKey mode) = none)
      (offers : state.backend.settings.offer = .error error)
      (entries : next.cache.entries = state.cache.entries)
      (settings : next.backend.settings = state.backend.settings) :
      Given mode state (.error error, next)
  | opened {algorithm : AesAlgorithm}
      (missing : state.cache.find? (cacheKey mode) = none)
      (offers : state.backend.settings.offer = .ok (algorithm.allowed, algorithm.blockSize))
      (new : algorithm.provider = newProvider state.backend) :
      Given mode state
        (.ok algorithm,
          { cache := (begun state.cache).insert (cacheKey mode) algorithm
            backend := state.backend.withProvider mode })

theorem given_algorithm (mode : ChainingMode) (state : Driven Token) :
    Given mode state (algorithm Token.backend mode state) := by
  cases missing : state.cache.find? (cacheKey mode) with
  | some cached =>
      rw [algorithm_of_found missing]
      exact .cached missing
  | none =>
      have acquired := Provider.acquire_aes state.backend
      cases opening : state.backend.settings.opening with
      | error error =>
          rw [opening] at acquired
          rw [algorithm_of_acquire_error missing acquired]
          refine .refused missing ?_ rfl rfl
          rw [Settings.offer_eq, opening]
          rfl
      | ok _ =>
          rw [opening] at acquired
          have offered : state.backend.settings.offer = state.backend.settings.limits := by
            rw [Settings.offer_eq, opening]
            rfl
          have present : (state.backend.withProvider .cbc).providers.get?
              (newProvider state.backend).raw = some .cbc := HandleTable.get?_insert_self ..
          have ran := AesAlgorithm.initialise_eq mode present
          rw [newProvider, state.backend.withProvider_replace] at ran
          cases limits : state.backend.settings.limits with
          | error error =>
              rw [show (state.backend.withProvider .cbc).settings.limits = .error error from limits]
                at ran
              rw [algorithm_of_initialise_error missing acquired ran]
              exact .refused missing (offered.trans limits) rfl
                (Token.settings_answer _ (.closeProvider _))
          | ok told =>
              rw [show (state.backend.withProvider .cbc).settings.limits = .ok told from limits]
                at ran
              rw [algorithm_of_ok missing acquired ran]
              exact .opened missing (offered.trans limits) rfl

/-! ## What is kept -/

/-- The token knows of the cached providers what it knew of them. -/
def KeepsCached (state : Driven Token) (token : Token) : Prop :=
  ∀ entry ∈ state.cache.entries, token.providers.get? entry.2.provider.raw =
    state.backend.providers.get? entry.2.provider.raw

/-- What an engine and its token with these settings can come to: the engine starts on a token in
any use and asks for providers that keys can be made in, and meanwhile anyone calls the token, but
leaves the cached providers alone. -/
inductive LeftAlone (settings : Settings) : Driven Token → Prop where
  | fresh (calls : List Call) :
      LeftAlone settings (.fresh ((Token.fresh settings).afterCalls calls))
  | asked {state : Driven Token} (mode : ChainingMode) (keyed : mode ≠ .cbc) :
      LeftAlone settings state → LeftAlone settings (algorithm Token.backend mode state).2
  | called {state : Driven Token} (call : Call) :
      LeftAlone settings state → state.KeepsCached (state.backend.answer call).2 →
        LeftAlone settings { state with backend := (state.backend.answer call).2 }

theorem lasting_leftAlone (settings : Settings) :
    Lasting Token.backend (LeftAlone settings) where
  asked mode keyed alone := alone.asked mode keyed
  called {state} call others alone := by
    refine alone.called call fun entry _ => ?_
    have effect := state.backend.answer_effect call
    generalize (state.backend.answer call).2 = next at effect ⊢
    cases effect with
    | nothing | imported | destroyed => rfl
    | opened | closed | switched => simp [Call.operation] at others

/-- What is cached was offered, and its provider is in a mode that keys can be made in. -/
structure Offering (settings : Settings) (state : Driven Token) : Prop where
  settings_eq : state.backend.settings = settings
  offered : ∀ entry ∈ state.cache.entries,
    settings.offer = .ok (entry.2.allowed, entry.2.blockSize)
  keyed : ∀ entry ∈ state.cache.entries, ∃ mode ≠ .cbc,
    state.backend.providers.get? entry.2.provider.raw = some mode

theorem Offering.asked (offering : state.Offering settings) (keyed : mode ≠ .cbc) :
    (algorithm Token.backend mode state).2.Offering settings := by
  have given := given_algorithm mode state
  generalize algorithm Token.backend mode state = outcome at given ⊢
  cases given with
  | cached => exact offering
  | refused missing offers entries same =>
      -- What was cached was offered, so nothing can be cached.
      have empty : ∀ entry, entry ∉ state.cache.entries := by
        intro entry member
        have offered := offering.offered entry member
        rw [← offering.settings_eq, offers] at offered
        cases offered
      rw [← entries] at empty
      exact ⟨same.trans offering.settings_eq, fun entry member => absurd member (empty entry),
        fun entry member => absurd member (empty entry)⟩
  | @opened algorithm missing offers new =>
      rw [offering.settings_eq] at offers
      constructor
      case settings_eq => exact offering.settings_eq
      case offered =>
        rw [ProviderCache.insert, List.forall_mem_append, List.forall_mem_singleton]
        exact ⟨offering.offered, offers⟩
      case keyed =>
        have put := HandleTable.get?_insert_self state.backend.providers
          (.issuedAfter state.backend.issued) mode
        rw [ProviderCache.insert, List.forall_mem_append, List.forall_mem_singleton, new]
        refine ⟨fun entry member => ?_, mode, keyed, put⟩
        -- If the new provider has the handle of a cached one, that one is in a good mode too.
        by_cases same : entry.2.provider.raw = .issuedAfter state.backend.issued
        · rw [same]
          exact ⟨mode, keyed, put⟩
        · obtain ⟨other, good, present⟩ := offering.keyed entry member
          exact ⟨other, good, (HandleTable.get?_insert_ne same ..).trans present⟩

theorem LeftAlone.offering (alone : LeftAlone settings state) : state.Offering settings := by
  induction alone with
  | fresh calls =>
      exact ⟨Token.Follows.settings_eq ⟨calls, rfl⟩, (fun _ member => nomatch member),
        (fun _ member => nomatch member)⟩
  | asked mode keyed _ ih => exact ih.asked keyed
  | @called state call _ kept ih =>
      refine ⟨(state.backend.settings_answer call).trans ih.settings_eq, ih.offered, ?_⟩
      intro entry member
      obtain ⟨mode, good, present⟩ := ih.keyed entry member
      exact ⟨mode, good, (kept entry member).trans present⟩

/-- While there are handles left, the cached providers are in the modes that they are cached for. -/
theorem LeftAlone.coherent (alone : LeftAlone settings state)
    (remain : state.backend.handlesIssued < Handle.limit) : state.Coherent := by
  induction alone with
  | fresh calls =>
      exact ⟨(Token.accounted_fresh settings).afterCalls calls remain,
        fun _ member => nomatch member⟩
  | @asked state mode _ _ ih =>
      exact (ih (Nat.lt_of_le_of_lt (handlesIssued_le_asked state mode) remain)).asked mode remain
  | @called state call _ kept ih =>
      have effect := state.backend.answer_effect call
      have coherent := ih (Nat.lt_of_le_of_lt effect.handlesIssued_le remain)
      refine ⟨coherent.accounted.step effect remain, fun entry member => ?_⟩
      obtain ⟨mode, key, present⟩ := coherent.modes entry member
      exact ⟨mode, key, (kept entry member).trans present⟩

/-- While there are handles left, others may make any call that does not close or set a cached
provider. -/
theorem LeftAlone.elsewhere (alone : LeftAlone settings state) {call : Call}
    (spares : ∀ entry ∈ state.cache.entries, call.LeavesAlone entry.2.provider.raw)
    (remain : (state.backend.answer call).2.handlesIssued < Handle.limit) :
    LeftAlone settings { state with backend := (state.backend.answer call).2 } := by
  have effect := state.backend.answer_effect call
  have coherent := alone.coherent (Nat.lt_of_le_of_lt effect.handlesIssued_le remain)
  refine alone.called call fun entry member => ?_
  obtain ⟨mode, -, present⟩ := coherent.modes entry member
  rw [present]
  exact effect.provider_kept coherent.accounted remain (spares entry member) present

/-! ## What comes of asking -/

theorem Offering.algorithm_of_error (offering : state.Offering settings) (mode : ChainingMode)
    {error : CipherError} (offers : settings.offer = .error error) :
    ∃ next, algorithm Token.backend mode state = (.error error, next) := by
  have given := given_algorithm mode state
  generalize algorithm Token.backend mode state = outcome at given ⊢
  cases given with
  | cached found =>
      rw [offering.offered _ (ProviderCache.mem_of_find? found)] at offers
      cases offers
  | @refused _ next missing refused =>
      rw [offering.settings_eq, offers] at refused
      cases refused
      exact ⟨next, rfl⟩
  | opened missing offered =>
      rw [offering.settings_eq, offers] at offered
      cases offered

/-- Whether it was cached or is opened, the provider is what was offered, and keys can be made in
its mode. -/
theorem Offering.algorithm_of_ok (offering : state.Offering settings) (keyed : mode ≠ .cbc)
    {told : AllowedKeyLengths × Nat} (offers : settings.offer = .ok told) :
    ∃ provider actual next,
      algorithm Token.backend mode state = (.ok ⟨provider, told.1, told.2⟩, next) ∧
        actual ≠ .cbc ∧ next.backend.providers.get? provider.raw = some actual := by
  have given := given_algorithm mode state
  generalize algorithm Token.backend mode state = outcome at given ⊢
  cases given with
  | @cached algorithm found =>
      have member := ProviderCache.mem_of_find? found
      obtain ⟨actual, good, present⟩ := offering.keyed _ member
      rw [offering.offered _ member] at offers
      cases offers
      exact ⟨algorithm.provider, actual, state, rfl, good, present⟩
  | refused missing refused =>
      rw [offering.settings_eq, offers] at refused
      cases refused
  | @opened algorithm missing offered new =>
      rw [offering.settings_eq, offers] at offered
      cases offered
      refine ⟨algorithm.provider, mode, _, rfl, keyed, ?_⟩
      rw [new]
      exact HandleTable.get?_insert_self ..

end Driven

/-! ## What comes of a key -/

theorem AesAlgorithm.importKey_eq (algorithm : AesAlgorithm)
    (present : token.providers.get? algorithm.provider.raw = some mode) (secret : Bytes) :
    algorithm.importKey Token.backend secret token =
      match algorithm.allowed.keyFor mode secret with
      | .error error => (.error error, token)
      | .ok material =>
          (.ok ⟨algorithm.provider, .issuedAfter token.issued, keyBits secret.length⟩,
            token.withKey algorithm.provider.raw secret material) := by
  rw [importKey, AllowedKeyLengths.keyFor]
  by_cases allowed : algorithm.allowed.allows (keyBits secret.length)
  · simp only [if_pos allowed, ImportedKey.acquire, Token.backend, Token.answer_import present]
    by_cases fits : Token.lengthFits secret
    · simp only [if_pos fits]
      cases KeyMaterial.ofSecret mode secret <;> rfl
    · simp only [if_neg fits]
      rfl
  · simp only [if_neg allowed]
    rfl

/-- Whether a key can be made does not depend on the mode, of those that keys can be made in. -/
theorem AllowedKeyLengths.keyFor_agrees (allowed : AllowedKeyLengths) {other : ChainingMode}
    (keyed : mode ≠ .cbc) (otherKeyed : other ≠ .cbc) (secret : Bytes) {α : Type} (made : α) :
    ((allowed.keyFor mode secret).map fun _ => made) =
      (allowed.keyFor other secret).map fun _ => made := by
  have kind : ∀ {chosen : ChainingMode}, chosen ≠ .cbc →
      ((KeyMaterial.ofSecret chosen secret).map fun _ => ()) =
        (Aes.Schedule.ofSecret? secret).elim (.error .invalidParameter) fun _ => .ok () := by
    intro chosen good
    cases chosen with
    | cbc => exact absurd rfl good
    | ecb | gcm =>
        simp only [KeyMaterial.ofSecret]
        cases Aes.Schedule.ofSecret? secret <;> rfl
  have same := (kind keyed).trans (kind otherKeyed).symm
  simp only [keyFor]
  split
  · split
    · generalize KeyMaterial.ofSecret mode secret = left at same ⊢
      generalize KeyMaterial.ofSecret other secret = right at same ⊢
      cases left <;> cases right <;> cases same <;> rfl
    · rfl
  · rfl

namespace Driven

theorem importKey_of_given {σ : Type} {backend : Backend σ} {state next : Driven σ}
    {algorithm : AesAlgorithm}
    (given : Driven.algorithm backend mode state = (.ok algorithm, next)) (secret : Bytes) :
    importKey backend mode secret state =
      ((algorithm.importKey backend secret next.backend).1.map
          fun key => (key, algorithm.blockSize),
        { next with backend := (algorithm.importKey backend secret next.backend).2 }) := by
  rw [importKey, Action.bind_of_ok given, Action.bind_apply, Caching.tryBackend]
  cases algorithm.importKey backend secret next.backend with
  | mk result last => cases result <;> rfl

/-- The settings say what an engine makes of a secret: how long the key is and how long a block. -/
theorem Offering.importKey_answer {state : Driven Token}
    (offering : state.Offering settings) (keyed : mode ≠ .cbc) (secret : Bytes) :
    ((importKey Token.backend mode secret state).1.map fun made => (made.1.bits, made.2)) =
      settings.offer >>= fun told =>
        (told.1.keyFor mode secret).map fun _ => (keyBits secret.length, told.2) := by
  cases offers : settings.offer with
  | error error =>
      obtain ⟨next, refused⟩ := offering.algorithm_of_error mode offers
      rw [importKey, Action.bind_of_error refused]
      rfl
  | ok told =>
      obtain ⟨provider, actual, next, given, good, present⟩ :=
        offering.algorithm_of_ok keyed offers
      have imported := AesAlgorithm.importKey_eq ⟨provider, told.1, told.2⟩ present secret
      refine Eq.trans ?_ (told.1.keyFor_agrees good keyed secret _)
      rw [importKey_of_given given, Except.map_map, imported]
      cases told.1.keyFor actual secret <;> rfl

/-- Engines with the same settings make the same of a secret, in whichever mode. -/
theorem Offering.importKey_again {state earlier : Driven Token}
    (offering : state.Offering settings) (first : earlier.Offering settings)
    (keyed : mode ≠ .cbc) (otherKeyed : old ≠ .cbc) (secret : Bytes) :
    ((importKey Token.backend mode secret state).1.map fun made => (made.1.bits, made.2)) =
      (importKey Token.backend old secret earlier).1.map fun made => (made.1.bits, made.2) := by
  rw [offering.importKey_answer keyed, first.importKey_answer otherKeyed]
  cases settings.offer with
  | error error => rfl
  | ok told => exact told.1.keyFor_agrees keyed otherKeyed secret _

end Driven

end CipherModes
