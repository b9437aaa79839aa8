import CipherModes.Proofs.Engine.LeftAlone
import CipherModes.Proofs.Gcm.RoundTrip

/-!
# Which GCM is made

The sizes asked for decide whether a GCM works message by message or block by block, or why there
is none. They are looked at before the backend is asked for anything, so sizes of which neither is
standard cost no call. For a cipher of a token, nothing else can keep its GCM from being made: the
engine has made a key of the same secret before.
-/

set_option autoImplicit false

namespace CipherModes

/-- A cipher that was made with these settings, through an engine that was left alone. -/
def AesCipher.MadeUnder (settings : Settings) (cipher : AesCipher) : Prop :=
  ∃ earlier : Driven Token, earlier.LeftAlone settings ∧
    (create Token.backend cipher.engine cipher.secret earlier).1 = .ok cipher

namespace Gcm

variable {nonceSize tagSize : Nat}

/-- Which GCM there is in these sizes over blocks of that length, told by whether it is native, or
the first reason for which there is none. -/
def choice (cipherBlockSize nonceSize tagSize : Nat) : Except CipherError Bool :=
  if nonceSize = standardNonceSize ∧ tagSize = standardTagSize then .ok true
  else if nonceSize ≠ standardNonceSize ∧ tagSize ≠ standardTagSize then
    .error .unsupportedGcmParameters
  else if cipherBlockSize ≠ blockSize then .error (.invalidBlockSize cipherBlockSize)
  else if ¬ (minTagSize ≤ tagSize ∧ tagSize ≤ standardTagSize) then .error (.invalidTagSize tagSize)
  else if nonceSize = 0 then .error (.invalidNonceSize 0)
  else .ok false

theorem choice_eq_native_iff (cipherBlockSize : Nat) :
    choice cipherBlockSize nonceSize tagSize = .ok true ↔
      nonceSize = standardNonceSize ∧ tagSize = standardTagSize := by
  unfold choice
  grind

theorem choice_eq_unsupported_iff (cipherBlockSize : Nat) :
    choice cipherBlockSize nonceSize tagSize = .error .unsupportedGcmParameters ↔
      nonceSize ≠ standardNonceSize ∧ tagSize ≠ standardTagSize := by
  unfold choice
  grind

/-- If one size is standard, the choice is up to the sizes that a block cipher can have. -/
theorem choice_of_mixed (cipherBlockSize : Nat)
    (other : ¬ (nonceSize = standardNonceSize ∧ tagSize = standardTagSize))
    (mixed : ¬ (nonceSize ≠ standardNonceSize ∧ tagSize ≠ standardTagSize)) :
    choice cipherBlockSize nonceSize tagSize =
      (Blockwise.checkSizes cipherBlockSize nonceSize tagSize).map fun _ => false := by
  have tags : ¬ (minTagSize ≤ tagSize ∧ tagSize ≤ standardTagSize) ↔
      tagSize < minTagSize ∨ standardTagSize < tagSize := by omega
  rw [choice, if_neg other, if_neg mixed, Blockwise.checkSizes]
  simp only [tags]
  split
  · rfl
  · split
    · rfl
    · split
      · rename_i zero
        rw [zero]
        rfl
      · rfl

/-! ## What a GCM keeps to -/

/-- Nonces of one length are taken, and no others. -/
def TakesNonces (operation : TextOperation) (nonceSize : Nat) : Prop :=
  ∀ destination nonce text aad,
    (operation destination nonce text aad).1 = .error (.broken .nonceLength) ↔
      nonce.length ≠ nonceSize

/-- A GCM in these sizes: over any backend and in any state, it takes the nonces of its length and
adds a tag of its length. Nonces can be kept in order with it if it is native. -/
structure InSizes (gcm : Gcm) (nonceSize tagSize : Nat) : Prop where
  nonceSize_eq : gcm.nonceSize = nonceSize
  tagSize_eq : gcm.tagSize = tagSize
  seals : ∀ {σ : Type} (backend : Backend σ) (state : σ),
    TakesNonces (gcm.sealing backend state) nonceSize
  opens : ∀ {σ : Type} (backend : Backend σ) (state : σ),
    TakesNonces (gcm.opening backend state) nonceSize
  appends : ∀ {σ : Type} (backend : Backend σ) (state : σ),
    KeepsDestination (gcm.sealing backend state) (gcm.opening backend state) nonceSize tagSize
  ordered_iff : (∃ ordered, Ordered.ofGcm gcm = .ok ordered) ↔ gcm.isNative = true

section

variable {σ : Type} {backend : Backend σ} {start next : Driven σ} {cipher : AesCipher} {gcm : Gcm}

theorem takesNonces_sealing (backend : Backend σ) (state : σ)
    (sized : gcm.tagSize ≤ standardTagSize) :
    TakesNonces (gcm.sealing backend state) gcm.nonceSize := by
  intro destination nonce plaintext aad
  constructor
  · intro refused agreed
    rcases (sealInto_appends sized agreed plaintext).expected_of_error refused with
      long | ⟨error, failed⟩
    · cases long
    · cases failed
  · intro wrong
    rw [(refusesNonces backend gcm state state destination nonce plaintext aad wrong).1]

theorem takesNonces_opening (backend : Backend σ) (gcm : Gcm) (state : σ) :
    TakesNonces (gcm.opening backend state) gcm.nonceSize := by
  intro destination nonce sealedText aad
  constructor
  · intro refused agreed
    cases (openInto_appends agreed sealedText).expected_of_error refused
  · intro wrong
    rw [(refusesNonces backend gcm state state destination nonce sealedText aad wrong).2]

/-- Standard sizes are never given to a GCM that works block by block. -/
theorem isNative_of_create
    (made : create backend cipher nonceSize tagSize start = (.ok gcm, next)) :
    gcm.isNative = true ↔ nonceSize = standardNonceSize ∧ tagSize = standardTagSize := by
  rcases create_eq_ok made with ⟨standard, key, length, rfl, -⟩ | ⟨other, own, mode, rfl, -⟩
  · exact ⟨fun _ => standard, fun _ => rfl⟩
  · exact ⟨(fun native => nomatch native), fun standard => absurd standard other⟩

theorem inSizes_of_create
    (made : create backend cipher nonceSize tagSize start = (.ok gcm, next)) :
    gcm.InSizes nonceSize tagSize := by
  have native := isNative_of_create made
  obtain ⟨nonces, tags, sized⟩ := sizes_of_create made
  subst nonces tags
  refine ⟨rfl, rfl, fun backend state => takesNonces_sealing backend state sized,
    fun backend state => takesNonces_opening backend gcm state,
    fun backend state => keepsDestination backend sized state, ?_⟩
  rw [native]
  constructor
  · rintro ⟨ordered, accepted⟩
    obtain ⟨nonces, tags, -⟩ := Ordered.ofGcm_eq_ok_iff.mp accepted
    exact ⟨nonces, tags⟩
  · rintro ⟨nonces, tags⟩
    exact ⟨_, Ordered.ofGcm_eq_ok_iff.mpr ⟨nonces, tags, rfl⟩⟩

/-- Sizes of which neither is standard are refused without a call, whatever they are. -/
theorem create_of_unsupported (backend : Backend σ) (cipher : AesCipher) (start : Driven σ)
    (nonces : nonceSize ≠ standardNonceSize) (tags : tagSize ≠ standardTagSize) :
    create backend cipher nonceSize tagSize start = (.error .unsupportedGcmParameters, start) := by
  rw [create, if_neg fun standard => nonces standard.1, if_pos ⟨nonces, tags⟩]
  rfl

end

end Gcm

/-! ## Making it on a token -/

section

variable {settings : Settings} {state : Driven Token} {cipher : AesCipher} {mode : ChainingMode}

theorem AesCipher.MadeUnder.imported (made : cipher.MadeUnder settings) :
    ∃ (earlier next : Driven Token) (key : ImportedKey), earlier.Offering settings ∧
      Driven.importKey Token.backend .ecb cipher.secret earlier =
        (.ok (key, cipher.blockSize), next) := by
  obtain ⟨earlier, alone, created⟩ := made
  obtain ⟨⟨key, size⟩, next, imported, finished⟩ := Action.bind_eq_ok (Prod.ext created rfl)
  have blocks : size = cipher.blockSize :=
    congrArg AesCipher.blockSize (Except.ok.inj (congrArg Prod.fst finished))
  exact ⟨earlier, next, key, alone.offering, blocks ▸ imported⟩

/-- The blocks of a cipher have the length that the settings give. -/
theorem AesCipher.MadeUnder.blockSize_eq (made : cipher.MadeUnder settings) :
    cipher.blockSize = settings.blockLength.toNat := by
  obtain ⟨earlier, next, key, offering, imported⟩ := made.imported
  have answer := offering.importKey_answer (show ChainingMode.ecb ≠ .cbc from nofun) cipher.secret
  rw [imported] at answer
  cases offers : settings.offer with
  | error error =>
      rw [offers] at answer
      cases answer
  | ok told =>
      rw [offers] at answer
      change _ = (told.1.keyFor .ecb cipher.secret).map _ at answer
      cases kept : told.1.keyFor .ecb cipher.secret with
      | error error =>
          rw [kept] at answer
          cases answer
      | ok material =>
          rw [kept] at answer
          have same : cipher.blockSize = told.2 := congrArg Prod.snd (Except.ok.inj answer)
          exact same.trans (Settings.blockSize_of_offer offers)

/-- What was made a cipher of can be imported again, in whichever mode. -/
theorem AesCipher.MadeUnder.imports (made : cipher.MadeUnder settings)
    (offering : state.Offering settings) (keyed : mode ≠ .cbc) :
    ∃ key next, Driven.importKey Token.backend mode cipher.secret state =
      (.ok (key, cipher.blockSize), next) := by
  obtain ⟨earlier, middle, first, earlierOffering, imported⟩ := made.imported
  have again := offering.importKey_again earlierOffering keyed
    (show ChainingMode.ecb ≠ .cbc from nofun) cipher.secret
  rw [imported] at again
  cases outcome : Driven.importKey Token.backend mode cipher.secret state with
  | mk result next =>
      rw [outcome] at again
      cases result with
      | error error => cases again
      | ok given =>
          have same : given.2 = cipher.blockSize := congrArg Prod.snd (Except.ok.inj again)
          exact ⟨given.1, next, by rw [← same]⟩

theorem AesCipher.MadeUnder.creates (made : cipher.MadeUnder settings)
    (offering : state.Offering settings) :
    ∃ own next, AesCipher.create Token.backend cipher.engine cipher.secret state = (.ok own, next) ∧
      own.blockSize = cipher.blockSize := by
  obtain ⟨key, next, imported⟩ := made.imports offering (show ChainingMode.ecb ≠ .cbc from nofun)
  refine ⟨⟨cipher.engine, key, cipher.secret, cipher.blockSize⟩, next, ?_, rfl⟩
  rw [AesCipher.create, Action.bind_of_ok imported]
  rfl

namespace Gcm

variable {nonceSize tagSize : Nat}

/-- Over a key that lives, deriving fails for the sizes only. -/
theorem Blockwise.result_of_derive {token : Token} {schedule : Aes.Schedule}
    (made : token.material? cipher.key.raw = some (.blocks schedule)) :
    ((derive (cipher.blockCipher Token.backend) nonceSize tagSize token).1.map fun _ => ()) =
      checkSizes cipher.blockSize nonceSize tagSize := by
  cases checked : checkSizes cipher.blockSize nonceSize tagSize with
  | error error =>
      have refused : checkSizes (cipher.blockCipher Token.backend).blockSize nonceSize tagSize =
        .error error := checked
      simp only [derive, refused]
      rfl
  | ok _ =>
      obtain ⟨whole, -⟩ := checkSizes_eq_ok_iff.mp checked
      obtain ⟨next, derived, -⟩ :=
        derive_of_reliable (cipher.reliable_on_token whole schedule) checked made
      rw [derived]
      rfl

theorem createBlockwise_outcome (alone : state.LeftAlone settings)
    (remain : state.backend.handlesIssued < Handle.limit) (made : cipher.MadeUnder settings)
    (nonceSize tagSize : Nat) :
    ((createBlockwise Token.backend cipher.engine cipher.secret nonceSize tagSize state).1.map
      fun _ => ()) = Blockwise.checkSizes cipher.blockSize nonceSize tagSize := by
  obtain ⟨own, next, created, blocks⟩ := made.creates alone.offering
  obtain ⟨schedule, -, present⟩ := material?_of_cipher (alone.coherent remain) created
  rw [result_of_createBlockwise created, Except.map_map, ← blocks,
    ← Blockwise.result_of_derive present]

theorem create_outcome (alone : state.LeftAlone settings)
    (remain : state.backend.handlesIssued < Handle.limit) (made : cipher.MadeUnder settings)
    (nonceSize tagSize : Nat) :
    ((create Token.backend cipher nonceSize tagSize state).1.map isNative) =
      choice settings.blockLength.toNat nonceSize tagSize := by
  rw [← made.blockSize_eq]
  by_cases standard : nonceSize = standardNonceSize ∧ tagSize = standardTagSize
  · obtain ⟨key, next, imported⟩ := made.imports alone.offering
      (show ChainingMode.gcm ≠ .cbc from nofun)
    rw [create, if_pos standard, Action.bind_of_ok imported, choice, if_pos standard]
    rfl
  · by_cases unsupported : nonceSize ≠ standardNonceSize ∧ tagSize ≠ standardTagSize
    · rw [create_of_unsupported _ _ _ unsupported.1 unsupported.2, choice, if_neg standard,
        if_pos unsupported]
      rfl
    · have outcome := createBlockwise_outcome alone remain made nonceSize tagSize
      rw [create, if_neg standard, if_neg unsupported, Action.result_of_map, Except.map_map,
        choice_of_mixed _ standard unsupported, ← outcome, Except.map_map]
      rfl

/-- What comes of asking for a GCM in these sizes. -/
structure ChosenBySizes (settings : Settings) (cipher : AesCipher) (nonceSize tagSize : Nat)
    (state : Driven Token) : Prop where
  outcome : ((create Token.backend cipher nonceSize tagSize state).1.map isNative) =
    choice settings.blockLength.toNat nonceSize tagSize
  native_iff : (∃ gcm, (create Token.backend cipher nonceSize tagSize state).1 = .ok gcm ∧
    gcm.isNative = true) ↔ nonceSize = standardNonceSize ∧ tagSize = standardTagSize
  unsupported_iff : (create Token.backend cipher nonceSize tagSize state).1 =
    .error .unsupportedGcmParameters ↔
      nonceSize ≠ standardNonceSize ∧ tagSize ≠ standardTagSize
  /-- No backend sees a call, and nothing is cached. -/
  unsupported_silently : nonceSize ≠ standardNonceSize → tagSize ≠ standardTagSize →
    ∀ {σ : Type} (backend : Backend σ) (start : Driven σ),
      create backend cipher nonceSize tagSize start = (.error .unsupportedGcmParameters, start)
  inSizes : ∀ gcm, (create Token.backend cipher nonceSize tagSize state).1 = .ok gcm →
    gcm.InSizes nonceSize tagSize
  /-- As long as its key lives, the GCM seals what it is given, and opens what it has sealed. -/
  works : ∀ gcm next, create Token.backend cipher nonceSize tagSize state = (.ok gcm, next) →
    ∀ token : Token,
      token.material? gcm.ownedKey.raw = next.backend.material? gcm.ownedKey.raw →
        SealsAll (gcm.sealing Token.backend token) nonceSize ∧
          Matching (gcm.sealing Token.backend token) (gcm.opening Token.backend token) nonceSize
            tagSize
  stays : (create Token.backend cipher nonceSize tagSize state).2.LeftAlone settings

/-- In every state of an engine that is left alone, the sizes decide which GCM is made of a
cipher. -/
theorem sizes_choose_implementation (alone : state.LeftAlone settings)
    (remain : state.backend.handlesIssued < Handle.limit) (made : cipher.MadeUnder settings)
    (nonceSize tagSize : Nat) : ChosenBySizes settings cipher nonceSize tagSize state := by
  have outcome := create_outcome alone remain made nonceSize tagSize
  constructor
  case outcome => exact outcome
  case native_iff =>
    rw [← choice_eq_native_iff settings.blockLength.toNat, ← outcome]
    cases (create Token.backend cipher nonceSize tagSize state).1 <;> simp [Except.map]
  case unsupported_iff =>
    rw [← choice_eq_unsupported_iff settings.blockLength.toNat, ← outcome]
    cases (create Token.backend cipher nonceSize tagSize state).1 <;> simp [Except.map]
  case unsupported_silently =>
    intro nonces tags σ backend start
    exact create_of_unsupported backend cipher start nonces tags
  case inSizes =>
    intro gcm obtained
    exact inSizes_of_create (Prod.ext obtained rfl)
  case works =>
    intro gcm next obtained token same
    obtain ⟨schedule, -, keyed⟩ := keyedBy_of_create (alone.coherent remain) obtained
    obtain ⟨nonces, tags, -⟩ := sizes_of_create obtained
    rw [← nonces, ← tags]
    exact ⟨sealsAll_of_keyed (keyed.of_same same), (fitsBlocks_of_create obtained).matching rfl⟩
  case stays =>
    exact (Driven.lasting_leftAlone settings).createGcm cipher nonceSize tagSize alone

/-- A native GCM is made of a cipher, then one with a shorter tag. -/
theorem sizes_choose_implementation_after_native :
    let start := Driven.fresh (Token.fresh .default)
    let cipher : AesCipher :=
      ⟨0, ⟨⟨.issuedAfter 0, aesAlgorithm⟩, .issuedAfter 1, 128⟩, Bytes.zeros 16, 16⟩
    let made := AesCipher.create Token.backend 0 (Bytes.zeros 16) start
    let next := (create Token.backend cipher 12 16 made.2).2
    made.1 = .ok cipher ∧ choice Settings.default.blockLength.toNat 12 13 = .ok false ∧
      next.cache.size = 2 ∧ ChosenBySizes .default cipher 12 13 next := by
  have start : Driven.LeftAlone .default (.fresh (.fresh .default)) := .fresh []
  have lasting := Driven.lasting_leftAlone .default
  have next := lasting.createGcm
    ⟨0, ⟨⟨.issuedAfter 0, aesAlgorithm⟩, .issuedAfter 1, 128⟩, Bytes.zeros 16, 16⟩ 12 16
    (lasting.createCipher 0 (Bytes.zeros 16) start)
  exact ⟨by rfl, by decide, by decide +kernel,
    sizes_choose_implementation next (by decide +kernel) ⟨_, start, by rfl⟩ 12 13⟩

end Gcm

end

end CipherModes
