import CipherModes.Proofs.Failures.Engine

/-!
# Releases that fail

A handle is given back when an object is dropped or could not be made. Whether
the backend takes it back decides nothing: over backends that differ in nothing
else, every operation comes to the same result.
-/

set_option autoImplicit false

namespace CipherModes

variable {σ τ α β : Type} {backend other : Backend σ}

/-- The backends may answer in different ways only when something is given back, and may come to
different states only then. -/
def Backend.AlikeButReleases (backend other : Backend σ) : Prop :=
  ∀ call state, call.operation.isRelease = false →
    backend.answer call state = other.answer call state

/-- Two actions have the same result, and leave the same state if they succeed. -/
def Action.Agree (action other : Action τ α) : Prop :=
  ∀ state, (action state).1 = (other state).1 ∧
    ∀ value, (action state).1 = .ok value → action state = other state

namespace Action.Agree

theorem of_eq {action other : Action τ α} (same : action = other) : action.Agree other :=
  fun _ => same ▸ ⟨rfl, fun _ _ => rfl⟩

theorem bind {action another : Action τ α} {rest others : α → Action τ β}
    (first : action.Agree another) (second : ∀ value, (rest value).Agree (others value)) :
    (action >>= rest).Agree (another >>= others) := by
  intro state
  obtain ⟨result, whole⟩ := first state
  rw [bind_apply, bind_apply]
  cases ran : action state with
  | mk outcome middle =>
      rw [ran] at result whole
      cases outcome with
      | ok value =>
          rw [← whole value rfl]
          exact second value middle
      | error error =>
          cases ended : another state with
          | mk other last =>
              rw [ended] at result
              cases result
              exact ⟨rfl, nofun⟩

theorem tryBackend {action another : Action σ β} (agree : action.Agree another) :
    (Caching.tryBackend action : Action (Caching α σ) β).Agree (Caching.tryBackend another) := by
  intro state
  obtain ⟨result, whole⟩ := agree state.backend
  refine ⟨result, fun value success => ?_⟩
  simp only [Caching.tryBackend, whole value success]

end Action.Agree

namespace Backend.AlikeButReleases

variable (alike : backend.AlikeButReleases other)
include alike

/-! ## Operations that give nothing back -/

theorem acquire (algorithm : String) (flags : ProviderFlags) :
    Provider.acquire backend algorithm flags = Provider.acquire other algorithm flags := by
  funext state
  simp only [Provider.acquire, alike (.openProvider algorithm flags) state rfl]

theorem acquireKey (provider : Provider) (secret : Bytes) :
    ImportedKey.acquire backend provider secret = ImportedKey.acquire other provider secret := by
  funext state
  simp only [ImportedKey.acquire, alike (.importKey provider.raw secret) state rfl]

theorem setText (provider : Provider) (name text : String) :
    provider.setText backend name text = provider.setText other name text := by
  funext state
  simp only [Provider.setText, Action.ofCall, Backend.setText,
    alike (.setProperty provider.raw name (encodeWide text)) state rfl]

theorem getExact (handle : Handle) (name : String) (size : Nat) :
    backend.getExact handle name size = other.getExact handle name size := by
  funext state
  simp only [Backend.getExact, alike (.getProperty handle name (Bytes.zeros size)) state rfl]

theorem fips : Driven.fips backend = Driven.fips other := by
  funext state
  simp only [Driven.fips, alike .fipsEnabled state rfl]

theorem blockCipher (cipher : AesCipher) :
    cipher.blockCipher backend = cipher.blockCipher other := by
  have transforms : (cipher.blockCipher backend).transform =
      (cipher.blockCipher other).transform := by
    funext direction source destination state
    simp only [AesCipher.blockCipher, alike (.crypt direction cipher.key.raw
      (source.take cipher.blockSize) (destination.take cipher.blockSize)) state
      (by cases direction <;> rfl)]
  exact BlockCipher.mk.injEq .. ▸ ⟨rfl, transforms⟩

theorem cryptBlock (cipher : AesCipher) (direction : Direction) (source destination : Bytes) :
    cipher.cryptBlock backend direction source destination =
      cipher.cryptBlock other direction source destination := by
  simp only [AesCipher.cryptBlock, alike.blockCipher]

theorem sealInto (gcm : Gcm) (destination nonce plaintext aad : Bytes) :
    gcm.sealInto backend destination nonce plaintext aad =
      gcm.sealInto other destination nonce plaintext aad := by
  cases gcm with
  | native key =>
      have same : ∀ buffer tag, backend.call (.aeadEncrypt key.raw nonce aad buffer tag) =
          other.call (.aeadEncrypt key.raw nonce aad buffer tag) :=
        fun buffer tag => funext fun state => alike _ state rfl
      simp only [Gcm.sealInto, same]
  | blockwise cipher mode => simp only [Gcm.sealInto, alike.blockCipher]

theorem openInto (gcm : Gcm) (destination nonce sealedText aad : Bytes) :
    gcm.openInto backend destination nonce sealedText aad =
      gcm.openInto other destination nonce sealedText aad := by
  cases gcm with
  | native key =>
      have same : ∀ buffer tag, backend.call (.aeadDecrypt key.raw nonce aad buffer tag) =
          other.call (.aeadDecrypt key.raw nonce aad buffer tag) :=
        fun buffer tag => funext fun state => alike _ state rfl
      simp only [Gcm.openInto, same]
  | blockwise cipher mode => simp only [Gcm.openInto, alike.blockCipher]

theorem sealOrdered (ordered : Gcm.Ordered) (destination nonce plaintext aad : Bytes) :
    ordered.sealInto backend destination nonce plaintext aad =
      ordered.sealInto other destination nonce plaintext aad := by
  simp only [Gcm.Ordered.sealInto, alike.sealInto]

/-! ## Making ciphers -/

theorem initialise (mode : ChainingMode) (provider : Provider) :
    AesAlgorithm.initialise backend mode provider = AesAlgorithm.initialise other mode provider := by
  simp only [AesAlgorithm.initialise, Provider.getKeyLengths, Provider.getWord,
    Backend.getKeyLengths, Backend.getWord, alike.setText, alike.getExact]

theorem algorithm (mode : ChainingMode) :
    (Driven.algorithm backend mode).Agree (Driven.algorithm other mode) := by
  intro state
  cases found : state.cache.find? (Driven.cacheKey mode) with
  | some cached =>
      rw [Driven.algorithm_of_found found, Driven.algorithm_of_found found]
      exact ⟨rfl, fun _ _ => rfl⟩
  | none =>
      have opens := alike.acquire aesAlgorithm .none
      cases acquired : Provider.acquire backend aesAlgorithm .none state.backend with
      | mk result opened =>
          have acquiredAlike := acquired
          rw [opens] at acquiredAlike
          cases result with
          | error error =>
              rw [Driven.algorithm_of_acquire_error found acquired,
                Driven.algorithm_of_acquire_error found acquiredAlike]
              exact ⟨rfl, nofun⟩
          | ok provider =>
              cases ran : AesAlgorithm.initialise backend mode provider opened with
              | mk outcome initialised =>
                  have ranAlike := ran
                  rw [alike.initialise] at ranAlike
                  cases outcome with
                  | error error =>
                      rw [Driven.algorithm_of_initialise_error found acquired ran,
                        Driven.algorithm_of_initialise_error found acquiredAlike ranAlike]
                      exact ⟨rfl, nofun⟩
                  | ok algorithm =>
                      rw [Driven.algorithm_of_ok found acquired ran,
                        Driven.algorithm_of_ok found acquiredAlike ranAlike]
                      exact ⟨rfl, fun _ _ => rfl⟩

theorem importKey (mode : ChainingMode) (secret : Bytes) :
    (Driven.importKey backend mode secret).Agree (Driven.importKey other mode secret) := by
  apply Action.Agree.bind (alike.algorithm mode)
  intro algorithm
  apply Action.Agree.bind (.tryBackend (.of_eq _))
  · exact fun _ => .of_eq rfl
  · simp only [AesAlgorithm.importKey, alike.acquireKey]

theorem create (engine : EngineId) (secret : Bytes) :
    (AesCipher.create backend engine secret).Agree (AesCipher.create other engine secret) :=
  .bind (alike.importKey .ecb secret) fun _ => .of_eq rfl

theorem createBlockwise (engine : EngineId) (secret : Bytes) (nonceSize tagSize : Nat) :
    (Gcm.createBlockwise backend engine secret nonceSize tagSize).Agree
      (Gcm.createBlockwise other engine secret nonceSize tagSize) := by
  intro state
  obtain ⟨result, whole⟩ := alike.create engine secret state
  unfold Gcm.createBlockwise
  cases ran : AesCipher.create backend engine secret state with
  | mk outcome middle =>
      rw [ran] at result whole
      cases outcome with
      | error error =>
          cases ended : AesCipher.create other engine secret state with
          | mk other last =>
              rw [ended] at result
              cases result
              refine ⟨rfl, ?_⟩
              intro value made
              cases made
      | ok cipher =>
          rw [← whole cipher rfl]
          simp only [Caching.onBackend, alike.blockCipher]
          cases Gcm.Blockwise.derive (cipher.blockCipher other) nonceSize tagSize
              middle.backend with
          | mk outcome last =>
              cases outcome with
              | error error =>
                  refine ⟨rfl, ?_⟩
                  intro value made
                  cases made
              | ok mode => exact ⟨rfl, fun _ _ => rfl⟩

theorem createGcm (cipher : AesCipher) (nonceSize tagSize : Nat) :
    (Gcm.create backend cipher nonceSize tagSize).Agree
      (Gcm.create other cipher nonceSize tagSize) := by
  unfold Gcm.create
  split
  · exact .bind (alike.importKey .gcm cipher.secret) fun _ => .of_eq rfl
  · split
    · exact .of_eq rfl
    · exact .bind (alike.createBlockwise _ _ _ _) fun _ => .of_eq rfl

theorem createOrdered (cipher : AesCipher) :
    (Gcm.Ordered.create backend cipher).Agree (Gcm.Ordered.create other cipher) :=
  .bind (alike.createGcm cipher _ _) fun _ => .of_eq rfl

end Backend.AlikeButReleases

/-! ## All operations -/

/-- How the operations over a backend meet calls that fail: each stops at the first one, and tells
its error or, when it opens a message, that the message is not authentic. -/
structure Backend.StopsAtFailure (backend : Backend σ) : Prop where
  fips : Candid Recorded.events TellsError (Driven.fips backend.recorded)
  newCipher : ∀ engine secret,
    Candid Driven.events TellsError (AesCipher.create backend.recorded engine secret)
  cryptBlock : ∀ (cipher : AesCipher) direction source destination,
    Candid Recorded.events TellsFault
      (cipher.cryptBlock backend.recorded direction source destination)
  crypt : ∀ (cipher : AesCipher) (stream : Cbc) source destination,
    Candid Recorded.events TellsFault
      (stream.crypt (cipher.blockCipher backend.recorded) source destination)
  cryptInPlace : ∀ (cipher : AesCipher) (stream : Cbc) buffer,
    Candid Recorded.events TellsFault
      (stream.cryptInPlace (cipher.blockCipher backend.recorded) buffer)
  newGcm : ∀ cipher nonceSize tagSize,
    Candid Driven.events TellsError (Gcm.create backend.recorded cipher nonceSize tagSize)
  newOrdered : ∀ cipher,
    Candid Driven.events TellsError (Gcm.Ordered.create backend.recorded cipher)
  newBlockwise : ∀ engine secret nonceSize tagSize,
    Candid Driven.events TellsError
      (Gcm.createBlockwise backend.recorded engine secret nonceSize tagSize)
  deriveBlockwise : ∀ (cipher : AesCipher) nonceSize tagSize,
    Candid Recorded.events TellsError
      (Gcm.Blockwise.derive (cipher.blockCipher backend.recorded) nonceSize tagSize)
  sealGcm : ∀ (gcm : Gcm) destination nonce plaintext aad,
    Candid Recorded.events TellsFault
      (gcm.sealInto backend.recorded destination nonce plaintext aad)
  sealBlockwise : ∀ (cipher : AesCipher) (mode : Gcm.Blockwise) destination nonce plaintext aad,
    Candid Recorded.events TellsFault
      (mode.sealInto (cipher.blockCipher backend.recorded) destination nonce plaintext aad)
  sealOrdered : ∀ (ordered : Gcm.Ordered) destination nonce plaintext aad,
    Candid Recorded.events TellsFault
      (ordered.sealInto backend.recorded destination nonce plaintext aad)
  openGcm : ∀ (gcm : Gcm) destination nonce sealedText aad,
    Candid Recorded.events TellsForgery
      (gcm.openInto backend.recorded destination nonce sealedText aad)
  openBlockwise : ∀ (cipher : AesCipher) (mode : Gcm.Blockwise) destination nonce sealedText aad,
    Candid Recorded.events TellsForgery
      (mode.openInto (cipher.blockCipher backend.recorded) destination nonce sealedText aad)
  openOrdered : ∀ (ordered : Gcm.Ordered) destination nonce sealedText aad,
    Candid Recorded.events TellsForgery
      (ordered.openInto backend.recorded destination nonce sealedText aad)

/-- The operations over two backends come to the same results. -/
structure Backend.SameResults (backend other : Backend σ) : Prop where
  fips : ∀ state, (Driven.fips backend state).1 = (Driven.fips other state).1
  newCipher : ∀ engine secret state,
    (AesCipher.create backend engine secret state).1 =
      (AesCipher.create other engine secret state).1
  newGcm : ∀ cipher nonceSize tagSize state,
    (Gcm.create backend cipher nonceSize tagSize state).1 =
      (Gcm.create other cipher nonceSize tagSize state).1
  newOrdered : ∀ cipher state,
    (Gcm.Ordered.create backend cipher state).1 = (Gcm.Ordered.create other cipher state).1
  newBlockwise : ∀ engine secret nonceSize tagSize state,
    (Gcm.createBlockwise backend engine secret nonceSize tagSize state).1 =
      (Gcm.createBlockwise other engine secret nonceSize tagSize state).1
  /-- So it is with every mode over a cipher. -/
  blockCipher : ∀ cipher : AesCipher, cipher.blockCipher backend = cipher.blockCipher other
  cryptBlock : ∀ (cipher : AesCipher) direction source destination state,
    (cipher.cryptBlock backend direction source destination state).1 =
      (cipher.cryptBlock other direction source destination state).1
  sealGcm : ∀ (gcm : Gcm) destination nonce plaintext aad state,
    (gcm.sealInto backend destination nonce plaintext aad state).1 =
      (gcm.sealInto other destination nonce plaintext aad state).1
  sealOrdered : ∀ (ordered : Gcm.Ordered) destination nonce plaintext aad state,
    (ordered.sealInto backend destination nonce plaintext aad state).1 =
      (ordered.sealInto other destination nonce plaintext aad state).1
  openGcm : ∀ (gcm : Gcm) destination nonce sealedText aad state,
    (gcm.openInto backend destination nonce sealedText aad state).1 =
      (gcm.openInto other destination nonce sealedText aad state).1

theorem Backend.stopsAtFailure (backend : Backend σ) : backend.StopsAtFailure where
  fips := Driven.fips_candid
  newCipher := AesCipher.create_candid
  cryptBlock := AesCipher.cryptBlock_candid
  crypt cipher := Cbc.crypt_candid cipher.blockCipher_candid
  cryptInPlace cipher := Cbc.cryptInPlace_candid cipher.blockCipher_candid
  newGcm := Gcm.create_candid
  newOrdered := Gcm.Ordered.create_candid
  newBlockwise := Gcm.createBlockwise_candid
  deriveBlockwise cipher := Gcm.Blockwise.derive_candid cipher.blockCipher_candid
  sealGcm := Gcm.sealInto_candid
  sealBlockwise cipher := Gcm.Blockwise.sealInto_candid cipher.blockCipher_candid
  sealOrdered := Gcm.Ordered.sealInto_candid
  openGcm := Gcm.openInto_candid
  openBlockwise cipher := Gcm.Blockwise.openInto_candid cipher.blockCipher_candid
  openOrdered ordered := ordered.gcm.openInto_candid

theorem Backend.AlikeButReleases.sameResults (alike : backend.AlikeButReleases other) :
    backend.SameResults other where
  fips _ := by rw [alike.fips]
  newCipher engine secret state := (alike.create engine secret state).1
  newGcm cipher nonceSize tagSize state := (alike.createGcm cipher nonceSize tagSize state).1
  newOrdered cipher state := (alike.createOrdered cipher state).1
  newBlockwise engine secret nonceSize tagSize state :=
    (alike.createBlockwise engine secret nonceSize tagSize state).1
  blockCipher := alike.blockCipher
  cryptBlock _ _ _ _ _ := by rw [alike.cryptBlock]
  sealGcm _ _ _ _ _ _ := by rw [alike.sealInto]
  sealOrdered _ _ _ _ _ _ := by rw [alike.sealOrdered]
  openGcm _ _ _ _ _ _ := by rw [alike.openInto]

/-- Over every backend and wherever a call fails that gives nothing back, this failure ends the
operation and is what it tells. What fails of the calls that give something back changes no
result. -/
theorem first_failure_is_told (backend : Backend σ) :
    backend.StopsAtFailure ∧
      ∀ other, backend.AlikeButReleases other → backend.SameResults other :=
  ⟨backend.stopsAtFailure, fun _ alike => alike.sameResults⟩

end CipherModes
