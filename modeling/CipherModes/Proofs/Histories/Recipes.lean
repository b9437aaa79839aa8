import CipherModes.Proofs.Attempts.Creating
import CipherModes.Proofs.Histories.Successes
import CipherModes.Proofs.Usage.Workspace

/-!
# What objects are made of

A cipher is made of key bytes, a GCM of the key bytes of a cipher and of sizes.
What was made so has a live key of these bytes on the token, and all that it
keeps besides is told by them and by the block length that the token reports.
-/

set_option autoImplicit false

namespace CipherModes

/-- What an object was made of: key bytes, and the sizes where they can be chosen. -/
inductive Recipe
  | cipher (secret : Bytes)
  | gcm (secret : Bytes) (nonceSize tagSize : Nat)
  | blockwise (secret : Bytes) (nonceSize tagSize : Nat)
  | ordered (secret : Bytes)
  deriving DecidableEq, Repr

def Recipe.secret : Recipe → Bytes
  | cipher secret | gcm secret .. | blockwise secret .. | ordered secret => secret

/-- On a token that reports this block length, the object is what is made by the recipe, and its
key lives. -/
inductive Item.MadeBy (blockLength : Nat) (token : Token) : Recipe → Item → Prop
  | cipher {secret : Bytes} {aes : AesCipher} {schedule : Aes.Schedule}
      (expanded : Aes.Schedule.ofSecret? secret = some schedule) (keeps : aes.secret = secret)
      (size : aes.blockSize = blockLength)
      (live : token.material? aes.key.raw = some (.blocks schedule)) :
      MadeBy blockLength token (.cipher secret) (.cipher aes)
  | gcm {secret : Bytes} {nonceSize tagSize : Nat} {mode : Gcm} {schedule : Aes.Schedule}
      (expanded : Aes.Schedule.ofSecret? secret = some schedule)
      (nonces : mode.nonceSize = nonceSize) (tags : mode.tagSize = tagSize)
      (native : mode.isNative = true ↔
        nonceSize = Gcm.standardNonceSize ∧ tagSize = Gcm.standardTagSize)
      (keyed : mode.KeyedBy schedule token) :
      MadeBy blockLength token (.gcm secret nonceSize tagSize) (.gcm mode)
  | blockwise {secret : Bytes} {nonceSize tagSize : Nat} {aes : AesCipher} {mode : Gcm.Blockwise}
      {schedule : Aes.Schedule} (expanded : Aes.Schedule.ofSecret? secret = some schedule)
      (nonces : mode.nonceSize = nonceSize) (tags : mode.tagSize = tagSize)
      (keyed : mode.KeyedBy aes schedule token) :
      MadeBy blockLength token (.blockwise secret nonceSize tagSize) (.blockwise aes mode)
  | ordered {secret : Bytes} {mode : Gcm.Ordered} {schedule : Aes.Schedule}
      (expanded : Aes.Schedule.ofSecret? secret = some schedule)
      (native : mode.gcm.isNative = true) (keyed : mode.gcm.KeyedBy schedule token) :
      MadeBy blockLength token (.ordered secret) (.ordered mode)

theorem Item.MadeBy.live {blockLength : Nat} {token : Token} {recipe : Recipe} {item : Item}
    (made : item.MadeBy blockLength token recipe) :
    ∀ held ∈ item.custody?, ∃ material, token.material? held.key.raw = some material := by
  intro held member
  cases made with
  | cipher expanded keeps size live =>
      cases member
      exact ⟨_, live⟩
  | blockwise expanded nonces tags keyed =>
      cases member
      exact ⟨_, keyed.made⟩
  | gcm expanded nonces tags native keyed =>
      cases keyed with
      | native live =>
          cases member
          exact ⟨_, live⟩
      | blockwise keyed =>
          cases member
          exact ⟨_, keyed.made⟩
  | @ordered _ mode _ expanded native keyed =>
      obtain ⟨gcm, least⟩ := mode
      cases keyed with
      | native live =>
          cases member
          exact ⟨_, live⟩
      | blockwise keyed => cases native

/-- An object stays what was made by the recipe as long as its key does. -/
theorem Item.MadeBy.of_same {blockLength : Nat} {before after : Token} {recipe : Recipe}
    {item : Item} (made : item.MadeBy blockLength before recipe)
    (same : ∀ held ∈ item.custody?,
      after.material? held.key.raw = before.material? held.key.raw) :
    item.MadeBy blockLength after recipe := by
  cases made with
  | cipher expanded keeps size live =>
      exact .cipher expanded keeps size ((same _ rfl).trans live)
  | @gcm _ _ _ mode _ expanded nonces tags native keyed =>
      refine .gcm expanded nonces tags native (keyed.of_same ?_)
      cases mode <;> exact same _ rfl
  | blockwise expanded nonces tags keyed =>
      exact .blockwise expanded nonces tags (keyed.of_made ((same _ rfl).trans keyed.made))
  | @ordered _ mode _ expanded native keyed =>
      refine .ordered expanded native (keyed.of_same ?_)
      obtain ⟨gcm, least⟩ := mode
      cases gcm <;> exact same _ rfl

/-! ## Keys stay what they are -/

theorem Token.Serves.coherent {token : Token} {custody : List Custody}
    {cached : List (CacheKey × AesAlgorithm)} {strangers : List Provider}
    {cache : ProviderCache AesAlgorithm} (serves : token.Serves custody cached strangers)
    (among : cache.entries ⊆ cached) : Driven.Coherent ⟨cache, token⟩ := by
  refine ⟨serves.accounted, fun entry member => ?_⟩
  obtain ⟨mode, -, named, present⟩ := serves.open_in_mode entry (among member)
  exact ⟨mode, named, present⟩

/-- A handle that has been issued, and whatever key it may name is of this material. -/
structure Token.Settles (token : Token) (key : Handle) (material : KeyMaterial) : Prop where
  issued : key.id.toNat ≤ token.handlesIssued
  only : ∀ other, token.material? key = some other → other = material

namespace Token.Settles

variable {token next : Token} {key : Handle} {material : KeyMaterial} {call : Call}

theorem of_live (accounted : token.Accounted) (live : token.material? key = some material) :
    token.Settles key material := by
  constructor
  · rw [← accounted.issued_eq]
    by_contra later
    have absent := accounted.no_key key (Nat.lt_of_not_le later)
    rw [material?, absent] at live
    cases live
  · intro other found
    rw [live] at found
    exact (Option.some.inj found).symm

theorem step (settles : token.Settles key material) (accounted : token.Accounted)
    (effect : token.Effect call next) (lasts : next.handlesIssued < Handle.limit) :
    next.Settles key material := by
  refine ⟨Nat.le_trans settles.issued effect.handlesIssued_le, ?_⟩
  intro other found
  cases effect with
  | imported =>
      have number := (accounted.issue lasts).2
      have different : key ≠ .issuedAfter token.issued := by
        rintro rfl
        have before := settles.issued
        rw [number] at before
        exact Nat.not_succ_le_self _ before
      rw [material?, HandleTable.get?_insert_ne different] at found
      exact settles.only other found
  | destroyed destroyed =>
      by_cases same : key = destroyed
      · rw [material?, same, HandleTable.get?_erase_self] at found
        cases found
      · rw [material?, HandleTable.get?_erase_ne same] at found
        exact settles.only other found
  | nothing | opened | closed | switched => exact settles.only other found

end Token.Settles

variable {σ : Type} {backend : Backend σ} {front : backend.Fronting}

namespace Backend.Fronting.Proceeds

variable {allowed : Token → Call → Prop} {initial state : σ}

theorem settings_eq (proceeds : front.Proceeds allowed initial state) :
    (front.token state).settings = (front.token initial).settings := by
  induction proceeds with
  | start => rfl
  | @answer state before call fits ih =>
      exact (front.answered call state).effect.settings_eq.trans ih

/-- A key that lives still is the key that it was. -/
theorem material?_eq {key : Handle} {material : KeyMaterial}
    (proceeds : front.Proceeds allowed initial state) (accounted : (front.token initial).Accounted)
    (lasts : (front.token state).handlesIssued < Handle.limit)
    (live : (front.token initial).material? key = some material)
    (lives : ((front.token state).material? key).isSome = true) :
    (front.token state).material? key = (front.token initial).material? key := by
  have settles : (front.token state).Accounted ∧ (front.token state).Settles key material := by
    clear lives
    induction proceeds with
    | start => exact ⟨accounted, .of_live accounted live⟩
    | @answer state before call fits ih =>
        have effect := (front.answered call state).effect
        obtain ⟨still, settles⟩ := ih (Nat.lt_of_le_of_lt effect.handlesIssued_le lasts)
        exact ⟨still.step effect lasts, settles.step still effect lasts⟩
  obtain ⟨other, found⟩ := Option.isSome_iff_exists.mp lives
  rw [found, live, settles.2.only other found]

end Backend.Fronting.Proceeds

/-! ## Asking an engine -/

/-- Whatever it comes to, an action leaves the engine with providers of the block length that the
token reports. -/
def Action.KeepsReports {α : Type} (front : backend.Fronting) (settings : Settings)
    (action : Action (Driven σ) α) : Prop :=
  ∀ state, (Driven.seen front state).Reports settings →
    ∀ entry ∈ (action state).2.cache.entries, entry.2.blockSize = settings.blockLength.toNat

namespace Action.KeepsReports

variable {settings : Settings}

theorem map {α β : Type} {action : Action (Driven σ) α} (keeps : action.KeepsReports front settings)
    (made : α → β) :
    (action >>= fun value => Pure.pure (made value)).KeepsReports front settings := by
  intro state reports
  rw [state_of_map]
  exact keeps state reports

variable (fails : front.OnlyFails)
include fails

theorem importKey (mode : ChainingMode) (secret : Bytes) :
    (Driven.importKey backend mode secret).KeepsReports front settings := by
  intro state reports
  have cached := Driven.cached_of_algorithm fails mode reports
  rw [Driven.importKey, bind_apply]
  cases asked : Driven.algorithm backend mode state with
  | mk result middle =>
      rw [asked] at cached
      cases result with
      | error error => exact cached
      | ok algorithm =>
          dsimp only
          rw [state_of_map]
          exact cached

theorem createCipher (engine : EngineId) (secret : Bytes) :
    (AesCipher.create backend engine secret).KeepsReports front settings :=
  (importKey fails .ecb secret).map _

theorem createBlockwise (engine : EngineId) (secret : Bytes) (nonceSize tagSize : Nat) :
    (Gcm.createBlockwise backend engine secret nonceSize tagSize).KeepsReports front settings := by
  intro state reports
  have cached := createCipher fails engine secret state reports
  rw [Gcm.createBlockwise]
  cases created : AesCipher.create backend engine secret state with
  | mk result middle =>
      rw [created] at cached
      cases result with
      | error error => exact cached
      | ok cipher =>
          simp only [Caching.onBackend]
          cases Gcm.Blockwise.derive (cipher.blockCipher backend) nonceSize tagSize
              middle.backend with
          | mk outcome last => cases outcome <;> exact cached

theorem createGcm (cipher : AesCipher) (nonceSize tagSize : Nat) :
    (Gcm.create backend cipher nonceSize tagSize).KeepsReports front settings := by
  unfold Gcm.create
  split
  · exact (importKey fails .gcm cipher.secret).map _
  · split
    · exact fun state reports => reports.cached
    · exact (createBlockwise fails cipher.engine cipher.secret nonceSize tagSize).map _

theorem createOrdered (cipher : AesCipher) :
    (Gcm.Ordered.create backend cipher).KeepsReports front settings := by
  rw [Gcm.Ordered.create_eq_map]
  exact (createGcm fails cipher _ _).map _

end Action.KeepsReports

/-! ## Making objects -/

section

variable {start next : Driven σ} {settings : Settings} {nonceSize tagSize : Nat}
  (fails : front.OnlyFails) (coherent : (Driven.seen front start).Coherent)
include fails coherent

theorem AesCipher.madeBy_of_create (reports : (Driven.seen front start).Reports settings)
    {engine : EngineId} {secret : Bytes} {cipher : AesCipher}
    (made : create backend engine secret start = (.ok cipher, next)) :
    (Item.cipher cipher).MadeBy settings.blockLength.toNat (front.token next.backend)
      (.cipher secret) := by
  have direct := create_succeedsAs fails engine secret made
  have size := Driven.blockSize_of_create reports direct
  obtain ⟨schedule, expanded, live⟩ := Gcm.material?_of_cipher coherent direct
  obtain ⟨⟨key, length⟩, middle, imported, finished⟩ := Action.bind_eq_ok made
  cases finished
  exact .cipher expanded rfl size live

/-- Deriving a hash key leaves the token as it is. -/
theorem Gcm.keyedBy_of_createBlockwise {engine : EngineId} {secret : Bytes} {cipher : AesCipher}
    {mode : Blockwise}
    (made : createBlockwise backend engine secret nonceSize tagSize start =
      (.ok (cipher, mode), next)) :
    ∃ schedule, Aes.Schedule.ofSecret? secret = some schedule ∧
      mode.KeyedBy cipher schedule (front.token next.backend) ∧
        mode.nonceSize = nonceSize ∧ mode.tagSize = tagSize := by
  obtain ⟨middle, created, derived, -⟩ := createBlockwise_eq_ok made
  obtain ⟨schedule, expanded, live⟩ :=
    material?_of_cipher coherent (AesCipher.create_succeedsAs fails engine secret created)
  have facts := Blockwise.derivedFrom_of_derive derived
  exact ⟨schedule, expanded, Blockwise.keyedBy_of_hashed facts.cipher_blockSize live
    (AesCipher.transform_of_ok fails facts.hashed), facts.nonceSize_eq, facts.tagSize_eq⟩

theorem Gcm.Blockwise.madeBy_of_create {engine : EngineId} {secret : Bytes} {cipher : AesCipher}
    {mode : Blockwise} (blockLength : Nat)
    (made : createBlockwise backend engine secret nonceSize tagSize start =
      (.ok (cipher, mode), next)) :
    (Item.blockwise cipher mode).MadeBy blockLength (front.token next.backend)
      (.blockwise secret nonceSize tagSize) := by
  obtain ⟨schedule, expanded, keyed, nonces, tags⟩ :=
    keyedBy_of_createBlockwise fails coherent made
  exact .blockwise expanded nonces tags keyed

theorem Gcm.madeBy_of_create {cipher : AesCipher} {gcm : Gcm} (blockLength : Nat)
    (made : create backend cipher nonceSize tagSize start = (.ok gcm, next)) :
    (Item.gcm gcm).MadeBy blockLength (front.token next.backend)
      (.gcm cipher.secret nonceSize tagSize) := by
  rcases create_eq_ok made with ⟨standard, key, length, rfl, imported⟩ |
    ⟨other, own, mode, rfl, built⟩
  · obtain ⟨material, kind, live⟩ :=
      coherent.material?_of_importKey (Driven.importKey_succeedsAs fails _ _ imported)
    obtain ⟨schedule, expanded, ⟨other, -⟩ | ⟨-, rfl⟩⟩ := KeyMaterial.ofSecret_eq_ok kind
    · cases other
    · exact .gcm expanded standard.1.symm standard.2.symm ⟨fun _ => standard, fun _ => rfl⟩
        (.native live)
  · obtain ⟨schedule, expanded, keyed, nonces, tags⟩ :=
      keyedBy_of_createBlockwise fails coherent built
    have native : (blockwise own mode).isNative = true ↔
        nonceSize = standardNonceSize ∧ tagSize = standardTagSize :=
      ⟨fun same => absurd same Bool.false_ne_true, fun standard => absurd standard other⟩
    exact .gcm expanded nonces tags native (.blockwise keyed)

theorem Gcm.Ordered.madeBy_of_create {cipher : AesCipher} {ordered : Ordered} (blockLength : Nat)
    (made : create backend cipher start = (.ok ordered, next)) :
    ordered.minNext = 0 ∧
      (Item.ordered ordered).MadeBy blockLength (front.token next.backend)
        (.ordered cipher.secret) := by
  rw [create_eq_map] at made
  obtain ⟨gcm, middle, built, finished⟩ := Action.bind_eq_ok made
  cases finished
  cases Gcm.madeBy_of_create fails coherent blockLength built with
  | gcm expanded nonces tags native keyed =>
      exact ⟨rfl, .ordered expanded (native.mpr ⟨rfl, rfl⟩) keyed⟩

end

end CipherModes
