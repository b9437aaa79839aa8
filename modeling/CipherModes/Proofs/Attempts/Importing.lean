import CipherModes.Proofs.Attempts.Obtaining

/-!
# What is left of an import

A key is imported into the provider of its mode, which the engine may have to
open first. What key that is can be told beforehand from what the provider
reports. If it fails, the provider is all that is left.
-/

set_option autoImplicit false

namespace CipherModes

/-! ## Keys that can be expected -/

/-- The key that is made of a secret where a provider allows such keys. -/
def AllowedKeyLengths.keyFor (allowed : AllowedKeyLengths) (mode : ChainingMode)
    (secret : Bytes) : Except CipherError KeyMaterial :=
  if allowed.allows (keyBits secret.length) then
    if Token.lengthFits secret then
      (KeyMaterial.ofSecret mode secret).mapError fun status =>
        .backend ⟨Operation.importKey.name, status⟩
    else .error (.backend ⟨Operation.importKey.name, .invalidBufferSize⟩)
  else .error (.invalidKeySize (keyBits secret.length))

/-- The key and the block length that an engine can expect for a secret. -/
def Plan.keyed (plan : Plan) (settings : Settings) (mode : ChainingMode) (secret : Bytes) :
    Except CipherError (KeyMaterial × Nat) := do
  let (allowed, size) ← plan.offer settings
  let material ← allowed.keyFor mode secret
  return (material, size)

theorem Plan.keyed_of_offer {plan : Plan} {settings : Settings} {allowed : AllowedKeyLengths}
    {size : Nat} (offered : plan.offer settings = .ok (allowed, size)) (mode : ChainingMode)
    (secret : Bytes) :
    plan.keyed settings mode secret = (allowed.keyFor mode secret).map fun material =>
      (material, size) := by
  rw [keyed, offered]
  cases made : allowed.keyFor mode secret <;> simp only [bind, Except.bind, made] <;> rfl

/-! ## Importing a key -/

namespace Token

variable {token : Token} {provider : Handle} {mode : ChainingMode} {secret : Bytes}

/-- One more key is live, under the handle issued next. -/
def withKey (token : Token) (provider : Handle) (secret : Bytes) (material : KeyMaterial) : Token :=
  { token with
    issued := token.issued + 1
    keys := token.keys.insert (.issuedAfter token.issued)
      ⟨provider, UInt32.ofNat (secret.length * 8), material⟩
    keysImported := token.keysImported + 1 }

theorem answer_import (present : token.providers.get? provider = some mode) (secret : Bytes) :
    token.answer (.importKey provider secret) =
      if lengthFits secret then
        match KeyMaterial.ofSecret mode secret with
        | .error status => (.fail status, token)
        | .ok material =>
            (.succeed (.issuedAfter token.issued), token.withKey provider secret material)
      else (.fail .invalidBufferSize, token) := by
  simp only [answer, importKey, present]
  rfl

theorem handlesIssued_withKey (token : Token) (provider : Handle) (secret : Bytes)
    (material : KeyMaterial) :
    (token.withKey provider secret material).handlesIssued = token.handlesIssued + 1 := rfl

theorem material?_withKey (token : Token) (provider : Handle) (secret : Bytes)
    (material : KeyMaterial) :
    (token.withKey provider secret material).material? (.issuedAfter token.issued) =
      some material := by
  rw [material?, withKey, HandleTable.get?_insert_self]
  rfl

/-- A key that was just imported can be destroyed, and then all is as before but the counts. -/
theorem destroy_withKey (accounted : token.Accounted)
    (remain : token.handlesIssued + 1 < Handle.limit) (provider : Handle) (secret : Bytes)
    (material : KeyMaterial) :
    let destroyed := ((token.withKey provider secret material).answer
      (.destroyKey (.issuedAfter token.issued))).2
    destroyed.providers = token.providers ∧ destroyed.keys = token.keys := by
  have unused := (accounted.unused remain).2
  simp only [answer, destroyKey, withKey, HandleTable.get?_insert_self,
    HandleTable.erase_insert unused]
  exact ⟨trivial, trivial⟩

end Token

variable {plan : Plan}

theorem AesAlgorithm.importKey_meets (plan : Plan) {state : Interposed Token}
    {algorithm : AesAlgorithm} {mode : ChainingMode}
    (present : state.inner.providers.get? algorithm.provider.raw = some mode) (secret : Bytes) :
    Meets plan (algorithm.allowed.keyFor mode secret)
      (fun key material next =>
        key = ⟨algorithm.provider, .issuedAfter state.inner.issued, keyBits secret.length⟩ ∧
          next.inner = state.inner.withKey algorithm.provider.raw secret material)
      (fun next => next.inner = state.inner)
      (algorithm.importKey (Token.backend.interposed plan) secret state) := by
  rw [importKey, AllowedKeyLengths.keyFor]
  split
  · have behind : plan.Behind (.importKey algorithm.provider.raw secret) state _ :=
      Plan.answer_behind (by intro _ _ _ same; cases same)
    rw [ImportedKey.acquire]
    generalize (Token.backend.interposed plan).answer _ state = answered at behind
    cases behind with
    | failed refused faulty =>
        simp only [refused]
        exact .error (fun calm => absurd calm faulty) rfl
    | passed =>
        rw [Token.answer_import present]
        by_cases fits : Token.lengthFits secret
        · simp only [if_pos fits]
          cases made : KeyMaterial.ofSecret mode secret with
          | error status => exact .error (fun _ => rfl) rfl
          | ok material => exact .ok rfl ⟨rfl, rfl⟩
        · simp only [if_neg fits]
          exact .error (fun _ => rfl) rfl
  · exact .error (fun _ => rfl) rfl

theorem AesAlgorithm.importKey_follows (plan : Plan) (algorithm : AesAlgorithm) (secret : Bytes)
    (state : Interposed Token) :
    state.inner.Follows
      (algorithm.importKey (Token.backend.interposed plan) secret state).2.inner := by
  rw [importKey]
  split
  · have follows := plan.follows_answer (.importKey algorithm.provider.raw secret) state
    rw [ImportedKey.acquire]
    dsimp only
    split <;> exact follows
  · exact .refl state.inner

/-! ## Importing through an engine -/

namespace Driven

variable {state next : Driven (Interposed Token)} {mode : ChainingMode} {secret : Bytes}

/-- What an import leaves behind that came to this key and block length: the key, and before it at
most a provider. -/
structure Imported (plan : Plan) (state : Driven (Interposed Token)) (secret : Bytes)
    (key : ImportedKey) (size : Nat) (told : KeyMaterial × Nat)
    (next : Driven (Interposed Token)) : Prop where
  blockSize : size = told.2
  bits : key.bits = keyBits secret.length
  named : key.provider.algorithm = aesAlgorithm
  added : ∃ middle : Driven (Interposed Token), Leaves plan state middle ∧
    next.cache = middle.cache ∧ key.raw = .issuedAfter middle.token.issued ∧
    next.token = middle.token.withKey key.provider.raw secret told.1 ∧
    middle.token.Follows next.token

namespace Imported

variable {key : ImportedKey} {size : Nat} {told : KeyMaterial × Nat}

theorem follows (imported : Imported plan state secret key size told next) :
    state.token.Follows next.token := by
  obtain ⟨middle, leaves, -, -, -, follows⟩ := imported.added
  exact leaves.follows.trans follows

theorem material (imported : Imported plan state secret key size told next) :
    next.token.material? key.raw = some told.1 := by
  obtain ⟨middle, -, -, raw, same, -⟩ := imported.added
  rw [same, raw, Token.material?_withKey]

/-- If the key is destroyed again, at most the provider is left. -/
theorem leaves_of_destroy (imported : Imported plan state secret key size told next)
    (sound : state.Sound plan) {last : Driven (Interposed Token)}
    (cache : last.cache = next.cache)
    (destroyed : last.token = (next.token.answer (.destroyKey key.raw)).2) :
    Leaves plan state last := by
  have issued := Token.Follows.answer next.token (.destroyKey key.raw)
  rw [← destroyed] at issued
  refine ⟨imported.follows.trans issued, fun remain => ?_⟩
  obtain ⟨middle, leaves, kept, raw, same, follows⟩ := imported.added
  rw [Lasts, destroyed, Token.handlesIssued_of_release rfl, same,
    Token.handlesIssued_withKey] at remain
  have before : middle.token.handlesIssued < Handle.limit := Nat.lt_of_succ_lt remain
  have accounted := leaves.follows.accounted before sound.accounted
  rw [same, raw] at destroyed
  obtain ⟨providers, keys⟩ := Token.destroy_withKey accounted remain key.provider.raw secret told.1
  rw [← destroyed] at providers keys
  exact (leaves.residue before).of_same keys (cache.trans kept) providers

end Imported

theorem Leaves.of_same {middle : Driven (Interposed Token)} (leaves : Leaves plan state middle)
    (cache : next.cache = middle.cache) (same : next.token = middle.token) :
    Leaves plan state next := by
  refine ⟨same ▸ leaves.follows, fun remain => ?_⟩
  rw [Lasts, same] at remain
  exact (leaves.residue remain).of_same (congrArg Token.keys same) cache
    (congrArg Token.providers same)

theorem importKey_follows (spares : plan.SparesReleases) (mode : ChainingMode) (secret : Bytes)
    (state : Driven (Interposed Token)) :
    state.token.Follows (importKey (Token.backend.interposed plan) mode secret state).2.token := by
  have obtained := obtained_algorithm plan mode state
  rw [importKey, Action.bind_apply]
  generalize algorithm (Token.backend.interposed plan) mode state = outcome at obtained ⊢
  have asked := obtained.follows spares
  obtain ⟨result, middle⟩ := outcome
  cases result with
  | error error => exact asked
  | ok algorithm =>
      have imported := algorithm.importKey_follows plan secret middle.backend
      dsimp only
      rw [Action.state_of_map]
      exact asked.trans imported

theorem importKey_meets (spares : plan.SparesReleases) (sound : state.Sound plan)
    (mode : ChainingMode) (secret : Bytes)
    (lasts : (importKey (Token.backend.interposed plan) mode secret state).2.Lasts) :
    Meets plan (plan.keyed state.token.settings mode secret)
      (fun made told next => Imported plan state secret made.1 made.2 told next)
      (Leaves plan state) (importKey (Token.backend.interposed plan) mode secret state) := by
  have asking := algorithm_meets spares sound mode
  rw [importKey, Action.bind_apply] at lasts ⊢
  cases asked : algorithm (Token.backend.interposed plan) mode state with
  | mk result middle =>
      rw [asked] at asking lasts
      cases asking with
      | error expects leaves =>
          refine .error (fun calm => ?_) leaves
          rw [Plan.keyed, expects calm]
          rfl
      | @ok algorithm _ _ expects holds =>
          obtain ⟨leaves, member, rfl⟩ := holds
          have follows := algorithm.importKey_follows plan secret middle.backend
          have named := fun remain => ((sound.after leaves remain).cached _ member).named
          have importing := fun remain =>
            algorithm.importKey_meets plan ((sound.after leaves remain).present member) secret
          rw [Plan.keyed_of_offer expects]
          cases ran : algorithm.importKey (Token.backend.interposed plan) secret middle.backend with
          | mk outcome last =>
              rw [ran] at follows importing
              simp only [Action.bind_apply, Caching.tryBackend, ran] at lasts ⊢
              have remain : last.inner.handlesIssued < Handle.limit := by
                cases outcome <;> exact lasts
              have before := Nat.lt_of_le_of_lt follows.issued_le remain
              cases importing before with
              | error expects same =>
                  refine .error (fun calm => ?_) (leaves.of_same rfl same)
                  rw [expects calm]
                  rfl
              | ok expects holds =>
                  obtain ⟨rfl, same⟩ := holds
                  refine .ok (congrArg _ expects) ?_
                  exact ⟨rfl, rfl, named before, middle, leaves, rfl, rfl, same, follows⟩

end Driven

end CipherModes
