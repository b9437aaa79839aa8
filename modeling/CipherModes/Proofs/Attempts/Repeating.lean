import CipherModes.Proofs.Attempts.Creating

/-!
# Making the same twice

Where no call fails, what an engine makes is told by its token's settings and by
what is asked for. From two sound states it fails with the same error, or makes
objects that differ in nothing but the handles of their keys.
-/

set_option autoImplicit false

namespace CipherModes

variable {α β : Type}

/-- Both ended with the same error, or with alike objects whose keys are live and of the same
material. -/
inductive EndAlike (alike : α → α → Prop) (key : α → ImportedKey) :
    Except CipherError α × Driven (Interposed Token) →
      Except CipherError α × Driven (Interposed Token) → Prop where
  | error {error : CipherError} {next other : Driven (Interposed Token)} :
      EndAlike alike key (.error error, next) (.error error, other)
  | ok {made twin : α} {next other : Driven (Interposed Token)} {material : KeyMaterial}
      (same : alike made twin) (live : next.token.material? (key made).raw = some material)
      (twinLive : other.token.material? (key twin).raw = some material) :
      EndAlike alike key (.ok made, next) (.ok twin, other)

theorem EndAlike.map {alike : α → α → Prop} {key : α → ImportedKey} {wider : β → β → Prop}
    {held : β → ImportedKey} {action twin : Action (Driven (Interposed Token)) α}
    {state other : Driven (Interposed Token)} (made : α → β)
    (ended : EndAlike alike key (action state) (twin other))
    (widen : ∀ value another, alike value another → wider (made value) (made another))
    (kept : ∀ value, held (made value) = key value) :
    EndAlike wider held ((action >>= fun value => pure (made value)) state)
      ((twin >>= fun value => pure (made value)) other) := by
  rw [Action.bind_apply, Action.bind_apply]
  generalize action state = outcome at ended ⊢
  generalize twin other = second at ended ⊢
  cases ended with
  | error => exact .error
  | ok same live twinLive =>
      exact .ok (widen _ _ same) ((kept _).symm ▸ live) ((kept _).symm ▸ twinLive)

section

variable {plan : Plan} {state other : Driven (Interposed Token)}

/-- No call fails, and both states are sound and of the same settings. -/
structure Comparable (plan : Plan) (state other : Driven (Interposed Token)) : Prop where
  calm : plan.Calm
  sound : state.Sound plan
  twinSound : other.Sound plan
  settings : state.token.settings = other.token.settings

theorem Plan.Calm.sparesReleases (calm : plan.Calm) : plan.SparesReleases :=
  fun operation number _ => calm operation number

variable (comparable : Comparable plan state other)
include comparable

theorem Driven.importKey_alike {mode : ChainingMode} {secret : Bytes}
    (lasts : (importKey (Token.backend.interposed plan) mode secret state).2.Lasts)
    (twinLasts : (importKey (Token.backend.interposed plan) mode secret other).2.Lasts) :
    EndAlike (fun made twin => made.1.Alike twin.1 ∧ made.2 = twin.2) Prod.fst
      (importKey (Token.backend.interposed plan) mode secret state)
      (importKey (Token.backend.interposed plan) mode secret other) := by
  obtain ⟨calm, sound, twinSound, settings⟩ := comparable
  have first := importKey_meets calm.sparesReleases sound mode secret lasts
  have second := importKey_meets calm.sparesReleases twinSound mode secret twinLasts
  rw [settings] at first
  generalize importKey (Token.backend.interposed plan) mode secret state = outcome at first ⊢
  generalize importKey (Token.backend.interposed plan) mode secret other = another at second ⊢
  cases first with
  | error expects leaves =>
      cases second with
      | error promises others =>
          cases (expects calm).symm.trans (promises calm)
          exact .error
      | ok promises imported => cases (expects calm).symm.trans promises
  | ok expects imported =>
      cases second with
      | error promises others => cases expects.symm.trans (promises calm)
      | ok promises twin =>
          cases expects.symm.trans promises
          refine .ok ⟨⟨?_, ?_⟩, ?_⟩ imported.material twin.material
          · exact imported.named.trans twin.named.symm
          · exact imported.bits.trans twin.bits.symm
          · exact imported.blockSize.trans twin.blockSize.symm

theorem AesCipher.create_alike {engine : EngineId} {secret : Bytes}
    (lasts : (create (Token.backend.interposed plan) engine secret state).2.Lasts)
    (twinLasts : (create (Token.backend.interposed plan) engine secret other).2.Lasts) :
    EndAlike AesCipher.Alike AesCipher.key
      (create (Token.backend.interposed plan) engine secret state)
      (create (Token.backend.interposed plan) engine secret other) := by
  have imports : create (Token.backend.interposed plan) engine secret = do
      let imported ← Driven.importKey (Token.backend.interposed plan) .ecb secret
      return { engine, key := imported.1, secret, blockSize := imported.2 } := rfl
  rw [imports] at lasts twinLasts ⊢
  rw [Action.state_of_map] at lasts twinLasts
  apply (Driven.importKey_alike comparable lasts twinLasts).map
  · intro value another alike
    exact ⟨alike.1, rfl, rfl, alike.2⟩
  · exact fun _ => rfl

namespace Gcm

theorem createBlockwise_alike {engine : EngineId} {secret : Bytes} {nonceSize tagSize : Nat}
    (lasts : (createBlockwise (Token.backend.interposed plan) engine secret nonceSize tagSize
      state).2.Lasts)
    (twinLasts : (createBlockwise (Token.backend.interposed plan) engine secret nonceSize tagSize
      other).2.Lasts) :
    EndAlike (fun made twin => made.1.Alike twin.1 ∧ made.2 = twin.2) (fun made => made.1.key)
      (createBlockwise (Token.backend.interposed plan) engine secret nonceSize tagSize state)
      (createBlockwise (Token.backend.interposed plan) engine secret nonceSize tagSize other) := by
  have calm := comparable.calm
  have ended := AesCipher.create_alike comparable
    (lasts_of_createBlockwise calm.sparesReleases lasts)
    (lasts_of_createBlockwise calm.sparesReleases twinLasts)
  unfold createBlockwise
  generalize AesCipher.create (Token.backend.interposed plan) engine secret state = outcome
    at ended ⊢
  generalize AesCipher.create (Token.backend.interposed plan) engine secret other = another
    at ended ⊢
  cases ended with
  | error => exact .error
  | @ok made twin next last material same live twinLive =>
      have serves := AesCipher.servesLikewise plan same
      obtain ⟨derived, -⟩ := serves.derive nonceSize tagSize next.backend last.backend
        ⟨.inl calm, live.trans twinLive.symm⟩
      have unchanged := made.unchanged_of_derive plan nonceSize tagSize next.backend
      have twinUnchanged := twin.unchanged_of_derive plan nonceSize tagSize last.backend
      simp only [Caching.onBackend]
      cases ran : Blockwise.derive (made.blockCipher (Token.backend.interposed plan)) nonceSize
          tagSize next.backend with
      | mk result after =>
          cases ranTwin : Blockwise.derive (twin.blockCipher (Token.backend.interposed plan))
              nonceSize tagSize last.backend with
          | mk twinResult twinAfter =>
              rw [ran] at derived unchanged
              rw [ranTwin] at derived twinUnchanged
              obtain rfl : result = twinResult := derived
              cases result with
              | error error => exact .error
              | ok mode =>
                  have kept : after.inner = next.token := unchanged
                  have twinKept : twinAfter.inner = last.token := twinUnchanged
                  rw [← kept] at live
                  rw [← twinKept] at twinLive
                  exact .ok ⟨same, rfl⟩ live twinLive

theorem create_alike {cipher : AesCipher} {nonceSize tagSize : Nat}
    (lasts : (create (Token.backend.interposed plan) cipher nonceSize tagSize state).2.Lasts)
    (twinLasts : (create (Token.backend.interposed plan) cipher nonceSize tagSize
      other).2.Lasts) :
    EndAlike Alike ownedKey
      (create (Token.backend.interposed plan) cipher nonceSize tagSize state)
      (create (Token.backend.interposed plan) cipher nonceSize tagSize other) := by
  by_cases standard : nonceSize = standardNonceSize ∧ tagSize = standardTagSize
  · simp only [create, if_pos standard] at lasts twinLasts ⊢
    rw [Action.state_of_map] at lasts twinLasts
    apply (Driven.importKey_alike comparable lasts twinLasts).map
    · exact fun _ _ alike => .native alike.1
    · exact fun _ => rfl
  by_cases neither : nonceSize ≠ standardNonceSize ∧ tagSize ≠ standardTagSize
  · simp only [create, if_neg standard, if_pos neither]
    exact .error
  · simp only [create, if_neg standard, if_neg neither] at lasts twinLasts ⊢
    rw [Action.state_of_map] at lasts twinLasts
    apply (createBlockwise_alike comparable lasts twinLasts).map
    · intro value another alike
      obtain ⟨ciphers, modes⟩ := alike
      rw [← modes]
      exact .blockwise ciphers value.2
    · exact fun _ => rfl

theorem Ordered.create_alike {cipher : AesCipher}
    (lasts : (create (Token.backend.interposed plan) cipher state).2.Lasts)
    (twinLasts : (create (Token.backend.interposed plan) cipher other).2.Lasts) :
    EndAlike Alike (fun ordered => ordered.gcm.ownedKey)
      (create (Token.backend.interposed plan) cipher state)
      (create (Token.backend.interposed plan) cipher other) := by
  rw [create_eq_map] at lasts twinLasts ⊢
  rw [Action.state_of_map] at lasts twinLasts
  apply (Gcm.create_alike comparable lasts twinLasts).map
  · exact fun _ _ alike => ⟨alike, rfl⟩
  · exact fun _ => rfl

end Gcm

end

end CipherModes
