import CipherModes.Proofs.Attempts.Repeating
import CipherModes.Proofs.Engine.Persistence

/-!
# What is made through an engine

An engine makes ciphers, and of them GCMs, with ordered nonces or without. Each
is known by its key. An engine that made one or failed to make it is still one
that can be reached.
-/

set_option autoImplicit false

namespace CipherModes

/-! ## What can be made -/

/-- What is made through an engine: a cipher of a secret, or a GCM of the secret of a cipher. -/
inductive Creation
  | cipher (engine : EngineId) (secret : Bytes)
  | gcm (cipher : AesCipher) (nonceSize tagSize : Nat)
  | ordered (cipher : AesCipher)

inductive Created
  | cipher (cipher : AesCipher)
  | gcm (gcm : Gcm)
  | ordered (ordered : Gcm.Ordered)
  deriving DecidableEq

def Creation.run {σ : Type} (backend : Backend σ) : Creation → Action (Driven σ) Created
  | .cipher engine secret => do
      let made ← AesCipher.create backend engine secret
      return .cipher made
  | .gcm aes nonceSize tagSize => do
      let made ← Gcm.create backend aes nonceSize tagSize
      return .gcm made
  | .ordered aes => do
      let made ← Gcm.Ordered.create backend aes
      return .ordered made

namespace Created

def key : Created → ImportedKey
  | cipher aes => aes.key
  | gcm mode => mode.ownedKey
  | ordered mode => mode.gcm.ownedKey

/-- The objects differ in nothing but the handles of their keys. -/
inductive Alike : Created → Created → Prop
  | cipher {aes twin : AesCipher} (alike : aes.Alike twin) : Alike (cipher aes) (cipher twin)
  | gcm {mode twin : Gcm} (alike : mode.Alike twin) : Alike (gcm mode) (gcm twin)
  | ordered {mode twin : Gcm.Ordered} (alike : mode.Alike twin) :
      Alike (ordered mode) (ordered twin)

inductive ServesLikewise {σ : Type} (backend : Backend σ) (related : σ → σ → Prop) :
    Created → Created → Prop
  | cipher {aes twin : AesCipher} (serves : aes.ServesLikewise backend related twin) :
      ServesLikewise backend related (cipher aes) (cipher twin)
  | gcm {mode twin : Gcm} (serves : mode.ServesLikewise backend related twin) :
      ServesLikewise backend related (gcm mode) (gcm twin)
  | ordered {mode twin : Gcm.Ordered} (serves : mode.ServesLikewise backend related twin) :
      ServesLikewise backend related (ordered mode) (ordered twin)

/-- Used on either token the objects do the same forever, whatever calls fail from then on. -/
def BehavesAs (created twin : Created) (token other : Token) : Prop :=
  ∀ (plan : Plan) (made : List Operation), ∃ related : Interposed Token → Interposed Token → Prop,
    related ⟨token, made⟩ ⟨other, made⟩ ∧
      created.ServesLikewise (Token.backend.interposed plan) related twin

variable {created twin : Created} {token other : Token}

theorem Alike.refl (created : Created) : created.Alike created := by
  have ciphers (aes : AesCipher) : aes.Alike aes := ⟨⟨rfl, rfl⟩, rfl, rfl, rfl⟩
  have modes (mode : Gcm) : mode.Alike mode := by
    cases mode with
    | native key => exact .native ⟨rfl, rfl⟩
    | blockwise aes mode => exact .blockwise (ciphers aes) mode
  cases created with
  | cipher aes => exact .cipher (ciphers aes)
  | gcm mode => exact .gcm (modes mode)
  | ordered mode => exact .ordered ⟨modes mode.gcm, rfl⟩

theorem Alike.behavesAs (alike : created.Alike twin)
    (same : token.material? created.key.raw = other.material? twin.key.raw) :
    created.BehavesAs twin token other := by
  intro plan made
  refine ⟨plan.Pairs created.key.raw twin.key.raw, ⟨.inr rfl, same⟩, ?_⟩
  cases alike with
  | cipher alike => exact .cipher (AesCipher.servesLikewise plan alike)
  | gcm alike => exact .gcm (Gcm.servesLikewise plan alike)
  | ordered alike => exact .ordered (Gcm.Ordered.servesLikewise plan alike)

end Created

/-! ## Making them behind a plan -/

namespace Driven

theorem lasting_reachedBehind (plan : Plan) :
    Lasting (Token.backend.interposed plan) (ReachedBehind plan) where
  asked mode _ reached := reached.asked mode
  called call others reached := by
    refine reached.called call fun _ _ => Call.leavesAlone_of_operation fun member => others ?_
    exact List.mem_cons_of_mem _ member

end Driven

namespace Creation

variable {plan : Plan} {state next : Driven (Interposed Token)}

theorem run_follows (spares : plan.SparesReleases) (creation : Creation)
    (state : Driven (Interposed Token)) :
    state.token.Follows (creation.run (Token.backend.interposed plan) state).2.token := by
  cases creation with
  | cipher engine secret =>
      rw [run, Action.state_of_map]
      exact AesCipher.create_follows spares engine secret state
  | gcm cipher nonceSize tagSize =>
      rw [run, Action.state_of_map]
      exact Gcm.create_follows spares cipher nonceSize tagSize state
  | ordered cipher =>
      rw [run, Action.state_of_map, Gcm.Ordered.create_eq_map, Action.state_of_map]
      exact Gcm.create_follows spares cipher Gcm.standardNonceSize Gcm.standardTagSize state

theorem run_leaves {error : CipherError} (spares : plan.SparesReleases)
    (sound : state.Sound plan) (lasts : next.Lasts) {creation : Creation}
    (failed : creation.run (Token.backend.interposed plan) state = (.error error, next)) :
    state.Leaves plan next := by
  cases creation with
  | cipher engine secret =>
      have ran := Action.error_of_map failed
      have meets := AesCipher.create_meets spares sound engine secret (by rwa [ran])
      rw [ran] at meets
      exact meets.of_error
  | gcm cipher nonceSize tagSize =>
      exact Gcm.create_leaves spares sound lasts (Action.error_of_map failed)
  | ordered cipher =>
      have ran := Action.error_of_map failed
      rw [Gcm.Ordered.create_eq_map] at ran
      exact Gcm.create_leaves spares sound lasts (Action.error_of_map ran)

theorem run_alike {other : Driven (Interposed Token)} (comparable : Comparable plan state other)
    {creation : Creation}
    (lasts : (creation.run (Token.backend.interposed plan) state).2.Lasts)
    (twinLasts : (creation.run (Token.backend.interposed plan) other).2.Lasts) :
    EndAlike Created.Alike Created.key (creation.run (Token.backend.interposed plan) state)
      (creation.run (Token.backend.interposed plan) other) := by
  cases creation with
  | cipher engine secret =>
      rw [run, Action.state_of_map] at lasts twinLasts
      exact (AesCipher.create_alike comparable lasts twinLasts).map Created.cipher
        (fun _ _ => .cipher) fun _ => rfl
  | gcm cipher nonceSize tagSize =>
      rw [run, Action.state_of_map] at lasts twinLasts
      exact (Gcm.create_alike comparable lasts twinLasts).map Created.gcm
        (fun _ _ => .gcm) fun _ => rfl
  | ordered cipher =>
      rw [run, Action.state_of_map] at lasts twinLasts
      exact (Gcm.Ordered.create_alike comparable lasts twinLasts).map Created.ordered
        (fun _ _ => .ordered) fun _ => rfl

theorem run_lasting {σ : Type} {backend : Backend σ} {holds : Driven σ → Prop}
    (lasting : Driven.Lasting backend holds) (creation : Creation) {state : Driven σ}
    (start : holds state) : holds (creation.run backend state).2 := by
  cases creation with
  | cipher engine secret =>
      rw [run, Action.state_of_map]
      exact lasting.createCipher engine secret start
  | gcm aes nonceSize tagSize =>
      rw [run, Action.state_of_map]
      exact lasting.createGcm aes nonceSize tagSize start
  | ordered aes =>
      rw [run, Action.state_of_map, Gcm.Ordered.create_eq_map, Action.state_of_map]
      exact lasting.createGcm aes Gcm.standardNonceSize Gcm.standardTagSize start

theorem run_reached (reached : state.ReachedBehind plan) (creation : Creation) :
    Driven.ReachedBehind plan (creation.run (Token.backend.interposed plan) state).2 :=
  creation.run_lasting (Driven.lasting_reachedBehind plan) reached

end Creation

end CipherModes
