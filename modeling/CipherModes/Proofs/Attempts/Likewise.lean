import CipherModes.Proofs.Pairing

/-!
# Operations that go likewise

Two operations go likewise if, run from two states that are related, they come
to values that are alike and to related states again. Modes over block ciphers
that go likewise go likewise themselves.
-/

set_option autoImplicit false

namespace CipherModes

variable {σ τ α β γ δ : Type} {related : σ → τ → Prop}

/-- From related states, the one operation and the other come to alike values in related states. -/
def Likewise (related : σ → τ → Prop) (alike : α → β → Prop) (operation : StateM σ α)
    (twin : StateM τ β) : Prop :=
  ∀ state other, related state other →
    alike (operation state).1 (twin other).1 ∧ related (operation state).2 (twin other).2

namespace Likewise

variable {alike : α → β → Prop} {between : γ → δ → Prop}

theorem pure {value : α} {other : β} (holds : alike value other) :
    Likewise related alike (Pure.pure value) (Pure.pure other) :=
  fun _ _ relates => ⟨holds, relates⟩

theorem bind {operation : StateM σ γ} {twin : StateM τ δ} {rest : γ → StateM σ α}
    {others : δ → StateM τ β} (first : Likewise related between operation twin)
    (second : ∀ value other, between value other →
      Likewise related alike (rest value) (others other)) :
    Likewise related alike (operation >>= rest) (twin >>= others) := by
  intro state other relates
  obtain ⟨holds, next⟩ := first state other relates
  exact second _ _ holds _ _ next

theorem pairing (related : σ → τ → Prop) : Pairing (fun {_ _} => Likewise related) where
  mono := fun first weaken state other relates =>
    (first state other relates).imp_left (weaken _ _)
  pure := pure
  bind := fun _ => bind

end Likewise

end CipherModes
