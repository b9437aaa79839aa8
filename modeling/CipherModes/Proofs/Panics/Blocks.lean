import CipherModes.Engine
import CipherModes.Proofs.Panics.Guarded

/-!
# Panics of block ciphers

A mode asks nothing more of a cipher than that it works on whole blocks; a call
on less may panic. An AES cipher checks both buffers before its only call.
-/

set_option autoImplicit false

namespace CipherModes

open Guarded

variable {σ : Type}

/-- A block cipher with calls that may panic, but not if both buffers hold a block. -/
structure GuardedCipher (τ : Type) where
  cipher : BlockCipher τ
  attempt : Direction → (source : Bytes) → Guarded (Frame τ Unit) (Except CipherError Unit)
  attempt_of_full : ∀ direction source frame, cipher.blockSize ≤ source.length →
    cipher.blockSize ≤ frame.buffer.length →
      attempt direction source frame =
        (.ok (cipher.transform direction source frame.buffer frame.world).1.1,
          ⟨(cipher.transform direction source frame.buffer frame.world).2,
            (cipher.transform direction source frame.buffer frame.world).1.2, ()⟩)

namespace AesCipher

/-- The call of a backend on a buffer that it may write. -/
def cryptCall (backend : Backend σ) (key : Handle) (direction : Direction) (input : Bytes) :
    Guarded (Frame σ Unit) (Except CipherError Unit) := fun frame =>
  let (reply, world) := backend.answer (.crypt direction key input frame.buffer) frame.world
  (.ok (reply.result.mapError .backend |>.map fun _ => ()),
    { frame with world, buffer := reply.output })

def cryptBlockGuarded (backend : Backend σ) (cipher : AesCipher) (direction : Direction)
    (source : Bytes) : Guarded (Frame σ Unit) (Except CipherError Unit) := do
  require .sourceHoldsBlock (cipher.blockSize ≤ source.length)
  require .destinationHoldsBlock (cipher.blockSize ≤ (← buffer).length)
  let input ← step (Panic.front source cipher.blockSize)
  onSlice 0 cipher.blockSize (cryptCall backend cipher.key.raw direction input)

variable {backend : Backend σ} {cipher : AesCipher} {direction : Direction} {source : Bytes}
  {frame : Frame σ Unit}

theorem cryptBlockGuarded_of_full (reads : cipher.blockSize ≤ source.length)
    (writes : cipher.blockSize ≤ frame.buffer.length) :
    cryptBlockGuarded backend cipher direction source frame =
      (.ok ((cipher.blockCipher backend).transform direction source frame.buffer frame.world).1.1,
        ⟨((cipher.blockCipher backend).transform direction source frame.buffer frame.world).2,
          ((cipher.blockCipher backend).transform direction source frame.buffer frame.world).1.2,
          ()⟩) := by
  simp only [cryptBlockGuarded, bind_apply, require_of_holds reads, buffer,
    require_of_holds writes, step, Panic.front_of_le reads, onSlice, Nat.zero_le, true_and,
    if_pos writes]
  rfl

/-- An AES cipher with its checks. -/
def guardedCipher (backend : Backend σ) (cipher : AesCipher) : GuardedCipher σ where
  cipher := cipher.blockCipher backend
  attempt := cryptBlockGuarded backend cipher
  attempt_of_full _ _ _ reads writes := cryptBlockGuarded_of_full reads writes

theorem cryptBlockGuarded_documented (backend : Backend σ) (cipher : AesCipher)
    (direction : Direction) (source : Bytes) (frame : Frame σ Unit) :
    Documented (cryptBlockGuarded backend cipher direction source) id
      (stateless (cipher.cryptBlock backend direction source))
      (fun destination _ =>
        source.length < cipher.blockSize ∨ destination.length < cipher.blockSize) frame := by
  by_cases reads : cipher.blockSize ≤ source.length
  · by_cases writes : cipher.blockSize ≤ frame.buffer.length
    · apply Documented.of_answer (by omega) (cryptBlockGuarded_of_full reads writes)
      simp only [stateless, cryptBlock, if_neg (Nat.not_lt_of_le reads),
        if_neg (Nat.not_lt_of_le writes)]
      rfl
    · have short : frame.buffer.length < cipher.blockSize := Nat.lt_of_not_le writes
      apply Documented.of_refusal .destinationHoldsBlock (.inr short)
      · simp only [cryptBlockGuarded, bind_apply, require_of_holds reads, buffer,
          require_of_not writes]
        rfl
      · simp only [stateless, cryptBlock, if_neg (Nat.not_lt_of_le reads), if_pos short]
        rfl
  · have short : source.length < cipher.blockSize := Nat.lt_of_not_le reads
    apply Documented.of_refusal .sourceHoldsBlock (.inl short)
    · simp only [cryptBlockGuarded, bind_apply, require_of_not reads]
      rfl
    · simp only [stateless, cryptBlock, if_pos short]
      rfl

end AesCipher

end CipherModes
