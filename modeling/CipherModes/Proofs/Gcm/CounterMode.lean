import CipherModes.Gcm.Sealed
import CipherModes.Proofs.Bytes.Blocks

/-!
# Counter mode undoes itself

Encryption and decryption are the same addition of keystream, block by block.
-/

set_option autoImplicit false

namespace CipherModes.Gcm

variable {encrypt : BlockFunction} {message : Bytes}

theorem blockSize_pos : 0 < blockSize := by decide

@[simp]
theorem crypt_nil (counter : Bytes) : crypt encrypt counter [] = [] := by
  rw [crypt, Bytes.chunks_nil blockSize_pos]
  rfl

theorem crypt_of_ne_nil (counter : Bytes) (nonempty : message ≠ []) :
    crypt encrypt counter message =
      Bytes.xor (message.take blockSize) (encrypt (increment counter)) ++
        crypt encrypt (increment counter) (message.drop blockSize) := by
  rw [crypt, Bytes.chunks_of_ne_nil blockSize_pos nonempty]
  rfl

/-- A message cut after its first block, or not at all. -/
theorem crypt_append {first rest : Bytes} (counter : Bytes) (nonempty : first ≠ [])
    (cut : first.length = blockSize ∨ first.length ≤ blockSize ∧ rest = []) :
    crypt encrypt counter (first ++ rest) =
      Bytes.xor first (encrypt (increment counter)) ++
        crypt encrypt (increment counter) rest := by
  rw [crypt_of_ne_nil counter (List.append_ne_nil_of_left_ne_nil nonempty rest)]
  rcases cut with whole | ⟨short, rfl⟩
  · rw [← whole, List.take_left, List.drop_left]
  · rw [List.append_nil, List.take_of_length_le short, List.drop_eq_nil_of_le short]

theorem crypt_crypt (size : encrypt.KeepsSize) (counter message : Bytes) :
    crypt encrypt counter (crypt encrypt counter message) = message := by
  induction message using Bytes.block_induction blockSize_pos generalizing counter with
  | nil => rw [crypt_nil, crypt_nil]
  | block message nonempty ih =>
      have short : (message.take blockSize).length ≤ (encrypt (increment counter)).length := by
        rw [size, List.length_take]
        exact Nat.min_le_left _ _
      have kept : (Bytes.xor (message.take blockSize) (encrypt (increment counter))).length =
          min blockSize message.length := by
        rw [Bytes.length_xor, Nat.min_eq_left short, List.length_take]
      have some : 0 < message.length := List.length_pos_iff.mpr nonempty
      have cut : min blockSize message.length = blockSize ∨
          min blockSize message.length ≤ blockSize ∧
            crypt encrypt (increment counter) (message.drop blockSize) = [] := by
        by_cases last : message.length ≤ blockSize
        · rw [List.drop_eq_nil_of_le last, crypt_nil]
          exact .inr ⟨Nat.min_le_left _ _, rfl⟩
        · exact .inl (Nat.min_eq_left (Nat.le_of_not_le last))
      rw [crypt_of_ne_nil counter nonempty, crypt_append counter _ (kept ▸ cut),
        Bytes.xor_xor_cancel short, ih, List.take_append_drop]
      apply List.ne_nil_of_length_pos
      rw [kept]
      exact Nat.lt_min.mpr ⟨blockSize_pos, some⟩

theorem openDetached?_sealDetached (size : encrypt.KeepsSize) (nonce aad : Bytes) :
    openDetached? encrypt nonce aad (sealDetached encrypt nonce aad message).1
      (sealDetached encrypt nonce aad message).2 = some message := by
  rw [openDetached?, sealDetached, if_pos rfl, crypt_crypt size]

end CipherModes.Gcm
