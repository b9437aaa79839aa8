import CipherModes.Proofs.Aes.Inverse
import CipherModes.Proofs.Bytes.Blocks
import CipherModes.Proofs.Token.Keys

/-!
# What keys for single blocks make of their input

A whole number of blocks is transformed block by block, and transformed back by
the other direction. Any other input is refused before the key is looked up.
-/

set_option autoImplicit false

namespace CipherModes

def Direction.opposite : Direction → Direction
  | .encrypt => .decrypt
  | .decrypt => .encrypt

namespace Aes.Schedule

/-- What is made of a single block. -/
def transform (schedule : Schedule) : Direction → Bytes → Bytes
  | .encrypt => schedule.encrypt
  | .decrypt => schedule.decrypt

@[simp]
theorem length_transform (schedule : Schedule) (direction : Direction) (block : Bytes) :
    (schedule.transform direction block).length = blockLength := by
  cases direction <;> rfl

theorem transform_transform (schedule : Schedule) (direction : Direction) {block : Bytes}
    (whole : block.length = blockLength) :
    schedule.transform direction.opposite (schedule.transform direction block) = block := by
  cases direction with
  | encrypt => exact schedule.decrypt_encrypt whole
  | decrypt => exact schedule.encrypt_decrypt whole

end Aes.Schedule

namespace Token

variable {token : Token} {key : Handle} {schedule : Aes.Schedule} {direction : Direction}
  {input output : Bytes} {blocks : List Bytes}

theorem cryptBlocks_flatten (uniform : Bytes.Uniform Aes.blockLength blocks) :
    cryptBlocks schedule direction blocks.flatten =
      (blocks.map (schedule.transform direction)).flatten := by
  have count : blocks.flatten.length / Aes.blockLength = blocks.length := by
    rw [uniform.length_flatten]
    exact Nat.mul_div_cancel_left _ (by decide)
  have whole : cryptBlocks schedule direction blocks.flatten =
      (Bytes.pieces Aes.blockLength (blocks.flatten.length / Aes.blockLength)
        blocks.flatten).flatMap (schedule.transform direction) := by
    cases direction <;> rfl
  rw [whole, count, uniform.pieces_flatten, List.flatMap_def]

theorem uniform_transforms (blocks : List Bytes) :
    Bytes.Uniform Aes.blockLength (blocks.map (schedule.transform direction)) := by
  intro transformed member
  obtain ⟨block, -, rfl⟩ := List.mem_map.mp member
  exact schedule.length_transform direction block

theorem cryptBlocks_cryptBlocks (schedule : Aes.Schedule) (direction : Direction)
    (whole : input.length % Aes.blockLength = 0) :
    cryptBlocks schedule direction.opposite (cryptBlocks schedule direction input) = input := by
  obtain ⟨blocks, uniform, rfl⟩ := Bytes.exists_blocks whole
  have undone : ∀ block ∈ blocks,
      (schedule.transform direction.opposite ∘ schedule.transform direction) block = block :=
    fun block member => schedule.transform_transform direction (uniform block member)
  rw [cryptBlocks_flatten uniform, cryptBlocks_flatten (uniform_transforms blocks), List.map_map,
    List.map_congr_left undone, List.map_id']

theorem decryptBlocks_encryptBlocks (schedule : Aes.Schedule)
    (whole : input.length % Aes.blockLength = 0) :
    cryptBlocks schedule .decrypt (cryptBlocks schedule .encrypt input) = input :=
  cryptBlocks_cryptBlocks schedule .encrypt whole

theorem cryptBlocks_append {first rest : Bytes} (firstWhole : first.length % Aes.blockLength = 0)
    (restWhole : rest.length % Aes.blockLength = 0) :
    cryptBlocks schedule direction (first ++ rest) =
      cryptBlocks schedule direction first ++ cryptBlocks schedule direction rest := by
  obtain ⟨front, frontUniform, rfl⟩ := Bytes.exists_blocks firstWhole
  obtain ⟨back, backUniform, rfl⟩ := Bytes.exists_blocks restWhole
  have joined := Bytes.uniform_append.mpr ⟨frontUniform, backUniform⟩
  rw [← List.flatten_append, cryptBlocks_flatten joined, cryptBlocks_flatten frontUniform,
    cryptBlocks_flatten backUniform, List.map_append, List.flatten_append]

theorem crypt_of_whole (made : token.material? key = some (.blocks schedule))
    (fits : input.length < 0x100000000) (whole : input.length % Aes.blockLength = 0)
    (room : input.length ≤ output.length) :
    token.crypt direction key input output =
      ({ result := .ok input.length
         output := Bytes.overlay (cryptBlocks schedule direction input) output
         tagOutput := [] }, token) := by
  obtain ⟨provider, bits, found⟩ := material?_eq_some_iff.mp made
  have accepted : ¬ (¬ lengthFits input ∨ input.length % Aes.blockLength ≠ 0) := by
    simp [lengthFits, fits, whole]
  simp only [crypt, if_neg accepted, if_neg (Nat.not_lt_of_le room), found]

theorem crypt_of_long (long : 0x100000000 ≤ input.length) :
    token.crypt direction key input output = (.fail .invalidBufferSize, token) := by
  have refused : ¬ lengthFits input := by simpa [lengthFits] using long
  rw [crypt, if_pos (.inl refused)]

theorem crypt_of_partial (partialBlock : input.length % Aes.blockLength ≠ 0) :
    token.crypt direction key input output = (.fail .invalidBufferSize, token) := by
  rw [crypt, if_pos (.inr partialBlock)]

end Token

end CipherModes
