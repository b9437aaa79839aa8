import CipherModes.Proofs.Bytes.Numbers
import CipherModes.Proofs.Gcm.CounterMode
import Mathlib.Algebra.Group.Nat.Defs

/-!
# Texts as blocks

The keyed hash reads whole blocks, so every text is filled up with zeros. The
blocks alone do not tell how many of the zeros belong to the text, nor where one
text ends and the next begins: the lengths in the last block do.
-/

set_option autoImplicit false

namespace CipherModes.Gcm

variable {text left right : Bytes}

/-! ## Blocks filled up with zeros -/

@[simp]
theorem paddedBlocks_nil : paddedBlocks [] = [] := by
  rw [paddedBlocks, Bytes.chunks_nil blockSize_pos, List.map_nil]

theorem paddedBlocks_of_ne_nil (nonempty : text ≠ []) :
    paddedBlocks text =
      Bytes.padded blockSize (text.take blockSize) :: paddedBlocks (text.drop blockSize) := by
  rw [paddedBlocks, Bytes.chunks_of_ne_nil blockSize_pos nonempty, List.map_cons, ← paddedBlocks]

theorem length_paddedBlocks (text : Bytes) :
    (paddedBlocks text).length = (text.length + blockSize - 1) / blockSize := by
  rw [paddedBlocks, List.length_map, Bytes.length_chunks]

theorem uniform_paddedBlocks (text : Bytes) : Bytes.Uniform blockSize (paddedBlocks text) := by
  intro block member
  obtain ⟨piece, found, rfl⟩ := List.mem_map.mp member
  have short := Bytes.length_le_of_mem_pieces found
  rw [Bytes.padded, List.length_append, Bytes.length_zeros]
  omega

/-- The zeros after a text, up to the end of its last block. -/
def fill (text : Bytes) : Bytes :=
  Bytes.zeros ((blockSize - text.length % blockSize) % blockSize)

theorem flatten_paddedBlocks (text : Bytes) : (paddedBlocks text).flatten = text ++ fill text := by
  induction text using Bytes.block_induction blockSize_pos with
  | nil => rfl
  | block text nonempty ih =>
      have some : 0 < text.length := List.length_pos_iff.mpr nonempty
      rw [paddedBlocks_of_ne_nil nonempty, List.flatten_cons, ih, Bytes.padded, List.length_take]
      by_cases last : text.length ≤ blockSize
      · have size : (blockSize - text.length % blockSize) % blockSize = blockSize - text.length := by
          unfold blockSize at last ⊢
          omega
        rw [List.take_of_length_le last, List.drop_eq_nil_of_le last, Nat.min_eq_right last,
          show fill [] = [] from rfl, List.append_nil, List.append_nil, fill, size]
      · have rest : (text.length - blockSize) % blockSize = text.length % blockSize :=
          (Nat.mod_eq_sub_mod (Nat.le_of_not_le last)).symm
        rw [Nat.min_eq_left (Nat.le_of_not_le last), Nat.sub_self, fill, List.length_drop, rest,
          ← fill, ← List.append_assoc, show Bytes.zeros 0 = [] from rfl, List.append_nil,
          List.take_append_drop]

/-- Texts of one length are told by their blocks. -/
theorem paddedBlocks_inj (length : left.length = right.length) :
    paddedBlocks left = paddedBlocks right ↔ left = right := by
  constructor
  · intro same
    have joined : left ++ fill left = right ++ fill right := by
      rw [← flatten_paddedBlocks, same, flatten_paddedBlocks]
    exact (List.append_inj joined length).1
  · rintro rfl
    rfl

/-! ## Lengths -/

theorem bitLength_inj {left right : Nat} (leftFits : left < 2 ^ 61) (rightFits : right < 2 ^ 61) :
    bitLength left = bitLength right ↔ left = right := by
  have capacity : Bytes.capacity 8 = 2 ^ 64 := by decide
  rw [bitLength, bitLength, Bytes.bigEndian_eq_iff, capacity]
  omega

theorem length_bitLength (length : Nat) : (bitLength length).length = 8 :=
  Bytes.length_bigEndian 8 _

theorem uniform_authenticatedBlocks (aad ciphertext : Bytes) :
    Bytes.Uniform blockSize (authenticatedBlocks aad ciphertext) := by
  have texts := Bytes.uniform_append.mpr
    ⟨uniform_paddedBlocks aad, uniform_paddedBlocks ciphertext⟩
  apply Bytes.uniform_append.mpr ⟨texts, ?_⟩
  intro block member
  rw [List.mem_singleton.mp member, List.length_append, length_bitLength, length_bitLength]
  rfl

theorem uniform_nonceBlocks (nonce : Bytes) : Bytes.Uniform blockSize (nonceBlocks nonce) := by
  apply Bytes.uniform_append.mpr ⟨uniform_paddedBlocks nonce, ?_⟩
  intro block member
  rw [List.mem_singleton.mp member, List.length_append, length_bitLength, Bytes.length_zeros]
  rfl

/-! ## What the hashed blocks tell -/

theorem authenticatedBlocks_inj {aad ciphertext otherAad otherText : Bytes}
    (aadFits : aad.length < 2 ^ 61) (textFits : ciphertext.length < 2 ^ 61)
    (otherAadFits : otherAad.length < 2 ^ 61) (otherTextFits : otherText.length < 2 ^ 61) :
    authenticatedBlocks aad ciphertext = authenticatedBlocks otherAad otherText ↔
      aad = otherAad ∧ ciphertext = otherText := by
  constructor
  · intro same
    obtain ⟨texts, lengths⟩ := List.append_inj' same rfl
    obtain ⟨aadLength, textLength⟩ := List.append_inj (List.singleton_inj.mp lengths)
      ((length_bitLength _).trans (length_bitLength _).symm)
    rw [bitLength_inj aadFits otherAadFits] at aadLength
    rw [bitLength_inj textFits otherTextFits] at textLength
    -- the lengths tell where the blocks of the first text end
    have counts : (paddedBlocks aad).length = (paddedBlocks otherAad).length := by
      rw [length_paddedBlocks, length_paddedBlocks, aadLength]
    obtain ⟨aads, ciphertexts⟩ := List.append_inj texts counts
    exact ⟨(paddedBlocks_inj aadLength).mp aads, (paddedBlocks_inj textLength).mp ciphertexts⟩
  · rintro ⟨rfl, rfl⟩
    rfl

theorem nonceBlocks_inj {nonce other : Bytes} (fits : nonce.length < 2 ^ 61)
    (otherFits : other.length < 2 ^ 61) :
    nonceBlocks nonce = nonceBlocks other ↔ nonce = other := by
  constructor
  · intro same
    obtain ⟨nonces, lengths⟩ := List.append_inj' same rfl
    have length := (List.append_inj (List.singleton_inj.mp lengths) rfl).2
    rw [bitLength_inj fits otherFits] at length
    exact (paddedBlocks_inj length).mp nonces
  · rintro rfl
    rfl

/-- Wherever zeros or the boundary between the texts may lie, other texts are hashed as other
blocks. -/
theorem hashed_blocks_tell_texts :
    (∀ aad ciphertext otherAad otherText : Bytes,
      aad.length < 2 ^ 61 → ciphertext.length < 2 ^ 61 →
      otherAad.length < 2 ^ 61 → otherText.length < 2 ^ 61 →
        Bytes.Uniform blockSize (authenticatedBlocks aad ciphertext) ∧
        (authenticatedBlocks aad ciphertext = authenticatedBlocks otherAad otherText ↔
          aad = otherAad ∧ ciphertext = otherText)) ∧
    ∀ nonce other : Bytes, nonce.length < 2 ^ 61 → other.length < 2 ^ 61 →
      Bytes.Uniform blockSize (nonceBlocks nonce) ∧
      (nonceBlocks nonce = nonceBlocks other ↔ nonce = other) := by
  constructor
  · intro aad ciphertext otherAad otherText aadFits textFits otherAadFits otherTextFits
    exact ⟨uniform_authenticatedBlocks aad ciphertext,
      authenticatedBlocks_inj aadFits textFits otherAadFits otherTextFits⟩
  · intro nonce other fits otherFits
    exact ⟨uniform_nonceBlocks nonce, nonceBlocks_inj fits otherFits⟩

/-- A zero moved over the boundary, and a zero at the end of a nonce. -/
theorem hashed_blocks_tell_trailing_zero :
    authenticatedBlocks [7, 0] [] ≠ authenticatedBlocks [7] [0] ∧
      nonceBlocks [5, 0] ≠ nonceBlocks [5] := by
  obtain ⟨texts, nonces⟩ := hashed_blocks_tell_texts
  have moved := (texts [7, 0] [] [7] [0] (by decide) (by decide) (by decide) (by decide)).2
  have longer := (nonces [5, 0] [5] (by decide) (by decide)).2
  exact ⟨fun same => absurd (moved.mp same).1 (by decide),
    fun same => absurd (longer.mp same) (by decide)⟩

end CipherModes.Gcm
