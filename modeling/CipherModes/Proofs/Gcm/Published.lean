import CipherModes.Proofs.Gcm.Counters
import CipherModes.Proofs.Gcm.Galois
import CipherModes.Proofs.Gcm.Padding
import CipherModes.Proofs.Gcm.ReliableCipher
import Mathlib.Data.List.GetD

/-!
# GCM as it is published

The mode in the terms of NIST SP 800-38D: the keyed hash is a polynomial in the key
over the field with 2 ^ 128 elements, the keystream is told byte by byte, and texts are
filled up to whole blocks at once. Sealing over a block cipher appends just that.
-/

set_option autoImplicit false

namespace CipherModes.Gcm

/-! ## The published mode -/

namespace Published

/-- The bits of a block, beginning with the highest of its first byte. -/
def bit (block : Bytes) (place : Nat) : Bool :=
  (block.getD (place / 8) 0).toNat.testBit (7 - place % 8)

/-- The element whose coefficients are the bits of a block. -/
noncomputable def value (block : Bytes) : Galois :=
  ∑ place ∈ Finset.range 128, if bit block place then root ^ place else 0

/-- The block that has a value. -/
noncomputable def blockOf (element : Galois) : Bytes :=
  Function.invFunOn value {block | block.length = 16} element

/-- All blocks of a text, each times a power of the key: the last block times the key itself,
each one before it times the next power. -/
noncomputable def hash (key text : Bytes) : Bytes :=
  let count := text.length / 16
  blockOf (∑ place ∈ Finset.range count,
    value ((text.drop (16 * place)).take 16) * value key ^ (count - place))

noncomputable def preCounter (hashKey nonce : Bytes) : Bytes :=
  if nonce.length = 12 then nonce ++ [0, 0, 0, 1]
  else hash hashKey (nonce ++ fill nonce ++ Bytes.bigEndian 16 (8 * nonce.length))

/-- The last four bytes count and wrap. -/
def counter (start : Bytes) (count : Nat) : Bytes :=
  start.take 12 ++ Bytes.bigEndian 4 ((Bytes.ofBigEndian (start.drop 12) + count) % 2 ^ 32)

def crypt (encrypt : BlockFunction) (start message : Bytes) : Bytes :=
  message.mapIdx fun place byte =>
    byte ^^^ (encrypt (counter start (place / 16 + 1))).getD (place % 16) 0

noncomputable def tag (encrypt : BlockFunction) (hashKey start aad ciphertext : Bytes) : Bytes :=
  Bytes.xor (encrypt start) (hash hashKey (aad ++ fill aad ++ (ciphertext ++ fill ciphertext) ++
    (Bytes.bigEndian 8 (8 * aad.length) ++ Bytes.bigEndian 8 (8 * ciphertext.length))))

noncomputable def sealedText (encrypt : BlockFunction) (tagSize : Nat)
    (nonce plaintext aad : Bytes) : Bytes :=
  let hashKey := encrypt (Bytes.zeros 16)
  let start := preCounter hashKey nonce
  let ciphertext := crypt encrypt start plaintext
  ciphertext ++ (tag encrypt hashKey start aad ciphertext).take tagSize

end Published

/-! ## Blocks and elements -/

section

variable {block : Bytes}

theorem getMsbD_ofBytes (whole : block.length = blockSize) {place : Nat} (inside : place < 128) :
    (Element.ofBytes block).getMsbD place = Published.bit block place := by
  have turned : (127 - place) / 8 = 15 - place / 8 ∧ (127 - place) % 8 = 7 - place % 8 := by omega
  have byte : 15 - place / 8 < block.length := by
    rw [whole, blockSize]
    omega
  have back : block.length - 1 - (15 - place / 8) = place / 8 := by
    rw [whole, blockSize]
    omega
  rw [BitVec.getMsbD_eq_getLsbD, decide_eq_true inside, Bool.true_and, Element.ofBytes,
    BitVec.getLsbD_ofNat, decide_eq_true (by omega), Bool.true_and, Bytes.ofBigEndian,
    Bytes.testBit_ofLittleEndian, turned.1, turned.2, List.getD_reverse _ byte, back,
    Published.bit]

theorem value_eq_galois (whole : block.length = blockSize) :
    Published.value block = (Element.ofBytes block).galois :=
  (ofBits_inj.mpr fun _ inside => getMsbD_ofBytes whole inside).symm

theorem exists_block (element : Galois) :
    ∃ block ∈ {block : Bytes | block.length = 16}, Published.value block = element := by
  obtain ⟨word, rfl⟩ := Element.galois_bijective.surjective element
  refine ⟨word.toBytes, word.length_toBytes, ?_⟩
  rw [value_eq_galois word.length_toBytes, Element.ofBytes_toBytes]

theorem length_blockOf (element : Galois) : (Published.blockOf element).length = blockSize :=
  Function.invFunOn_mem (exists_block element)

theorem value_blockOf (element : Galois) :
    Published.value (Published.blockOf element) = element :=
  Function.invFunOn_eq (exists_block element)

theorem blockOf_galois (element : Element) :
    Published.blockOf element.galois = element.toBytes := by
  have whole := length_blockOf element.galois
  have valued := value_blockOf element.galois
  rw [value_eq_galois whole] at valued
  rw [← Element.toBytes_ofBytes whole, Element.galois_injective valued]

theorem hashBlocks_eq_hash {key : Bytes} {blocks : List Bytes} (keySize : key.length = blockSize)
    (uniform : Bytes.Uniform blockSize blocks) :
    hashBlocks key blocks = Published.hash key blocks.flatten := by
  have count : blocks.flatten.length / 16 = blocks.length := by
    rw [uniform.length_flatten, blockSize, Nat.mul_div_cancel_left _ (by decide)]
  have terms : ∀ place ∈ Finset.range blocks.length,
      (Element.ofBytes (blocks.getD place [])).galois *
          (Element.ofBytes key).galois ^ (blocks.length - place) =
        Published.value ((blocks.flatten.drop (16 * place)).take 16) *
          Published.value key ^ (blocks.length - place) := by
    intro place member
    have inside := Finset.mem_range.mp member
    have size : (blocks.getD place []).length = blockSize := by
      rw [List.getD_eq_getElem _ _ inside]
      exact uniform _ (List.getElem_mem inside)
    have cut : (blocks.flatten.drop (16 * place)).take 16 = blocks.getD place [] :=
      uniform.take_drop_flatten inside
    rw [cut, value_eq_galois keySize, value_eq_galois size]
  rw [hashBlocks_eq_foldl, ← blockOf_galois, Element.galois_foldl_absorb, Element.galois_zero,
    zero_mul, zero_add, Finset.sum_congr rfl terms, Published.hash, count]

end

/-! ## Counters and texts -/

section

variable {encrypt : BlockFunction} {block nonce : Bytes}

theorem counter_eq_iterate (whole : block.length = blockSize) (count : Nat) :
    Published.counter block count = increment^[count] block := by
  have wrapped : Bytes.bigEndian 4 ((Bytes.ofBigEndian (block.drop 12) + count) % 2 ^ 32) =
      Bytes.bigEndian 4 (Bytes.ofBigEndian (block.drop 12) + count) :=
    Bytes.bigEndian_eq_iff.mpr (Nat.mod_mod_of_dvd _ (by decide))
  rw [Published.counter, wrapped, iterate_increment whole]

theorem bigEndian_bitLength {length : Nat} (fits : 8 * length < 2 ^ 64) :
    Bytes.bigEndian 16 (8 * length) = Bytes.zeros 8 ++ bitLength length := by
  have size : (Bytes.zeros 8 ++ bitLength length).length = 16 := by
    rw [List.length_append, Bytes.length_zeros, length_bitLength]
  have capacity : Bytes.capacity 8 = 2 ^ 64 := by decide
  have number : Bytes.ofBigEndian (Bytes.zeros 8 ++ bitLength length) = 8 * length := by
    rw [Bytes.ofBigEndian_zeros_append, bitLength, Bytes.ofBigEndian_bigEndian, capacity,
      Nat.mod_eq_of_lt fits]
  have kept := Bytes.bigEndian_ofBigEndian (Bytes.zeros 8 ++ bitLength length)
  rwa [size, number] at kept

theorem preCounter_eq_published {hashKey : Bytes} (keySize : hashKey.length = blockSize)
    (fits : 8 * nonce.length < 2 ^ 64) :
    preCounter hashKey nonce = Published.preCounter hashKey nonce := by
  have text : nonce ++ fill nonce ++ Bytes.bigEndian 16 (8 * nonce.length) =
      (nonceBlocks nonce).flatten := by
    rw [nonceBlocks, List.flatten_append, flatten_paddedBlocks, bigEndian_bitLength fits,
      List.flatten_singleton]
  rw [preCounter, Published.preCounter, text,
    ← hashBlocks_eq_hash keySize (uniform_nonceBlocks nonce)]
  rfl

theorem flatten_authenticatedBlocks (aad ciphertext : Bytes) :
    (authenticatedBlocks aad ciphertext).flatten =
      aad ++ fill aad ++ (ciphertext ++ fill ciphertext) ++
        (bitLength aad.length ++ bitLength ciphertext.length) := by
  rw [authenticatedBlocks, List.flatten_append, List.flatten_append, flatten_paddedBlocks,
    flatten_paddedBlocks, List.flatten_singleton]

/-- The first bytes of a message take the keystream of one block. -/
theorem xor_eq_mapIdx {piece key : Bytes} (covered : piece.length ≤ key.length) :
    Bytes.xor piece key = piece.mapIdx fun place byte => byte ^^^ key.getD place 0 := by
  apply List.ext_getElem
  · rw [Bytes.length_xor, Nat.min_eq_left covered, List.length_mapIdx]
  · intro place inside _
    rw [Bytes.length_xor, Nat.min_eq_left covered] at inside
    have keyed : place < key.length := Nat.lt_of_lt_of_le inside covered
    simp only [Bytes.xor, List.getElem_zipWith, List.getElem_mapIdx, List.getD_eq_getElem _ _ keyed]

theorem crypt_eq_mapIdx (size : encrypt.KeepsSize) (start message : Bytes) :
    crypt encrypt start message = message.mapIdx fun place byte =>
      byte ^^^ (encrypt (increment^[place / 16 + 1] start)).getD (place % 16) 0 := by
  induction message using Bytes.block_induction blockSize_pos generalizing start with
  | nil => exact crypt_nil start
  | block message nonempty ih =>
      have short : (message.take blockSize).length ≤ (encrypt (increment start)).length := by
        rw [size, List.length_take]
        exact Nat.min_le_left _ _
      have first : (message.take blockSize).mapIdx (fun place byte =>
            byte ^^^ (encrypt (increment^[place / 16 + 1] start)).getD (place % 16) 0) =
          Bytes.xor (message.take blockSize) (encrypt (increment start)) := by
        rw [xor_eq_mapIdx short, List.mapIdx_eq_mapIdx_iff]
        intro place inside
        have below : place < 16 := Nat.lt_of_lt_of_le inside (short.trans_eq (size _))
        rw [Nat.div_eq_of_lt below, Nat.mod_eq_of_lt below]
        rfl
      have later : (message.drop blockSize).mapIdx (fun place byte =>
            byte ^^^ (encrypt (increment^[(place + (message.take blockSize).length) / 16 + 1]
              start)).getD ((place + (message.take blockSize).length) % 16) 0) =
          crypt encrypt (increment start) (message.drop blockSize) := by
        rw [ih, List.mapIdx_eq_mapIdx_iff]
        intro place inside
        rw [List.length_drop] at inside
        have whole : (message.take blockSize).length = 16 :=
          List.length_take_of_le (by omega)
        rw [whole, Nat.add_div_right _ (by decide), Nat.add_mod_right, Function.iterate_succ_apply]
      rw [crypt_of_ne_nil start nonempty, ← first, ← later, ← List.mapIdx_append,
        List.take_append_drop]

theorem crypt_eq_published (size : encrypt.KeepsSize) (whole : block.length = blockSize)
    (message : Bytes) : crypt encrypt block message = Published.crypt encrypt block message := by
  rw [crypt_eq_mapIdx size, Published.crypt]
  simp only [counter_eq_iterate whole]

/-- What the scheme of a cipher seals is what the publication seals. -/
theorem sealedText_eq_published (size : encrypt.KeepsSize) (tagSize : Nat)
    (fits : 8 * nonce.length < 2 ^ 64) (plaintext aad : Bytes) :
    (Scheme.ofKey encrypt tagSize).sealedText nonce aad plaintext =
      Published.sealedText encrypt tagSize nonce plaintext aad := by
  have keySize : (encrypt (Bytes.zeros blockSize)).length = blockSize := size _
  have body : (Scheme.ofKey encrypt tagSize).body nonce plaintext = Published.crypt encrypt
      (Published.preCounter (encrypt (Bytes.zeros 16)) nonce) plaintext := by
    rw [Scheme.body, Scheme.ofKey, crypt_eq_published size (length_preCounter _ _),
      preCounter_eq_published keySize fits, blockSize]
  rw [Scheme.sealedText, body, Scheme.tag, Scheme.ofKey,
    hashBlocks_eq_hash keySize (uniform_authenticatedBlocks _ _), flatten_authenticatedBlocks,
    preCounter_eq_published keySize fits]
  rfl

end

/-! ## Sealing -/

/-- Over a cipher that encrypts blocks by a function, a GCM of any sizes can be made, and from then
on it appends what the publication has for that function. -/
theorem seals_as_published {σ : Type} {cipher : BlockCipher σ} {encrypt : BlockFunction}
    {steady : σ → Prop} (reliable : cipher.Reliable encrypt steady)
    (whole : cipher.blockSize = 16) {nonceSize tagSize : Nat} (nonces : 1 ≤ nonceSize)
    (tags : 12 ≤ tagSize ∧ tagSize ≤ 16) (start : σ) (ready : steady start) :
    ∃ gcm next, Blockwise.derive cipher nonceSize tagSize start = (.ok gcm, next) ∧ steady next ∧
      ∀ state destination nonce plaintext aad, steady state → nonce.length = nonceSize →
        8 * nonce.length < 2 ^ 64 → 8 * plaintext.length ≤ 2 ^ 39 - 256 →
          ∃ after, gcm.sealInto cipher destination nonce plaintext aad state =
            ((.ok (), destination ++ Published.sealedText encrypt tagSize nonce plaintext aad),
              after) ∧ steady after := by
  obtain ⟨next, derived, stays⟩ := Blockwise.derive_of_reliable reliable
    (Blockwise.checkSizes_eq_ok_iff.mpr ⟨whole, tags, nonces⟩) ready
  refine ⟨_, next, derived, stays, ?_⟩
  intro state destination nonce plaintext aad steadily agreed nonceFits fits
  have limit : maxPlaintext = (2 ^ 32 - 2) * 16 := by decide
  rw [← sealedText_eq_published reliable.keepsSize tagSize nonceFits]
  exact Blockwise.sealInto_of_reliable reliable agreed (by omega) destination aad steadily

/-- A hashed nonce, a short tag, and a message that ends within its second block. -/
theorem seals_as_published_under_short_nonce :
    ∃ gcm next, Blockwise.derive (RotatingCipher.blockCipher ⟨16, 7, []⟩) 8 12 0 = (.ok gcm, next) ∧
      ∃ after, gcm.sealInto (RotatingCipher.blockCipher ⟨16, 7, []⟩) [1, 2] (Bytes.zeros 8)
          (List.replicate 17 3) [4, 5] next =
        ((.ok (), [1, 2] ++ Published.sealedText (RotatingCipher.encrypt ⟨16, 7, []⟩) 12
          (Bytes.zeros 8) (List.replicate 17 3) [4, 5]), after) := by
  have reliable : (RotatingCipher.blockCipher ⟨16, 7, []⟩).Reliable
      (RotatingCipher.encrypt ⟨16, 7, []⟩) fun _ => True := RotatingCipher.reliable rfl rfl
  obtain ⟨gcm, next, derived, steadily, seals⟩ := seals_as_published reliable rfl
    (show 1 ≤ 8 by decide) (show 12 ≤ 12 ∧ 12 ≤ 16 by decide) 0 trivial
  obtain ⟨after, sealedInto, -⟩ := seals next [1, 2] (Bytes.zeros 8) (List.replicate 17 3) [4, 5]
    steadily rfl (by decide) (by decide)
  exact ⟨gcm, next, derived, after, sealedInto⟩

end CipherModes.Gcm
