import CipherModes.Proofs.Gcm.Counters
import CipherModes.Proofs.Gcm.OnToken

/-!
# Verification before decryption

Which blocks GCM gives to a cipher that serves it, and in which order. Sealing makes the keystream
first and masks the tag at the end. Opening masks the tag it expects first, and makes no keystream
unless that is the tag of the text. No block is ever decrypted.
-/

set_option autoImplicit false

namespace CipherModes

variable {σ : Type}

/-- From steady states every whole block can be encrypted, to whatever it may be, and the next
state is steady. -/
def BlockCipher.Serves (cipher : BlockCipher σ) (steady : σ → Prop) : Prop :=
  ∀ source destination state, source.length = Gcm.blockSize →
    destination.length = Gcm.blockSize → steady state →
      ∃ output next, cipher.transform .encrypt source destination state = ((.ok (), output), next) ∧
        output.length = Gcm.blockSize ∧ steady next

theorem BlockCipher.Reliable.serves {cipher : BlockCipher σ} {encrypt : Gcm.BlockFunction}
    {steady : σ → Prop} (reliable : cipher.Reliable encrypt steady) : cipher.Serves steady := by
  intro source destination state whole room start
  obtain ⟨next, called, stays⟩ := reliable.encrypts source destination state whole room start
  exact ⟨encrypt source, next, called, reliable.keepsSize source, stays⟩

theorem BlockCipher.NeverFails.serves {cipher : BlockCipher σ} (never : cipher.NeverFails) :
    cipher.Serves fun _ => True := by
  intro source destination state _ room _
  have success := never .encrypt source destination state
  have kept := cipher.keepsLength .encrypt source destination state
  cases called : cipher.transform .encrypt source destination state with
  | mk answer next =>
      obtain ⟨result, output⟩ := answer
      rw [called] at success kept
      cases success
      exact ⟨output, next, rfl, kept.trans room, trivial⟩

theorem RotatingCipher.neverFails {cipher : RotatingCipher} (never : cipher.failsAt = []) :
    cipher.blockCipher.NeverFails := by
  intro direction source destination made
  simp only [blockCipher, transform, never, List.contains_nil]
  rfl

namespace Gcm

variable {cipher : BlockCipher σ} {steady : σ → Prop} {state : σ}
  {calls : List (Direction × Bytes)}

/-! ## Parts of a message -/

theorem addKeystream_of_serves (serves : cipher.Serves steady) {counter keystream : Bytes}
    (counterSize : counter.length = blockSize) (keystreamSize : keystream.length = blockSize)
    (pieces : List Bytes) (start : steady state) :
    ∃ body next, addKeystream cipher counter keystream pieces state = ((.ok (), body), next) ∧
      steady next := by
  induction pieces generalizing counter keystream state with
  | nil => exact ⟨[], state, rfl, start⟩
  | cons piece rest ih =>
      have nextSize := length_increment counterSize
      obtain ⟨output, middle, called, outputSize, stays⟩ :=
        serves (increment counter) keystream state nextSize keystreamSize start
      obtain ⟨body, next, added, ends⟩ := ih nextSize outputSize stays
      refine ⟨Bytes.xor piece output ++ body, next, ?_, ends⟩
      rw [addKeystream_of_ok called, added]

/-- The blocks that the keystream of so many bytes is made from. -/
def keystreamBlocks (counter : Bytes) (length : Nat) : List Bytes :=
  List.iterate increment (increment counter) ((length + 15) / 16)

/-- Calls of a cipher, all of them to encrypt. -/
def encryptions (blocks : List Bytes) : List (Direction × Bytes) := blocks.map (.encrypt, ·)

/-- A message is crypted as without a record, and the record grows by its keystream. -/
theorem cryptMessage_recorded (serves : cipher.Serves steady) {counter : Bytes}
    (counterSize : counter.length = blockSize) (message : Bytes) (start : steady state)
    (calls : List (Direction × Bytes)) :
    ∃ body next, cryptMessage cipher counter message state = ((.ok (), body), next) ∧
      cryptMessage cipher.recorded counter message (state, calls) =
        ((.ok (), body), next, calls ++ encryptions (keystreamBlocks counter message.length)) ∧
      steady next := by
  have pieces : (Bytes.chunks blockSize message).length = (message.length + 15) / 16 :=
    Bytes.length_chunks ..
  obtain ⟨body, next, added, ends⟩ := addKeystream_of_serves serves counterSize
    (Bytes.length_zeros _) (Bytes.chunks blockSize message) start
  obtain ⟨count, -, recorded, all⟩ := addKeystream_recorded cipher counter
    (Bytes.zeros blockSize) (Bytes.chunks blockSize message) state calls
  rw [added] at recorded all
  rw [all rfl, pieces] at recorded
  exact ⟨body, next, added, recorded, ends⟩

/-- What the cipher makes of the counter block is added to the hash, and the record grows by that
block. -/
theorem computeTag_recorded (serves : cipher.Serves steady) {counter : Bytes}
    (counterSize : counter.length = blockSize) (hashKey aad ciphertext : Bytes)
    (start : steady state) (calls : List (Direction × Bytes)) :
    ∃ mask next,
      cipher.transform .encrypt counter (Bytes.zeros blockSize) state = ((.ok (), mask), next) ∧
      computeTag cipher.recorded hashKey counter aad ciphertext (state, calls) =
        (.ok (Bytes.xor mask (hashBlocks hashKey (authenticatedBlocks aad ciphertext))), next,
          calls ++ encryptions [counter]) ∧
      steady next := by
  obtain ⟨mask, next, called, -, stays⟩ :=
    serves counter (Bytes.zeros blockSize) state counterSize (Bytes.length_zeros _) start
  have noted : cipher.recorded.transform .encrypt counter (Bytes.zeros blockSize) (state, calls) =
      ((.ok (), mask), next, calls ++ encryptions [counter]) := by
    simp only [BlockCipher.recorded, called]
    rfl
  exact ⟨mask, next, called, computeTag_of_ok noted, stays⟩

namespace Blockwise

variable {gcm : Blockwise} {nonce : Bytes}

/-! ## Whole messages -/

/-- The calls that sealing makes, in their order. -/
def sealingCalls (cipher : BlockCipher σ) (gcm : Blockwise)
    (destination nonce plaintext aad : Bytes) (state : σ) : List (Direction × Bytes) :=
  (gcm.sealInto cipher.recorded destination nonce plaintext aad (state, [])).2.2

/-- The calls that opening makes, in their order. -/
def openingCalls (cipher : BlockCipher σ) (gcm : Blockwise)
    (destination nonce sealedText aad : Bytes) (state : σ) : List (Direction × Bytes) :=
  (gcm.openInto cipher.recorded destination nonce sealedText aad (state, [])).2.2

/-- The tag that a sealed text has to end in: what the cipher makes of the pre-counter block, added
to the hash of the associated data and of the text before the tag. -/
def expectedTag (cipher : BlockCipher σ) (gcm : Blockwise) (nonce sealedText aad : Bytes)
    (state : σ) : Bytes :=
  let body := sealedText.take (sealedText.length - gcm.tagSize)
  let mask := (cipher.transform .encrypt (preCounter gcm.hashKey nonce) (Bytes.zeros blockSize)
    state).1.2
  (Bytes.xor mask (hashBlocks gcm.hashKey (authenticatedBlocks aad body))).take gcm.tagSize

/-- A sealed text ends in its tag. -/
def TagMatches (cipher : BlockCipher σ) (gcm : Blockwise) (nonce sealedText aad : Bytes)
    (state : σ) : Prop :=
  gcm.expectedTag cipher nonce sealedText aad state =
    sealedText.drop (sealedText.length - gcm.tagSize)

instance (cipher : BlockCipher σ) (gcm : Blockwise) (nonce sealedText aad : Bytes) (state : σ) :
    Decidable (gcm.TagMatches cipher nonce sealedText aad state) :=
  inferInstanceAs (Decidable (_ = _))

section

variable (serves : cipher.Serves steady) (start : steady state)
  (agreed : nonce.length = gcm.nonceSize)
include serves start agreed

theorem sealingCalls_eq {plaintext : Bytes} (fits : plaintext.length ≤ maxPlaintext)
    (destination aad : Bytes) :
    gcm.sealingCalls cipher destination nonce plaintext aad state =
      encryptions (keystreamBlocks (preCounter gcm.hashKey nonce) plaintext.length ++
        [preCounter gcm.hashKey nonce]) := by
  have counterSize := length_preCounter gcm.hashKey nonce
  obtain ⟨body, middle, -, encrypted, stays⟩ :=
    cryptMessage_recorded serves counterSize plaintext start []
  obtain ⟨mask, next, -, tagged, -⟩ :=
    computeTag_recorded serves counterSize gcm.hashKey aad body stays
      ([] ++ encryptions (keystreamBlocks (preCounter gcm.hashKey nonce) plaintext.length))
  rw [sealingCalls, sealInto_of_ok agreed (Nat.not_lt_of_le fits) encrypted tagged]
  exact (List.map_append ..).symm

omit serves start in
theorem openingCalls_of_outOfRange {sealedText : Bytes} (outside : gcm.OutOfRange sealedText)
    (destination aad : Bytes) :
    gcm.openingCalls cipher destination nonce sealedText aad state = [] := by
  rw [openingCalls, openInto_of_outOfRange agreed outside]

theorem openingCalls_of_mismatch {sealedText aad : Bytes} (inside : ¬ gcm.OutOfRange sealedText)
    (mismatch : ¬ gcm.TagMatches cipher nonce sealedText aad state) (destination : Bytes) :
    gcm.openingCalls cipher destination nonce sealedText aad state =
      encryptions [preCounter gcm.hashKey nonce] := by
  obtain ⟨mask, next, masked, tagged, -⟩ :=
    computeTag_recorded serves (length_preCounter gcm.hashKey nonce) gcm.hashKey aad
      (sealedText.take (sealedText.length - gcm.tagSize)) start []
  rw [TagMatches, expectedTag, masked] at mismatch
  rw [openingCalls, openInto_of_mismatch agreed inside tagged mismatch]
  rfl

theorem openingCalls_of_match {sealedText aad : Bytes} (inside : ¬ gcm.OutOfRange sealedText)
    (matching : gcm.TagMatches cipher nonce sealedText aad state) (destination : Bytes) :
    gcm.openingCalls cipher destination nonce sealedText aad state =
      encryptions (preCounter gcm.hashKey nonce ::
        keystreamBlocks (preCounter gcm.hashKey nonce) (sealedText.length - gcm.tagSize)) := by
  have counterSize := length_preCounter gcm.hashKey nonce
  have body : (sealedText.take (sealedText.length - gcm.tagSize)).length =
      sealedText.length - gcm.tagSize := List.length_take_of_le (Nat.sub_le _ _)
  obtain ⟨mask, middle, masked, tagged, stays⟩ :=
    computeTag_recorded serves counterSize gcm.hashKey aad
      (sealedText.take (sealedText.length - gcm.tagSize)) start []
  obtain ⟨plaintext, next, -, decrypted, -⟩ := cryptMessage_recorded serves counterSize
    (sealedText.take (sealedText.length - gcm.tagSize)) stays
    ([] ++ encryptions [preCounter gcm.hashKey nonce])
  rw [body] at decrypted
  rw [TagMatches, expectedTag, masked] at matching
  rw [openingCalls, openInto_of_ok agreed inside tagged matching decrypted]
  rfl

/-- Opening succeeds exactly on a text of proper length that ends in its tag. -/
theorem openInto_isOk_iff (destination sealedText aad : Bytes) :
    (gcm.openInto cipher destination nonce sealedText aad state).1.1 = .ok () ↔
      ¬ gcm.OutOfRange sealedText ∧ gcm.TagMatches cipher nonce sealedText aad state := by
  have counterSize := length_preCounter gcm.hashKey nonce
  by_cases outside : gcm.OutOfRange sealedText
  · rw [openInto_of_outOfRange agreed outside]
    exact ⟨nofun, fun accepted => absurd outside accepted.1⟩
  · obtain ⟨mask, middle, masked, -, stays⟩ :=
      serves (preCounter gcm.hashKey nonce) (Bytes.zeros blockSize) state counterSize
        (Bytes.length_zeros _) start
    by_cases matching : gcm.TagMatches cipher nonce sealedText aad state
    · obtain ⟨plaintext, next, decrypted, -, -⟩ := cryptMessage_recorded serves counterSize
        (sealedText.take (sealedText.length - gcm.tagSize)) stays []
      have same := matching
      rw [TagMatches, expectedTag, masked] at same
      rw [openInto_of_ok agreed outside (computeTag_of_ok masked) same decrypted]
      exact ⟨fun _ => ⟨outside, matching⟩, fun _ => rfl⟩
    · have mismatch := matching
      rw [TagMatches, expectedTag, masked] at mismatch
      rw [openInto_of_mismatch agreed outside (computeTag_of_ok masked) mismatch]
      exact ⟨nofun, fun accepted => absurd accepted.2 matching⟩

/-- What opening computes of the keystream, it computes of a text whose tag matched. -/
theorem tagMatches_of_keystream {destination sealedText aad block : Bytes}
    (keystream : block ∈ keystreamBlocks (preCounter gcm.hashKey nonce)
      (sealedText.length - gcm.tagSize))
    (called : (.encrypt, block) ∈
      gcm.openingCalls cipher destination nonce sealedText aad state) :
    gcm.TagMatches cipher nonce sealedText aad state := by
  by_cases outside : gcm.OutOfRange sealedText
  · rw [openingCalls_of_outOfRange agreed outside] at called
    cases called
  · by_contra mismatch
    rw [openingCalls_of_mismatch serves start agreed outside mismatch] at called
    obtain ⟨first, member, same⟩ := List.mem_map.mp called
    cases same
    -- The pre-counter block is none of the counters after it.
    have inTime : (sealedText.length - gcm.tagSize + 15) / 16 + 1 ≤ 2 ^ 32 := by
      have limit : maxPlaintext = (2 ^ 32 - 2) * 16 := by decide
      have short := Nat.le_of_not_lt (not_or.mp outside).2
      omega
    have distinct := nodup_iterate_increment (length_preCounter gcm.hashKey nonce) inTime
    rw [List.iterate, List.nodup_cons] at distinct
    exact distinct.1 (List.mem_singleton.mp member ▸ keystream)

/-- The calls that a GCM makes under a nonce, and when it makes them. -/
structure VerifiesFirst (cipher : BlockCipher σ) (gcm : Blockwise) (nonce : Bytes) (state : σ) :
    Prop where
  sealing : ∀ destination plaintext aad, plaintext.length ≤ maxPlaintext →
    gcm.sealingCalls cipher destination nonce plaintext aad state =
      encryptions (keystreamBlocks (preCounter gcm.hashKey nonce) plaintext.length ++
        [preCounter gcm.hashKey nonce])
  opens_iff : ∀ destination sealedText aad,
    (gcm.openInto cipher destination nonce sealedText aad state).1.1 = .ok () ↔
      ¬ gcm.OutOfRange sealedText ∧ gcm.TagMatches cipher nonce sealedText aad state
  opening_outOfRange : ∀ destination sealedText aad, gcm.OutOfRange sealedText →
    gcm.openingCalls cipher destination nonce sealedText aad state = []
  opening_mismatch : ∀ destination sealedText aad, ¬ gcm.OutOfRange sealedText →
    ¬ gcm.TagMatches cipher nonce sealedText aad state →
      gcm.openingCalls cipher destination nonce sealedText aad state =
        encryptions [preCounter gcm.hashKey nonce]
  opening_match : ∀ destination sealedText aad, ¬ gcm.OutOfRange sealedText →
    gcm.TagMatches cipher nonce sealedText aad state →
      gcm.openingCalls cipher destination nonce sealedText aad state =
        encryptions (preCounter gcm.hashKey nonce ::
          keystreamBlocks (preCounter gcm.hashKey nonce) (sealedText.length - gcm.tagSize))
  keystream_after_match : ∀ destination sealedText aad, ∀ block ∈ keystreamBlocks
    (preCounter gcm.hashKey nonce) (sealedText.length - gcm.tagSize),
      (.encrypt, block) ∈ gcm.openingCalls cipher destination nonce sealedText aad state →
        gcm.TagMatches cipher nonce sealedText aad state

/-- Whatever the cipher makes of its blocks, and whatever the nonce is, the tag is verified before
the keystream is made. -/
theorem verifies_before_decrypting : gcm.VerifiesFirst cipher nonce state where
  sealing destination _ aad fits := sealingCalls_eq serves start agreed fits destination aad
  opens_iff := openInto_isOk_iff serves start agreed
  opening_outOfRange destination _ aad outside :=
    openingCalls_of_outOfRange agreed outside destination aad
  opening_mismatch destination _ _ inside mismatch :=
    openingCalls_of_mismatch serves start agreed inside mismatch destination
  opening_match destination _ _ inside matching :=
    openingCalls_of_match serves start agreed inside matching destination
  keystream_after_match _ _ _ _ keystream called :=
    tagMatches_of_keystream serves start agreed keystream called

end

/-- A message of two blocks under a nonce of eight bytes, and a text of that length whose tag is not
its own; and a GCM over a cipher of a token. -/
theorem verifies_before_decrypting_two_blocks :
    (∃ gcm : Blockwise,
      (derive (RotatingCipher.blockCipher ⟨16, 7, []⟩) 8 12 0).1 = .ok gcm ∧
      gcm.VerifiesFirst (RotatingCipher.blockCipher ⟨16, 7, []⟩) (Bytes.zeros 8) 1 ∧
      let counter := preCounter gcm.hashKey (Bytes.zeros 8)
      gcm.sealingCalls (RotatingCipher.blockCipher ⟨16, 7, []⟩) [] (Bytes.zeros 8)
          (Bytes.zeros 17) [5] 1 =
        encryptions [increment counter, increment (increment counter), counter] ∧
      gcm.openingCalls (RotatingCipher.blockCipher ⟨16, 7, []⟩) [] (Bytes.zeros 8)
          (Bytes.zeros 29) [5] 1 = encryptions [counter]) ∧
    ∃ cipher next mode,
      AesCipher.create Token.backend 0 (Bytes.zeros 16) (.fresh (.fresh .default)) =
        (.ok cipher, next) ∧
      (derive (cipher.blockCipher Token.backend) 12 13 next.backend).1 = .ok mode ∧
      mode.VerifiesFirst (cipher.blockCipher Token.backend) (Bytes.zeros 12) next.backend := by
  constructor
  · let cipher := RotatingCipher.blockCipher ⟨16, 7, []⟩
    let gcm : Blockwise := ⟨(RotatingCipher.mk 16 7 []).encrypt (Bytes.zeros 16), 8, 12⟩
    have serves : cipher.Serves fun _ => True := (RotatingCipher.neverFails rfl).serves
    have verifies : gcm.VerifiesFirst cipher (Bytes.zeros 8) 1 :=
      verifies_before_decrypting serves trivial rfl
    have mismatch : ¬ gcm.TagMatches cipher (Bytes.zeros 8) (Bytes.zeros 29) [5] 1 := by
      decide +kernel
    exact ⟨gcm, rfl, verifies, verifies.sealing [] (Bytes.zeros 17) [5] (by decide),
      verifies.opening_mismatch [] (Bytes.zeros 29) [5] (by decide) mismatch⟩
  · obtain ⟨cipher, made, size, schedule, keyed⟩ : ∃ cipher,
        (AesCipher.create Token.backend 0 (Bytes.zeros 16) (.fresh (.fresh .default))).1 =
            .ok cipher ∧ cipher.blockSize = blockSize ∧ ∃ schedule,
          (AesCipher.create Token.backend 0 (Bytes.zeros 16)
            (.fresh (.fresh .default))).2.backend.material? cipher.key.raw =
              some (.blocks schedule) := ⟨_, rfl, rfl, _, rfl⟩
    have serves := (cipher.reliable_on_token size schedule).serves
    have sizes : checkSizes cipher.blockSize 12 13 = .ok () :=
      checkSizes_eq_ok_iff.mpr ⟨size, by decide, by decide⟩
    obtain ⟨next, derived, -⟩ :=
      derive_of_reliable (cipher.reliable_on_token size schedule) sizes keyed
    exact ⟨cipher, _, _, Prod.ext made rfl, congrArg Prod.fst derived,
      verifies_before_decrypting serves keyed rfl⟩

end Blockwise

end Gcm

end CipherModes
