import CipherModes.Proofs.Bytes.Alterations
import CipherModes.Proofs.Gcm.Galois
import CipherModes.Proofs.Gcm.Padding
import CipherModes.Proofs.Gcm.ReliableCipher

/-!
# Altered messages

A sealed message that was altered in one block of what is hashed, or in its tag only,
does not open: not just most likely, but whatever the key, unless the hash key is zero.
The difference of one block is carried through the rest of the hash by multiplying,
and the mask of the tag keeps it.
-/

set_option autoImplicit false

namespace CipherModes

variable {σ : Type}

/-- From steady states, a block that is encrypted at all is encrypted by a function, and the next
state is steady however the call ends. -/
structure BlockCipher.Honest (cipher : BlockCipher σ) (encrypt : Gcm.BlockFunction)
    (steady : σ → Prop) : Prop where
  keepsSize : encrypt.KeepsSize
  encrypts : ∀ {source destination output state next}, source.length = Gcm.blockSize →
    destination.length = Gcm.blockSize → steady state →
      cipher.transform .encrypt source destination state = ((.ok (), output), next) →
        output = encrypt source
  stays : ∀ {source destination state}, source.length = Gcm.blockSize →
    destination.length = Gcm.blockSize → steady state →
      steady (cipher.transform .encrypt source destination state).2

/-- Whatever calls are to fail. -/
theorem RotatingCipher.honest {cipher : RotatingCipher}
    (whole : cipher.blockSize = Gcm.blockSize) :
    cipher.blockCipher.Honest cipher.encrypt fun _ => True := by
  constructor
  case keepsSize => exact length_encrypt whole
  case stays => exact fun _ _ _ => trivial
  case encrypts =>
    intro source destination output made next _ destinationSize _ called
    have written := Bytes.take_overlay ((length_encrypt whole source).trans destinationSize.symm)
    simp only [blockCipher, transform] at called
    split at called
    · cases called
    · cases called
      exact written

namespace Gcm

/-! ## Altered blocks -/

section

variable {left right : Bytes}

theorem padded_ne (length : left.length = right.length) (differ : left ≠ right) (size : Nat) :
    Bytes.padded size left ≠ Bytes.padded size right :=
  fun same => differ (List.append_inj same length).1

theorem differOnce_paddedBlocks (differ : DifferOnce left right) :
    DifferOnce (paddedBlocks left) (paddedBlocks right) := by
  induction left using Bytes.block_induction blockSize_pos generalizing right with
  | nil => cases differ
  | block left nonempty ih =>
      have other : right ≠ [] := by
        intro empty
        rw [empty] at differ
        cases differ
      have length : (left.take blockSize).length = (right.take blockSize).length := by
        rw [List.length_take, List.length_take, differ.length_eq]
      rw [paddedBlocks_of_ne_nil nonempty, paddedBlocks_of_ne_nil other]
      obtain ⟨first, same⟩ | ⟨same, rest⟩ := differ.split blockSize
      · rw [same]
        exact .here _ (padded_ne length first.ne blockSize)
      · rw [same]
        exact .later _ (ih rest)

theorem differOnce_of_aad {ciphertext : Bytes} (differ : DifferOnce left right) :
    DifferOnce (authenticatedBlocks left ciphertext) (authenticatedBlocks right ciphertext) := by
  rw [authenticatedBlocks, authenticatedBlocks, differ.length_eq]
  exact ((differOnce_paddedBlocks differ).append_right _).append_right _

theorem differOnce_of_ciphertext {aad : Bytes} (differ : DifferOnce left right) :
    DifferOnce (authenticatedBlocks aad left) (authenticatedBlocks aad right) := by
  rw [authenticatedBlocks, authenticatedBlocks, differ.length_eq]
  exact ((differOnce_paddedBlocks differ).append_left _).append_right _

end

/-! ## The hash tells them -/

section

variable {factor : Element} {blocks left right : List Bytes}

theorem foldl_absorb_injective
    (injective : Function.Injective fun value : Element => value.mul factor)
    (blocks : List Bytes) :
    Function.Injective fun start : Element => blocks.foldl (Element.absorb factor) start := by
  induction blocks with
  | nil => exact Function.injective_id
  | cons block rest ih =>
      intro first second same
      exact (BitVec.xor_left_inj _).mp (injective (ih same))

theorem foldl_absorb_ne (injective : Function.Injective fun value : Element => value.mul factor)
    (differ : DifferOnce left right) (leftUniform : Bytes.Uniform blockSize left)
    (rightUniform : Bytes.Uniform blockSize right) (start : Element) :
    left.foldl (Element.absorb factor) start ≠ right.foldl (Element.absorb factor) start := by
  induction differ generalizing start with
  | here rest apart =>
      intro same
      have sums := injective (foldl_absorb_injective injective rest same)
      have words := (BitVec.xor_right_inj start).mp sums
      apply apart
      rw [← Element.toBytes_ofBytes (leftUniform _ List.mem_cons_self), words,
        Element.toBytes_ofBytes (rightUniform _ List.mem_cons_self)]
  | later block _ ih =>
      exact ih (fun other member => leftUniform other (List.mem_cons_of_mem _ member))
        (fun other member => rightUniform other (List.mem_cons_of_mem _ member)) _

theorem hashBlocks_ne {key : Bytes}
    (injective : Function.Injective fun value : Element => value.mul (Element.ofBytes key))
    (differ : DifferOnce left right) (leftUniform : Bytes.Uniform blockSize left)
    (rightUniform : Bytes.Uniform blockSize right) :
    hashBlocks key left ≠ hashBlocks key right := by
  intro same
  apply foldl_absorb_ne injective differ leftUniform rightUniform 0
  have words := congrArg Element.ofBytes same
  rwa [hashBlocks_eq_foldl, hashBlocks_eq_foldl, Element.ofBytes_toBytes,
    Element.ofBytes_toBytes] at words

end

namespace Scheme

variable {scheme : Scheme} {nonce aad ciphertext otherAad otherText : Bytes}

theorem tag_ne (size : scheme.encrypt.KeepsSize) (whole : scheme.tagSize = 16)
    (injective : Function.Injective fun value : Element =>
      value.mul (Element.ofBytes scheme.hashKey))
    (differ : DifferOnce (authenticatedBlocks aad ciphertext)
      (authenticatedBlocks otherAad otherText)) :
    scheme.tag nonce aad ciphertext ≠ scheme.tag nonce otherAad otherText := by
  have mask := size (preCounter scheme.hashKey nonce)
  have covered : ∀ blocks, (hashBlocks scheme.hashKey blocks).length ≤
      (scheme.encrypt (preCounter scheme.hashKey nonce)).length := by
    intro blocks
    rw [length_hashBlocks, mask]
    exact Nat.le_refl _
  have full : ∀ blocks, (Bytes.xor (scheme.encrypt (preCounter scheme.hashKey nonce))
      (hashBlocks scheme.hashKey blocks)).length ≤ scheme.tagSize := by
    intro blocks
    rw [Bytes.length_xor, length_hashBlocks, whole]
    exact Nat.min_le_right _ _
  rw [tag, tag, List.take_of_length_le (full _), List.take_of_length_le (full _), Ne,
    Bytes.xor_right_inj (covered _) (covered _)]
  exact hashBlocks_ne injective differ (uniform_authenticatedBlocks _ _)
    (uniform_authenticatedBlocks _ _)

end Scheme

/-! ## Honest ciphers -/

section

variable {cipher : BlockCipher σ} {encrypt : BlockFunction} {steady : σ → Prop} {state next : σ}

theorem addKeystream_stays (honest : cipher.Honest encrypt steady) {counter keystream : Bytes}
    (counterSize : counter.length = blockSize) (keystreamSize : keystream.length = blockSize)
    (pieces : List Bytes) (start : steady state) :
    steady (addKeystream cipher counter keystream pieces state).2 := by
  induction pieces generalizing counter keystream state with
  | nil => exact start
  | cons piece rest ih =>
      have nextSize := length_increment counterSize
      have stays := honest.stays nextSize keystreamSize start
      have kept := cipher.keepsLength .encrypt (increment counter) keystream state
      cases called : cipher.transform .encrypt (increment counter) keystream state with
      | mk reply middle =>
          obtain ⟨result, output⟩ := reply
          rw [called] at stays kept
          cases result with
          | error error =>
              rw [addKeystream_of_error called]
              exact stays
          | ok _ =>
              rw [addKeystream_of_ok called]
              exact ih nextSize (kept.trans keystreamSize) stays

theorem computeTag_of_honest (honest : cipher.Honest encrypt steady)
    {hashKey counter aad ciphertext tag : Bytes} (counterSize : counter.length = blockSize)
    (start : steady state)
    (tagged : computeTag cipher hashKey counter aad ciphertext state = (.ok tag, next)) :
    tag = Bytes.xor (encrypt counter)
      (hashBlocks hashKey (authenticatedBlocks aad ciphertext)) := by
  cases called : cipher.transform .encrypt counter (Bytes.zeros blockSize) state with
  | mk reply after =>
      obtain ⟨result, output⟩ := reply
      cases result with
      | error error =>
          rw [computeTag_of_error called] at tagged
          cases tagged
      | ok _ =>
          rw [computeTag_of_ok called] at tagged
          cases tagged
          rw [honest.encrypts counterSize (Bytes.length_zeros _) start called]

namespace Blockwise

variable {gcm : Blockwise} {before after : σ}
  {destination initial nonce aad plaintext body tag : Bytes}

/-- A message that was sealed has the tag of its ciphertext. -/
theorem tag_of_sealing (honest : cipher.Honest encrypt steady) (start : steady before)
    (sized : gcm.tagSize ≤ standardTagSize) (size : tag.length = gcm.tagSize)
    (success : gcm.sealing cipher before initial nonce plaintext aad =
      (.ok (), initial ++ (body ++ tag))) :
    nonce.length = gcm.nonceSize ∧ tag = (gcm.scheme encrypt).tag nonce aad body := by
  cases run : gcm.sealInto cipher initial nonce plaintext aad before with
  | mk outcome next =>
      have ended : outcome = (.ok (), initial ++ (body ++ tag)) := by rwa [sealing, run] at success
      rw [ended] at run
      obtain ⟨agreed, text, middle, computed, encrypted, tagged, output⟩ := sealInto_eq_ok run
      have counterSize := length_preCounter gcm.hashKey nonce
      have stays := addKeystream_stays honest counterSize (Bytes.length_zeros _)
        (Bytes.chunks blockSize plaintext) start
      rw [← cryptMessage, encrypted] at stays
      have whole : tag.length = (computed.take gcm.tagSize).length := by
        rw [List.length_take, length_of_computeTag tagged, size]
        exact (Nat.min_eq_left sized).symm
      rw [List.append_assoc, List.append_cancel_left_eq] at output
      obtain ⟨rfl, rfl⟩ := List.append_inj' output whole
      refine ⟨agreed, ?_⟩
      rw [computeTag_of_honest honest counterSize stays tagged]
      rfl

/-- A sealed text is not opened, and nothing is appended. -/
def Rejects (cipher : BlockCipher σ) (gcm : Blockwise) (state : σ) (nonce aad sealedText : Bytes) :
    Prop :=
  ∀ destination, gcm.opening cipher state destination nonce sealedText aad =
    (.error (.error .authentication), destination)

/-- A text with another tag than that of its ciphertext is rejected. -/
theorem rejects_of_tag_ne (honest : cipher.Honest encrypt steady) (later : steady after)
    (agreed : nonce.length = gcm.nonceSize) (size : tag.length = gcm.tagSize)
    (mismatch : tag ≠ (gcm.scheme encrypt).tag nonce aad body) :
    gcm.Rejects cipher after nonce aad (body ++ tag) := by
  intro destination
  have front : (body ++ tag).length - gcm.tagSize = body.length := by
    rw [List.length_append, size, Nat.add_sub_cancel]
  by_cases outside : gcm.OutOfRange (body ++ tag)
  · rw [opening, openInto_of_outOfRange agreed outside]
  · cases tagged : computeTag cipher gcm.hashKey (preCounter gcm.hashKey nonce) aad
        ((body ++ tag).take ((body ++ tag).length - gcm.tagSize)) after with
    | mk result next =>
        cases result with
        | error error => rw [opening, openInto_of_tag_error agreed outside tagged]
        | ok expected =>
            have computed := computeTag_of_honest honest (length_preCounter gcm.hashKey nonce) later
              tagged
            rw [front, List.take_left] at computed
            have different : expected.take gcm.tagSize ≠
                (body ++ tag).drop ((body ++ tag).length - gcm.tagSize) := by
              rw [front, List.drop_left, computed]
              exact mismatch.symm
            rw [opening, openInto_of_mismatch agreed outside tagged different]

end Blockwise

end

/-! ## Altered messages -/

namespace Blockwise

section

variable {cipher : BlockCipher σ} {encrypt : BlockFunction} {steady : σ → Prop} {gcm : Blockwise}
  {after : σ} {nonce aad body tag : Bytes} (honest : cipher.Honest encrypt steady)
  (later : steady after) (agreed : nonce.length = gcm.nonceSize) (whole : gcm.tagSize = 16)
  (injective : Function.Injective fun value : Element => value.mul (Element.ofBytes gcm.hashKey))
  (size : tag.length = gcm.tagSize) (genuine : tag = (gcm.scheme encrypt).tag nonce aad body)

include honest later agreed whole injective size genuine

theorem rejects_of_block {otherAad otherBody : Bytes}
    (differ : DifferOnce (authenticatedBlocks otherAad otherBody) (authenticatedBlocks aad body)) :
    gcm.Rejects cipher after nonce otherAad (otherBody ++ tag) := by
  have apart : (gcm.scheme encrypt).tag nonce otherAad otherBody ≠
      (gcm.scheme encrypt).tag nonce aad body :=
    Scheme.tag_ne honest.keepsSize whole injective differ
  apply rejects_of_tag_ne honest later agreed size
  rw [genuine]
  exact apart.symm

/-- One byte of the sealed text is another. -/
theorem rejects_of_byte {altered : Bytes} (differ : DifferOnce altered (body ++ tag)) :
    gcm.Rejects cipher after nonce aad altered := by
  have parts := List.take_append_drop body.length altered
  have cut := differ.split body.length
  rw [List.take_left, List.drop_left] at cut
  obtain ⟨inBody, sameTag⟩ | ⟨sameBody, inTag⟩ := cut
  · rw [← parts, sameTag]
    exact rejects_of_block honest later agreed whole injective size genuine
      (differOnce_of_ciphertext inBody)
  · rw [← parts, sameBody]
    apply rejects_of_tag_ne honest later agreed (inTag.length_eq.trans size)
    rw [← genuine]
    exact inTag.ne

end

end Blockwise

/-- Multiplying by any key but zero is injective, and under such a hash key everything is rejected
that differs from a sealed message in its tag only, in one block of what is hashed only, or in
one bit. -/
theorem altered_message_is_rejected :
    (∀ key : Element, (Function.Injective fun value : Element => value.mul key) ↔ key ≠ 0) ∧
    ∀ {σ : Type} (cipher : BlockCipher σ) (encrypt : BlockFunction) (steady : σ → Prop)
      (gcm : Blockwise) (before after : σ) (initial nonce plaintext aad body tag : Bytes),
      cipher.Honest encrypt steady → gcm.tagSize = 16 →
      (Function.Injective fun value : Element => value.mul (Element.ofBytes gcm.hashKey)) →
      steady before → steady after → tag.length = 16 →
      gcm.sealing cipher before initial nonce plaintext aad = (.ok (), initial ++ (body ++ tag)) →
        (∀ otherTag, otherTag.length = 16 → otherTag ≠ tag →
          gcm.Rejects cipher after nonce aad (body ++ otherTag)) ∧
        (∀ otherAad otherBody,
          (authenticatedBlocks otherAad otherBody).length = (authenticatedBlocks aad body).length →
          (∃! place : Nat, (authenticatedBlocks otherAad otherBody)[place]? ≠
            (authenticatedBlocks aad body)[place]?) →
              gcm.Rejects cipher after nonce otherAad (otherBody ++ tag)) ∧
        (∀ place < 8 * (body ++ tag).length,
          gcm.Rejects cipher after nonce aad (Bytes.flipBit place (body ++ tag))) ∧
        ∀ place < 8 * aad.length,
          gcm.Rejects cipher after nonce (Bytes.flipBit place aad) (body ++ tag) := by
  constructor
  · exact fun key => Element.mul_injective_iff
  · intro σ cipher encrypt steady gcm before after initial nonce plaintext aad body tag honest whole
      injective start later sixteen success
    have size : tag.length = gcm.tagSize := sixteen.trans whole.symm
    obtain ⟨agreed, genuine⟩ :=
      Blockwise.tag_of_sealing honest start (Nat.le_of_eq whole) size success
    refine ⟨?tags, ?blocks, ?bits, ?aadBits⟩
    case tags =>
      intro otherTag otherSixteen different
      apply Blockwise.rejects_of_tag_ne honest later agreed (otherSixteen.trans whole.symm)
      rwa [← genuine]
    case blocks =>
      intro otherAad otherBody length once
      exact Blockwise.rejects_of_block honest later agreed whole injective size genuine
        (.of_place length once)
    case bits =>
      intro place inside
      exact Blockwise.rejects_of_byte honest later agreed whole injective size genuine
        (Bytes.differOnce_flipBit inside).symm
    case aadBits =>
      intro place inside
      exact Blockwise.rejects_of_block honest later agreed whole injective size genuine
        (differOnce_of_aad (Bytes.differOnce_flipBit inside).symm)

/-- Another tag, a zero after the associated data, which only their length tells, and flips of a
bit of the last byte of the ciphertext and of the associated data. -/
theorem altered_message_is_rejected_past_trailing_zero :
    ∃ (gcm : Blockwise) (body tag : Bytes),
      gcm.sealing (RotatingCipher.blockCipher ⟨16, 7, [1]⟩) 1 [1] (Bytes.zeros 12)
        (List.replicate 17 3) [4, 5] = (.ok (), [1] ++ (body ++ tag)) ∧
      gcm.Rejects (RotatingCipher.blockCipher ⟨16, 7, [1]⟩) 4 (Bytes.zeros 12) [4, 5]
        (body ++ Bytes.zeros 16) ∧
      gcm.Rejects (RotatingCipher.blockCipher ⟨16, 7, [1]⟩) 4 (Bytes.zeros 12) [4, 5, 0]
        (body ++ tag) ∧
      gcm.Rejects (RotatingCipher.blockCipher ⟨16, 7, [1]⟩) 4 (Bytes.zeros 12) [4, 5]
        (Bytes.flipBit 130 (body ++ tag)) ∧
      gcm.Rejects (RotatingCipher.blockCipher ⟨16, 7, [1]⟩) 4 (Bytes.zeros 12)
        (Bytes.flipBit 15 [4, 5]) (body ++ tag) := by
  obtain ⟨injective, rejects⟩ := altered_message_is_rejected
  have honest : (RotatingCipher.blockCipher ⟨16, 7, [1]⟩).Honest
      (RotatingCipher.encrypt ⟨16, 7, [1]⟩) fun _ => True := RotatingCipher.honest rfl
  let gcm : Blockwise := ⟨RotatingCipher.encrypt ⟨16, 7, [1]⟩ (Bytes.zeros 16), 12, 16⟩
  let body : Bytes := [4, 11, 10, 9, 8, 15, 14, 13, 12, 19, 18, 17, 16, 23, 20, 21, 4]
  let tag : Bytes := [150, 163, 131, 238, 19, 54, 5, 53, 73, 74, 149, 120, 121, 17, 248, 237]
  have success : gcm.sealing (RotatingCipher.blockCipher ⟨16, 7, [1]⟩) 1 [1] (Bytes.zeros 12)
      (List.replicate 17 3) [4, 5] = (.ok (), [1] ++ (body ++ tag)) :=
    Prod.ext rfl (by decide +kernel)
  have lengths : (authenticatedBlocks [4, 5, 0] body).length = 4 ∧
      (authenticatedBlocks [4, 5] body).length = 4 := by decide +kernel
  have once : ∃! place : Nat, (authenticatedBlocks [4, 5, 0] body)[place]? ≠
      (authenticatedBlocks [4, 5] body)[place]? := by
    refine ⟨3, by decide +kernel, ?_⟩
    intro place different
    match place with
    | 0 | 1 | 2 => exact absurd (by decide +kernel) different
    | 3 => rfl
    | place + 4 =>
        rw [List.getElem?_eq_none (lengths.1 ▸ Nat.le_add_left 4 place),
          List.getElem?_eq_none (lengths.2 ▸ Nat.le_add_left 4 place)] at different
        exact absurd rfl different
  obtain ⟨tags, blocks, bits, aadBits⟩ := rejects (RotatingCipher.blockCipher ⟨16, 7, [1]⟩)
    (RotatingCipher.encrypt ⟨16, 7, [1]⟩) (fun _ => True) gcm 1 4 [1] (Bytes.zeros 12)
    (List.replicate 17 3) [4, 5] body tag honest rfl
    ((injective (Element.ofBytes gcm.hashKey)).mpr (by decide +kernel)) trivial trivial rfl success
  exact ⟨gcm, body, tag, success, tags (Bytes.zeros 16) rfl (by decide),
    blocks [4, 5, 0] body (lengths.1.trans lengths.2.symm) once, bits 130 (by decide),
    aadBits 15 (by decide)⟩

end Gcm

end CipherModes
