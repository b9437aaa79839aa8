import CipherModes.Proofs.Gcm.Blockwise
import CipherModes.Proofs.Gcm.Creation
import CipherModes.Proofs.Panics.Blocks

/-!
# Panics of GCM over a block cipher

All buffers of its own have sixteen bytes, so have the hash key and every
counter block, and a tag is never longer. So the two checks that sealing makes
first, on nonce and plaintext, and the one that opening makes are all that can
go wrong.
-/

set_option autoImplicit false

namespace CipherModes.Gcm

open Guarded

variable {τ κ : Type}

/-! ## Sealing and opening with their checks -/

def incrementGuarded (block : Bytes) : Except Panic Bytes := do
  let low ← Panic.copied (Bytes.zeros 4) (← Panic.back block 12)
  Panic.overwriteBack block 12 (Bytes.bigEndian 4 (Bytes.ofBigEndian low + 1))

def preCounterGuarded (hashKey nonce : Bytes) : Except Panic Bytes := do
  let counter := Bytes.zeros blockSize
  if nonce.length = standardNonceSize then
    let counter ← Panic.overwriteFront counter standardNonceSize nonce
    Panic.setByte counter (blockSize - 1) 1
  else
    let lengths ← Panic.overwriteBack (Bytes.zeros blockSize) 8 (bitLength nonce.length)
    let key ← Panic.exactly blockSize hashKey
    Panic.copied counter (hashBlocks key (paddedBlocks nonce ++ [lengths]))

/-- The pieces tell no more than where the slices end. -/
def addKeystreamGuarded (cipher : GuardedCipher τ) :
    (counter keystream : Bytes) → (pieces : List Bytes) → (offset : Nat) →
      Guarded (Frame τ κ) (Except CipherError Unit)
  | _, _, [], _ => return .ok ()
  | counter, keystream, piece :: rest, offset => do
      let counter ← step (incrementGuarded counter)
      let (result, keystream) ← onOwn keystream (cipher.attempt .encrypt counter)
      match result with
      | .error error => return .error error
      | .ok () =>
          onSlice offset (offset + piece.length) (update (Bytes.xorInto · keystream))
          addKeystreamGuarded cipher counter keystream rest (offset + piece.length)

def cryptMessageGuarded (cipher : GuardedCipher τ) (counter : Bytes) :
    Guarded (Frame τ κ) (Except CipherError Unit) := do
  addKeystreamGuarded cipher counter (Bytes.zeros blockSize)
    (Bytes.chunks blockSize (← buffer)) 0

def computeTagGuarded (cipher : GuardedCipher τ) (hashKey counter aad ciphertext : Bytes) :
    Guarded (Frame τ κ) (Except CipherError Bytes) := do
  let lengths ← step (Panic.overwriteFront (Bytes.zeros blockSize) 8 (bitLength aad.length))
  let lengths ← step (Panic.overwriteBack lengths 8 (bitLength ciphertext.length))
  let key ← step (Panic.exactly blockSize hashKey)
  let hash := hashBlocks key (paddedBlocks aad ++ paddedBlocks ciphertext ++ [lengths])
  let (result, mask) ← onOwn (Bytes.zeros blockSize) (cipher.attempt .encrypt counter)
  match result with
  | .error error => return .error error
  | .ok () => return .ok (Bytes.xorInto mask hash)

namespace Blockwise

def sealIntoGuarded (cipher : GuardedCipher τ) (gcm : Blockwise) (nonce plaintext aad : Bytes) :
    Guarded (Frame τ κ) (Except CipherError Unit) := do
  require .nonceLength (nonce.length = gcm.nonceSize)
  require .messageFits (plaintext.length ≤ maxPlaintext)
  let counter ← step (preCounterGuarded gcm.hashKey nonce)
  let start := (← buffer).length
  update (· ++ plaintext)
  match ← onTail start (cryptMessageGuarded cipher counter) with
  | .error error =>
      cutBack start
      return .error error
  | .ok () =>
      let body ← step (Panic.back (← buffer) start)
      match ← computeTagGuarded cipher gcm.hashKey counter aad body with
      | .error error =>
          cutBack start
          return .error error
      | .ok tag =>
          let tag ← step (Panic.front tag gcm.tagSize)
          update (· ++ tag)
          return .ok ()

/-- Opening from the tag on that the message should have. -/
def releaseGuarded (cipher : GuardedCipher τ) (gcm : Blockwise)
    (counter body tag expected : Bytes) : Guarded (Frame τ κ) (Except CipherError Unit) := do
  let expected ← step (Panic.front expected gcm.tagSize)
  if expected ≠ tag then return .error .authentication
  else
    let start := (← buffer).length
    update (· ++ body)
    match ← onTail start (cryptMessageGuarded cipher counter) with
    | .error _ =>
        cutBack start
        return .error .authentication
    | .ok () => return .ok ()

def openIntoGuarded (cipher : GuardedCipher τ) (gcm : Blockwise) (nonce sealedText aad : Bytes) :
    Guarded (Frame τ κ) (Except CipherError Unit) := do
  require .nonceLength (nonce.length = gcm.nonceSize)
  if sealedText.length < gcm.tagSize then return .error .authentication
  else if maxPlaintext < (← step (Panic.difference sealedText.length gcm.tagSize)) then
    return .error .authentication
  else
    let (body, tag) ← step (Panic.splitAt sealedText
      (← step (Panic.difference sealedText.length gcm.tagSize)))
    let counter ← step (preCounterGuarded gcm.hashKey nonce)
    match ← computeTagGuarded cipher gcm.hashKey counter aad body with
    | .error _ => return .error .authentication
    | .ok expected => releaseGuarded cipher gcm counter body tag expected

end Blockwise

/-! ## Counters -/

section

variable {block hashKey : Bytes}

theorem incrementGuarded_eq (whole : block.length = blockSize) :
    incrementGuarded block = .ok (increment block) := by
  have enough : 12 ≤ block.length := by rw [whole]; decide
  have low : Panic.copied (Bytes.zeros 4) (block.drop 12) = .ok (block.drop 12) := by
    apply Panic.copied_of_length
    rw [List.length_drop, whole, Bytes.length_zeros]
    rfl
  have fits : ∀ value, 12 + (Bytes.bigEndian 4 value).length = block.length := by
    intro value
    rw [Bytes.length_bigEndian, whole]
    rfl
  simp only [incrementGuarded, Panic.back_of_le enough, low, bind, Except.bind,
    Panic.overwriteBack_of_length (fits _)]
  rfl

theorem preCounterGuarded_eq (whole : hashKey.length = blockSize) (nonce : Bytes) :
    preCounterGuarded hashKey nonce = .ok (preCounter hashKey nonce) := by
  by_cases standard : nonce.length = standardNonceSize
  · have enough : standardNonceSize ≤ (Bytes.zeros blockSize).length := by decide
    have inside : blockSize - 1 <
        (nonce ++ (Bytes.zeros blockSize).drop standardNonceSize).length := by
      rw [List.length_append, standard]
      decide
    have written : (nonce ++ (Bytes.zeros blockSize).drop standardNonceSize).set (blockSize - 1) 1 =
        standardCounter nonce := by
      rw [List.set_append_right _ _ (by rw [standard]; decide), standard]
      rfl
    simp only [preCounterGuarded, if_pos standard, bind, Except.bind,
      Panic.overwriteFront_of_length enough standard, Panic.setByte_of_lt inside, written,
      preCounter]
  · have fits : 8 + (bitLength nonce.length).length = (Bytes.zeros blockSize).length := by
      rw [bitLength, Bytes.length_bigEndian]
      rfl
    have copied : ∀ blocks, Panic.copied (Bytes.zeros blockSize) (hashBlocks hashKey blocks) =
        .ok (hashBlocks hashKey blocks) := fun _ => Panic.copied_of_length (by simp [blockSize])
    simp only [preCounterGuarded, if_neg standard, bind, Except.bind,
      Panic.overwriteBack_of_length fits, Panic.exactly_of_length whole, copied, preCounter]
    rfl

end

/-! ## Keystream and tag -/

section

variable {cipher : GuardedCipher τ} {hashKey counter keystream : Bytes}

/-- A call on a buffer of this object's own, which holds a block. -/
theorem onOwn_attempt (whole : cipher.cipher.blockSize = blockSize) {source own : Bytes}
    (reads : source.length = blockSize) (writes : own.length = blockSize) (frame : Frame τ κ)
    {reply : Except CipherError Unit × Bytes} {next : τ}
    (called : cipher.cipher.transform .encrypt source own frame.world = (reply, next)) :
    onOwn own (cipher.attempt .encrypt source) frame = (.ok reply, { frame with world := next }) := by
  have attempted := cipher.attempt_of_full .encrypt source ⟨frame.world, own, ()⟩
    (Nat.le_of_eq (whole.trans reads.symm)) (Nat.le_of_eq (whole.trans writes.symm))
  simp only [onOwn, attempted, called]
  rfl

/-- The slices of the pieces follow one another through the buffer. -/
theorem addKeystreamGuarded_eq (whole : cipher.cipher.blockSize = blockSize) {pieces : List Bytes}
    (short : ∀ piece ∈ pieces, piece.length ≤ blockSize) (counterSize : counter.length = blockSize)
    (keystreamSize : keystream.length = blockSize) (world : τ) (front : Bytes) (kept : κ)
    {reply : Except CipherError Unit × Bytes} {next : τ}
    (answered : addKeystream cipher.cipher counter keystream pieces world = (reply, next)) :
    addKeystreamGuarded cipher counter keystream pieces front.length
        ⟨world, front ++ pieces.flatten, kept⟩ =
      (.ok reply.1, ⟨next, front ++ reply.2, kept⟩) := by
  induction pieces generalizing counter keystream world front reply next with
  | nil =>
      cases answered
      rfl
  | cons piece rest ih =>
      have first : piece.length ≤ blockSize := short piece List.mem_cons_self
      have later : ∀ piece ∈ rest, piece.length ≤ blockSize :=
        fun other member => short other (List.mem_cons_of_mem _ member)
      have nextSize := length_increment counterSize
      have size := cipher.cipher.keepsLength .encrypt (increment counter) keystream world
      rw [List.flatten_cons, ← List.append_assoc]
      cases called : cipher.cipher.transform .encrypt (increment counter) keystream world with
      | mk answer middle =>
          obtain ⟨result, output⟩ := answer
          have attempted := onOwn_attempt whole nextSize keystreamSize
            ⟨world, front ++ piece ++ rest.flatten, kept⟩ called
          rw [called] at size
          have outputSize : output.length = blockSize := size.trans keystreamSize
          cases result with
          | error error =>
              rw [addKeystream_of_error called] at answered
              cases answered
              simp only [addKeystreamGuarded, bind_apply, step, incrementGuarded_eq counterSize,
                attempted]
              rw [← List.append_assoc]
              rfl
          | ok _ =>
              rw [addKeystream_of_ok called] at answered
              cases answered
              have reaches : piece.length ≤ output.length := by omega
              have mixed : (Bytes.xor piece output).length = piece.length := by
                rw [Bytes.length_xor, Nat.min_eq_left reaches]
              have sliced := onSlice_append (update (Bytes.xorInto · output)) middle front piece
                rest.flatten kept
              simp only [update, Bytes.xorInto_of_le reaches, ← List.append_assoc] at sliced
              have continued := ih later nextSize outputSize middle
                (front ++ Bytes.xor piece output) rfl
              rw [List.length_append, mixed] at continued
              simp only [addKeystreamGuarded, bind_apply, step, incrementGuarded_eq counterSize,
                attempted, sliced, continued, ← List.append_assoc]

theorem cryptMessageGuarded_eq (whole : cipher.cipher.blockSize = blockSize)
    (counterSize : counter.length = blockSize) (frame : Frame τ κ)
    {reply : Except CipherError Unit × Bytes} {next : τ}
    (answered : cryptMessage cipher.cipher counter frame.buffer frame.world = (reply, next)) :
    cryptMessageGuarded cipher counter frame =
      (.ok reply.1, { frame with world := next, buffer := reply.2 }) := by
  have short : ∀ piece ∈ Bytes.chunks blockSize frame.buffer, piece.length ≤ blockSize :=
    fun _ member => Bytes.length_le_of_mem_pieces member
  have added := addKeystreamGuarded_eq whole short counterSize (Bytes.length_zeros _) frame.world []
    frame.kept answered
  rw [Bytes.flatten_chunks (by decide)] at added
  exact added

theorem computeTagGuarded_eq (whole : cipher.cipher.blockSize = blockSize)
    (keySize : hashKey.length = blockSize) (counterSize : counter.length = blockSize)
    {aad ciphertext : Bytes} (frame : Frame τ κ) {reply : Except CipherError Bytes} {next : τ}
    (answered : computeTag cipher.cipher hashKey counter aad ciphertext frame.world =
      (reply, next)) :
    computeTagGuarded cipher hashKey counter aad ciphertext frame =
      (.ok reply, { frame with world := next }) := by
  have enough : 8 ≤ (Bytes.zeros blockSize).length := by decide
  have aadSize : (bitLength aad.length).length = 8 := Bytes.length_bigEndian 8 _
  have ciphertextSize : (bitLength ciphertext.length).length = 8 := Bytes.length_bigEndian 8 _
  have fits : 8 + (bitLength ciphertext.length).length =
      (bitLength aad.length ++ (Bytes.zeros blockSize).drop 8).length := by
    rw [List.length_append, aadSize, ciphertextSize]
    rfl
  have size := cipher.cipher.keepsLength .encrypt counter (Bytes.zeros blockSize) frame.world
  cases called : cipher.cipher.transform .encrypt counter (Bytes.zeros blockSize) frame.world with
  | mk answer after =>
      obtain ⟨result, mask⟩ := answer
      have attempted := onOwn_attempt whole counterSize (Bytes.length_zeros _) frame called
      simp only [computeTagGuarded, bind_apply, step,
        Panic.overwriteFront_of_length enough aadSize, Panic.overwriteBack_of_length fits,
        Panic.exactly_of_length keySize, attempted, List.take_left' aadSize]
      cases result with
      | error error =>
          rw [computeTag_of_error called] at answered
          cases answered
          rfl
      | ok _ =>
          rw [computeTag_of_ok called] at answered
          cases answered
          have reaches : ∀ blocks, mask.length ≤ (hashBlocks hashKey blocks).length := by
            intro blocks
            rw [called] at size
            rw [length_hashBlocks]
            exact Nat.le_of_eq (size.trans (Bytes.length_zeros _))
          simp only [Bytes.xorInto_of_le (reaches _)]
          rfl

end

/-! ## Messages -/

namespace Blockwise

/-- The sizes that a mode relies on. -/
structure Fits (cipher : BlockCipher τ) (gcm : Blockwise) : Prop where
  blockSize_eq : cipher.blockSize = blockSize
  length_hashKey : gcm.hashKey.length = blockSize
  tagSize_le : gcm.tagSize ≤ blockSize

theorem fits_of_derive {cipher : BlockCipher τ} {nonceSize tagSize : Nat} {start next : τ}
    {gcm : Blockwise} (derived : derive cipher nonceSize tagSize start = (.ok gcm, next)) :
    gcm.Fits cipher := by
  have facts := derivedFrom_of_derive derived
  have size := cipher.keepsLength .encrypt (Bytes.zeros blockSize) (Bytes.zeros blockSize) start
  rw [facts.hashed] at size
  exact ⟨facts.cipher_blockSize, size.trans (Bytes.length_zeros _), facts.sized.tagSize_le⟩

section

variable {cipher : GuardedCipher τ} {gcm : Blockwise} {counter body tag expected : Bytes}
  {world next : τ} {destination : Bytes} {kept : κ}

theorem releaseGuarded_of_mismatch (enough : gcm.tagSize ≤ expected.length)
    (mismatch : expected.take gcm.tagSize ≠ tag) (frame : Frame τ κ) :
    releaseGuarded cipher gcm counter body tag expected frame =
      (.ok (.error .authentication), frame) := by
  simp only [releaseGuarded, bind_apply, step, Panic.front_of_le enough, if_pos mismatch]
  rfl

/-- The message is decrypted behind the destination, and cut off again if that fails. -/
theorem releaseGuarded_of_match (whole : cipher.cipher.blockSize = blockSize)
    (counterSize : counter.length = blockSize) (enough : gcm.tagSize ≤ expected.length)
    (matching : expected.take gcm.tagSize = tag) {result : Except CipherError Unit}
    {plaintext : Bytes}
    (decrypted : cryptMessage cipher.cipher counter body world = ((result, plaintext), next)) :
    releaseGuarded cipher gcm counter body tag expected ⟨world, destination, kept⟩ =
      match result with
      | .error _ => (.ok (.error .authentication), ⟨next, destination, kept⟩)
      | .ok () => (.ok (.ok ()), ⟨next, destination ++ plaintext, kept⟩) := by
  have tailed := onTail_append (cryptMessageGuarded cipher counter) world destination body kept
  rw [cryptMessageGuarded_eq whole counterSize ⟨world, body, kept⟩ decrypted] at tailed
  simp only [releaseGuarded, bind_apply, step, Panic.front_of_le enough,
    if_neg (not_not_intro matching), buffer, update, tailed]
  cases result with
  | error error =>
      simp only [bind_apply, cutBack_append]
      rfl
  | ok _ => rfl

/-- Where the sizes are right, the tag is computed, and the message is released on its account. -/
theorem openIntoGuarded_of_tag (fits : gcm.Fits cipher.cipher) {nonce aad sealedText : Bytes}
    (agreed : nonce.length = gcm.nonceSize) (inside : ¬ gcm.OutOfRange sealedText)
    {outcome : Except CipherError Bytes}
    (tagged : computeTag cipher.cipher gcm.hashKey (preCounter gcm.hashKey nonce) aad
      (sealedText.take (sealedText.length - gcm.tagSize)) world = (outcome, next)) :
    openIntoGuarded cipher gcm nonce sealedText aad ⟨world, destination, kept⟩ =
      match outcome with
      | .error _ => (.ok (.error .authentication), ⟨next, destination, kept⟩)
      | .ok expected =>
          releaseGuarded cipher gcm (preCounter gcm.hashKey nonce)
            (sealedText.take (sealedText.length - gcm.tagSize))
            (sealedText.drop (sealedText.length - gcm.tagSize)) expected
            ⟨next, destination, kept⟩ := by
  obtain ⟨enough, short⟩ := not_or.mp inside
  have counterSize := length_preCounter gcm.hashKey nonce
  have divided : Panic.splitAt sealedText (sealedText.length - gcm.tagSize) =
      .ok (sealedText.take (sealedText.length - gcm.tagSize),
        sealedText.drop (sealedText.length - gcm.tagSize)) :=
    Panic.splitAt_of_le (Nat.sub_le _ _)
  simp only [openIntoGuarded, bind_apply, require_of_holds agreed, if_neg enough, step,
    Panic.difference_of_le (Nat.le_of_not_lt enough), if_neg short, divided,
    preCounterGuarded_eq fits.length_hashKey,
    computeTagGuarded_eq fits.blockSize_eq fits.length_hashKey counterSize
      ⟨world, destination, kept⟩ tagged]
  cases outcome <;> rfl

end

section

variable {cipher : GuardedCipher τ} {gcm : Blockwise} (fits : gcm.Fits cipher.cipher)
  (nonce aad : Bytes) (frame : Frame τ κ)
include fits

theorem sealIntoGuarded_documented (plaintext : Bytes) :
    Documented (sealIntoGuarded cipher gcm nonce plaintext aad) id
      (stateless fun destination => gcm.sealInto cipher.cipher destination nonce plaintext aad)
      (fun _ _ => nonce.length ≠ gcm.nonceSize ∨ maxPlaintext < plaintext.length) frame := by
  obtain ⟨world, destination, kept⟩ := frame
  by_cases agreed : nonce.length = gcm.nonceSize
  · by_cases short : plaintext.length ≤ maxPlaintext
    · have proper : ¬ (nonce.length ≠ gcm.nonceSize ∨ maxPlaintext < plaintext.length) := by omega
      have counted := preCounterGuarded_eq fits.length_hashKey nonce
      have counterSize := length_preCounter gcm.hashKey nonce
      cases encrypted : cryptMessage cipher.cipher (preCounter gcm.hashKey nonce) plaintext world with
      | mk reply middle =>
          obtain ⟨result, body⟩ := reply
          have tailed := onTail_append
            (cryptMessageGuarded cipher (preCounter gcm.hashKey nonce)) world destination plaintext
            kept
          rw [cryptMessageGuarded_eq fits.blockSize_eq counterSize ⟨world, plaintext, kept⟩
            encrypted] at tailed
          cases result with
          | error error =>
              apply Documented.of_answer proper
              · simp only [sealIntoGuarded, bind_apply, require_of_holds agreed,
                  require_of_holds short, step, counted, buffer, update, tailed, cutBack_append]
                rfl
              · simp only [stateless,
                  sealInto_of_crypt_error agreed (Nat.not_lt_of_le short) encrypted]
                rfl
          | ok _ =>
              have bodied : Panic.back (destination ++ body) destination.length = .ok body := by
                rw [Panic.back_of_le (by simp), List.drop_left]
              cases tagged : computeTag cipher.cipher gcm.hashKey (preCounter gcm.hashKey nonce) aad
                  body middle with
              | mk outcome next =>
                  have computed := computeTagGuarded_eq fits.blockSize_eq fits.length_hashKey
                    counterSize ⟨middle, destination ++ body, kept⟩ tagged
                  cases outcome with
                  | error error =>
                      apply Documented.of_answer proper
                      · simp only [sealIntoGuarded, bind_apply, require_of_holds agreed,
                          require_of_holds short, step, counted, buffer, update, tailed, bodied,
                          computed, cutBack_append]
                        rfl
                      · simp only [stateless, sealInto_of_tag_error agreed (Nat.not_lt_of_le short)
                          encrypted tagged]
                        rfl
                  | ok tag =>
                      have tagSize : gcm.tagSize ≤ tag.length :=
                        length_of_computeTag tagged ▸ fits.tagSize_le
                      apply Documented.of_answer proper
                      · simp only [sealIntoGuarded, bind_apply, require_of_holds agreed,
                          require_of_holds short, step, counted, buffer, update, tailed, bodied,
                          computed, Panic.front_of_le tagSize]
                        rfl
                      · simp only [stateless, sealInto_of_ok agreed (Nat.not_lt_of_le short)
                          encrypted tagged]
                        rfl
    · apply Documented.of_refusal .messageFits (.inr (Nat.lt_of_not_le short))
      · simp only [sealIntoGuarded, bind_apply, require_of_holds agreed, require_of_not short]
        rfl
      · simp only [stateless, sealInto_of_long agreed (Nat.lt_of_not_le short)]
  · apply Documented.of_refusal .nonceLength (.inl agreed)
    · simp only [sealIntoGuarded, bind_apply, require_of_not agreed]
      rfl
    · simp only [stateless, sealInto_of_nonce_length agreed]

theorem openIntoGuarded_documented (sealedText : Bytes) :
    Documented (openIntoGuarded cipher gcm nonce sealedText aad) id
      (stateless fun destination => gcm.openInto cipher.cipher destination nonce sealedText aad)
      (fun _ _ => nonce.length ≠ gcm.nonceSize) frame := by
  obtain ⟨world, destination, kept⟩ := frame
  by_cases agreed : nonce.length = gcm.nonceSize
  · have proper : ¬ nonce.length ≠ gcm.nonceSize := not_not_intro agreed
    by_cases outside : gcm.OutOfRange sealedText
    · apply Documented.of_answer proper
      · by_cases short : sealedText.length < gcm.tagSize
        · simp only [openIntoGuarded, bind_apply, require_of_holds agreed, if_pos short]
          rfl
        · have long : maxPlaintext < sealedText.length - gcm.tagSize := outside.resolve_left short
          simp only [openIntoGuarded, bind_apply, require_of_holds agreed, if_neg short, step,
            Panic.difference_of_le (Nat.le_of_not_lt short), if_pos long]
          rfl
      · simp only [stateless, openInto_of_outOfRange agreed outside]
        rfl
    · have counterSize := length_preCounter gcm.hashKey nonce
      cases tagged : computeTag cipher.cipher gcm.hashKey (preCounter gcm.hashKey nonce) aad
          (sealedText.take (sealedText.length - gcm.tagSize)) world with
      | mk outcome middle =>
          have opened : openIntoGuarded cipher gcm nonce sealedText aad ⟨world, destination, kept⟩ =
              _ := openIntoGuarded_of_tag fits agreed outside tagged
          cases outcome with
          | error error =>
              apply Documented.of_answer proper opened
              simp only [stateless, openInto_of_tag_error agreed outside tagged]
              rfl
          | ok tag =>
              have tagSize : gcm.tagSize ≤ tag.length :=
                length_of_computeTag tagged ▸ fits.tagSize_le
              by_cases matching :
                  tag.take gcm.tagSize = sealedText.drop (sealedText.length - gcm.tagSize)
              · cases decrypted : cryptMessage cipher.cipher (preCounter gcm.hashKey nonce)
                    (sealedText.take (sealedText.length - gcm.tagSize)) middle with
                | mk reply next =>
                    obtain ⟨result, plaintext⟩ := reply
                    have released := opened.trans (releaseGuarded_of_match fits.blockSize_eq
                      counterSize tagSize matching decrypted)
                    cases result with
                    | error error =>
                        apply Documented.of_answer proper released
                        simp only [stateless,
                          openInto_of_crypt_error agreed outside tagged matching decrypted]
                        rfl
                    | ok _ =>
                        apply Documented.of_answer proper released
                        simp only [stateless,
                          openInto_of_ok agreed outside tagged matching decrypted]
                        rfl
              · apply Documented.of_answer proper
                  (opened.trans (releaseGuarded_of_mismatch tagSize matching _))
                simp only [stateless, openInto_of_mismatch agreed outside tagged matching]
                rfl
  · apply Documented.of_refusal .nonceLength agreed
    · simp only [openIntoGuarded, bind_apply, require_of_not agreed]
      rfl
    · simp only [stateless, openInto_of_nonce_length agreed]

end

end Blockwise

end CipherModes.Gcm
