import CipherModes.Proofs.Engine.Coherence
import CipherModes.Proofs.Gcm.OnToken

/-!
# GCM under a secret

A GCM that was made through a coherent engine has a key of the secret asked for,
of the kind that it works with. As long as the key lives, what it computes is
told by the secret alone, whichever of the two implementations it is.
-/

set_option autoImplicit false

namespace CipherModes

namespace Gcm

variable {schedule : Aes.Schedule} {before after token : Token} {nonce aad : Bytes}

/-- GCM over a cipher whose key lives, under a hash key that was derived of it. -/
structure Blockwise.KeyedBy (mode : Blockwise) (cipher : AesCipher) (schedule : Aes.Schedule)
    (token : Token) : Prop where
  cipherSize : cipher.blockSize = blockSize
  hashKey_eq : mode.hashKey = schedule.encrypt (Bytes.zeros blockSize)
  made : token.material? cipher.key.raw = some (.blocks schedule)

theorem Blockwise.KeyedBy.of_made {mode : Blockwise} {cipher : AesCipher}
    (keyed : mode.KeyedBy cipher schedule before)
    (made : after.material? cipher.key.raw = some (.blocks schedule)) :
    mode.KeyedBy cipher schedule after :=
  ⟨keyed.cipherSize, keyed.hashKey_eq, made⟩

/-- The key of a GCM lives, and is of the kind that it works with. -/
inductive KeyedBy (schedule : Aes.Schedule) (token : Token) : Gcm → Prop where
  | native {key : ImportedKey} :
      token.material? key.raw = some (.sealing schedule) → KeyedBy schedule token (native key)
  | blockwise {cipher : AesCipher} {mode : Blockwise} :
      mode.KeyedBy cipher schedule token → KeyedBy schedule token (blockwise cipher mode)

theorem Blockwise.KeyedBy.computes {mode : Blockwise} {cipher : AesCipher}
    (keyedBefore : mode.KeyedBy cipher schedule before)
    (keyedAfter : mode.KeyedBy cipher schedule after) (agreed : nonce.length = mode.nonceSize)
    (aad : Bytes) :
    Computes (.ofKey schedule.encrypt mode.tagSize) maxPlaintext
      (mode.sealing (cipher.blockCipher Token.backend) before)
      (mode.opening (cipher.blockCipher Token.backend) after) nonce aad := by
  have computes := Blockwise.computes_of_reliable
    (cipher.reliable_on_token keyedBefore.cipherSize schedule) keyedBefore.made keyedAfter.made
    agreed aad
  rwa [Blockwise.scheme, keyedBefore.hashKey_eq] at computes

theorem KeyedBy.computes {gcm : Gcm} (keyedBefore : gcm.KeyedBy schedule before)
    (keyedAfter : gcm.KeyedBy schedule after) (agreed : nonce.length = gcm.nonceSize)
    (aadFits : aad.length < 0x100000000) :
    Computes (.ofKey schedule.encrypt gcm.tagSize) gcm.longestPlaintext
      (gcm.sealing Token.backend before) (gcm.opening Token.backend after) nonce aad := by
  cases keyedBefore with
  | native madeBefore =>
      cases keyedAfter with
      | native madeAfter => exact native_computes madeBefore madeAfter agreed aadFits
  | blockwise modeBefore =>
      cases keyedAfter with
      | blockwise modeAfter =>
          rw [sealing_blockwise, opening_blockwise]
          exact modeBefore.computes modeAfter agreed aad

/-! ## Keys of new GCMs -/

variable {start next : Driven Token} {nonceSize tagSize : Nat}

/-- A cipher made through a coherent engine has a key for single blocks of its secret. -/
theorem material?_of_cipher (coherent : start.Coherent) {engine : EngineId} {secret : Bytes}
    {cipher : AesCipher}
    (made : AesCipher.create Token.backend engine secret start = (.ok cipher, next)) :
    ∃ schedule, Aes.Schedule.ofSecret? secret = some schedule ∧
      next.backend.material? cipher.key.raw = some (.blocks schedule) := by
  obtain ⟨⟨key, length⟩, middle, imported, finished⟩ := Action.bind_eq_ok made
  cases finished
  obtain ⟨material, kind, present⟩ := coherent.material?_of_importKey imported
  obtain ⟨schedule, expanded, ⟨-, rfl⟩ | ⟨other, -⟩⟩ := KeyMaterial.ofSecret_eq_ok kind
  · exact ⟨schedule, expanded, present⟩
  · cases other

/-- What a live key makes of the zero block is a hash key of its secret. -/
theorem Blockwise.keyedBy_of_hashed {cipher : AesCipher} {mode : Blockwise} {last : Token}
    (cipherSize : cipher.blockSize = blockSize)
    (made : token.material? cipher.key.raw = some (.blocks schedule))
    (hashed : (cipher.blockCipher Token.backend).transform .encrypt (Bytes.zeros blockSize)
      (Bytes.zeros blockSize) token = ((.ok (), mode.hashKey), last)) :
    mode.KeyedBy cipher schedule last := by
  obtain ⟨after, called, stays⟩ := (cipher.reliable_on_token cipherSize schedule).encrypts
    (Bytes.zeros blockSize) (Bytes.zeros blockSize) token (Bytes.length_zeros _)
    (Bytes.length_zeros _) made
  have same := hashed.symm.trans called
  have kept : last = after := congrArg Prod.snd same
  exact ⟨cipherSize, congrArg (·.1.2) same, kept ▸ stays⟩

/-- GCM derived over a cipher whose key lives is keyed by it. -/
theorem Blockwise.keyedBy_of_derive {cipher : AesCipher} {mode : Blockwise} {last : Token}
    (made : token.material? cipher.key.raw = some (.blocks schedule))
    (derived : derive (cipher.blockCipher Token.backend) nonceSize tagSize token =
      (.ok mode, last)) :
    mode.KeyedBy cipher schedule last :=
  have facts := derivedFrom_of_derive derived
  keyedBy_of_hashed facts.cipher_blockSize made facts.hashed

/-- A GCM made through a coherent engine is keyed by its secret. -/
theorem keyedBy_of_create (coherent : start.Coherent) {cipher : AesCipher} {gcm : Gcm}
    (made : create Token.backend cipher nonceSize tagSize start = (.ok gcm, next)) :
    ∃ schedule, Aes.Schedule.ofSecret? cipher.secret = some schedule ∧
      gcm.KeyedBy schedule next.backend := by
  rcases create_eq_ok made with ⟨-, key, length, rfl, imported⟩ | ⟨-, own, mode, rfl, built⟩
  · obtain ⟨material, kind, present⟩ := coherent.material?_of_importKey imported
    obtain ⟨schedule, expanded, ⟨other, -⟩ | ⟨-, rfl⟩⟩ := KeyMaterial.ofSecret_eq_ok kind
    · cases other
    · exact ⟨schedule, expanded, .native present⟩
  · obtain ⟨middle, created, derived, -⟩ := createBlockwise_eq_ok built
    obtain ⟨schedule, expanded, present⟩ := material?_of_cipher coherent created
    exact ⟨schedule, expanded, .blockwise (Blockwise.keyedBy_of_derive present derived)⟩

/-- A GCM stays keyed as long as its key is what it was. -/
theorem KeyedBy.of_same {gcm : Gcm} (keyed : gcm.KeyedBy schedule before)
    (same : after.material? gcm.ownedKey.raw = before.material? gcm.ownedKey.raw) :
    gcm.KeyedBy schedule after := by
  cases keyed with
  | native made => exact .native (same.trans made)
  | blockwise mode => exact .blockwise (mode.of_made (same.trans mode.made))

end Gcm

end CipherModes
