import CipherModes.Proofs.Panics.Chaining
import CipherModes.Proofs.Panics.Sealing

/-!
# What makes an operation panic

Single blocks, streams and GCM of every kind panic where a precondition is
broken and nowhere else, before their first call and before their first write.
-/

set_option autoImplicit false

namespace CipherModes

open Guarded

variable {σ τ : Type}

/-- A mode over a cipher that some derivation made. -/
def Gcm.Blockwise.IsDerived (cipher : BlockCipher τ) (mode : Blockwise) : Prop :=
  ∃ nonceSize tagSize before after,
    derive cipher nonceSize tagSize before = (.ok mode, after)

/-- A GCM that some AES cipher made, in whatever state its engine was. -/
def Gcm.IsMade (backend : Backend σ) (gcm : Gcm) : Prop :=
  ∃ cipher nonceSize tagSize before after,
    create backend cipher nonceSize tagSize before = (.ok gcm, after)

theorem Gcm.Blockwise.IsDerived.fits {cipher : BlockCipher τ} {mode : Blockwise}
    (derived : mode.IsDerived cipher) : mode.Fits cipher := by
  obtain ⟨_, _, _, _, derived⟩ := derived
  exact fits_of_derive derived

theorem Gcm.IsMade.fits {backend : Backend σ} {gcm : Gcm} (made : gcm.IsMade backend) :
    gcm.Fits backend := by
  obtain ⟨_, _, _, _, _, made⟩ := made
  exact fits_of_create made

/-- The operations of AES ciphers over a backend, and of streams and GCM over any cipher, each with
the frames on which it panics. -/
structure PanicAsDocumented (backend : Backend σ) (cipher : GuardedCipher τ) : Prop where
  block : ∀ (own : AesCipher) (direction : Direction) (source : Bytes) (frame : Frame σ Unit),
    Documented (own.cryptBlockGuarded backend direction source) id
      (stateless (own.cryptBlock backend direction source))
      (fun destination _ =>
        source.length < own.blockSize ∨ destination.length < own.blockSize) frame
  start : ∀ (direction : Direction) (iv : Bytes) (frame : Frame τ Unit),
    (Cbc.startGuarded cipher.cipher.blockSize direction iv frame).1 =
        (match Cbc.start cipher.cipher.blockSize direction iv with
          | .ok stream => .ok { stream, scratch := Bytes.zeros cipher.cipher.blockSize }
          | .error precondition => .error precondition.panic) ∧
      ((∃ panic, (Cbc.startGuarded cipher.cipher.blockSize direction iv frame).1 = .error panic) ↔
        iv.length ≠ cipher.cipher.blockSize) ∧
      (Cbc.startGuarded cipher.cipher.blockSize direction iv frame).2 = frame
  restart : ∀ (iv : Bytes) (frame : Frame τ Cbc.Held), frame.kept.Reached cipher →
    Documented (do Cbc.restartGuarded iv; return .ok ()) Cbc.Held.stream
      (fun buffer stream state =>
        match stream.restart iv with
        | .ok next => ((.ok (), buffer, next), state)
        | .error precondition => ((.error (.broken precondition), buffer, stream), state))
      (fun _ _ => iv.length ≠ cipher.cipher.blockSize) frame
  crypt : ∀ (source : Bytes) (frame : Frame τ Cbc.Held), frame.kept.Reached cipher →
    Documented (Cbc.cryptGuarded cipher source) Cbc.Held.stream
      (fun destination stream => Cbc.crypt cipher.cipher stream source destination)
      (fun destination _ =>
        cipher.cipher.blockSize = 0 ∨ source.length % cipher.cipher.blockSize ≠ 0 ∨
          destination.length < source.length) frame
  cryptInPlace : ∀ frame : Frame τ Cbc.Held, frame.kept.Reached cipher →
    Documented (Cbc.cryptInPlaceGuarded cipher) Cbc.Held.stream
      (fun buffer stream => Cbc.cryptInPlace cipher.cipher stream buffer)
      (fun buffer _ =>
        cipher.cipher.blockSize = 0 ∨ buffer.length % cipher.cipher.blockSize ≠ 0) frame
  sealBlockwise : ∀ mode : Gcm.Blockwise, mode.IsDerived cipher.cipher →
    ∀ (nonce plaintext aad : Bytes) (frame : Frame τ Unit),
      Documented (mode.sealIntoGuarded cipher nonce plaintext aad) id
        (stateless fun destination => mode.sealInto cipher.cipher destination nonce plaintext aad)
        (fun _ _ => nonce.length ≠ mode.nonceSize ∨ Gcm.maxPlaintext < plaintext.length) frame
  openBlockwise : ∀ mode : Gcm.Blockwise, mode.IsDerived cipher.cipher →
    ∀ (nonce sealedText aad : Bytes) (frame : Frame τ Unit),
      Documented (mode.openIntoGuarded cipher nonce sealedText aad) id
        (stateless fun destination => mode.openInto cipher.cipher destination nonce sealedText aad)
        (fun _ _ => nonce.length ≠ mode.nonceSize) frame
  sealGcm : ∀ gcm : Gcm, gcm.IsMade backend →
    ∀ (nonce plaintext aad : Bytes) (frame : Frame σ Unit),
      Documented (gcm.sealIntoGuarded backend nonce plaintext aad) id
        (stateless fun destination => gcm.sealInto backend destination nonce plaintext aad)
        (fun _ _ => nonce.length ≠ gcm.nonceSize ∨ gcm.longestPlaintext < plaintext.length) frame
  openGcm : ∀ gcm : Gcm, gcm.IsMade backend →
    ∀ (nonce sealedText aad : Bytes) (frame : Frame σ Unit),
      Documented (gcm.openIntoGuarded backend nonce sealedText aad) id
        (stateless fun destination => gcm.openInto backend destination nonce sealedText aad)
        (fun _ _ => nonce.length ≠ gcm.nonceSize) frame
  sealOrdered : ∀ (gcm : Gcm) (ordered : Gcm.Ordered), gcm.IsMade backend →
    Gcm.Ordered.ofGcm gcm = .ok ordered →
      ∀ (nonce plaintext aad : Bytes) (frame : Frame σ Nat),
        Documented (Gcm.Ordered.sealIntoGuarded backend gcm nonce plaintext aad)
          (Gcm.Ordered.mk gcm)
          (fun destination ordered => ordered.sealInto backend destination nonce plaintext aad)
          (fun _ minNext =>
            nonce.length ≠ Gcm.standardNonceSize ∨ gcm.longestPlaintext < plaintext.length ∨
              Bytes.ofBigEndian (nonce.drop 4) = 0xffffffffffffffff ∨
                Bytes.ofBigEndian nonce < minNext) frame
  openOrdered : ∀ (gcm : Gcm) (ordered : Gcm.Ordered), gcm.IsMade backend →
    Gcm.Ordered.ofGcm gcm = .ok ordered →
      ∀ (nonce sealedText aad : Bytes) (frame : Frame σ Nat),
        Documented (Gcm.Ordered.openIntoGuarded backend gcm nonce sealedText aad) id
          (stateless fun destination =>
            (Gcm.Ordered.mk gcm frame.kept).openInto backend destination nonce sealedText aad)
          (fun _ _ => nonce.length ≠ Gcm.standardNonceSize) frame

/-- Whatever the backend answers, and whatever the cipher does on less than a block. -/
theorem panics_only_as_documented (backend : Backend σ) (cipher : GuardedCipher τ) :
    PanicAsDocumented backend cipher where
  block own direction source frame :=
    own.cryptBlockGuarded_documented backend direction source frame
  start direction iv frame := Cbc.startGuarded_documented _ direction iv frame
  restart iv frame reached := Cbc.restartGuarded_documented iv frame reached.sound
  crypt source _ reached := Cbc.cryptGuarded_documented reached.sound source
  cryptInPlace _ reached := Cbc.cryptInPlaceGuarded_documented reached.sound
  sealBlockwise _ derived nonce plaintext aad frame :=
    Gcm.Blockwise.sealIntoGuarded_documented derived.fits nonce aad frame plaintext
  openBlockwise _ derived nonce sealedText aad frame :=
    Gcm.Blockwise.openIntoGuarded_documented derived.fits nonce aad frame sealedText
  sealGcm _ made nonce plaintext aad frame :=
    Gcm.sealIntoGuarded_documented made.fits nonce aad frame plaintext
  openGcm _ made nonce sealedText aad frame :=
    Gcm.openIntoGuarded_documented made.fits nonce aad frame sealedText
  sealOrdered _ _ made accepted nonce plaintext aad frame :=
    Gcm.Ordered.sealIntoGuarded_documented made.fits (Gcm.Ordered.ofGcm_eq_ok_iff.mp accepted).1
      nonce plaintext aad frame
  openOrdered gcm _ made accepted nonce sealedText aad frame := by
    have standard : gcm.nonceSize = Gcm.standardNonceSize :=
      (Gcm.Ordered.ofGcm_eq_ok_iff.mp accepted).1
    rw [← standard]
    exact Gcm.openIntoGuarded_documented made.fits nonce aad frame sealedText

end CipherModes
