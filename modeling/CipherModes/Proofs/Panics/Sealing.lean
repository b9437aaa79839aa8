import CipherModes.Gcm.Ordered
import CipherModes.Proofs.Bytes.Numbers
import CipherModes.Proofs.Gcm.Cipher
import CipherModes.Proofs.Gcm.Ordered
import CipherModes.Proofs.Panics.Blockwise

/-!
# Panics of GCM

By one call or block by block, sealing checks nonce and plaintext first, opening
the nonce. With ordered nonces the number of the nonce is checked as well, and
there is always one above it to keep.
-/

set_option autoImplicit false

namespace CipherModes.Gcm

open Guarded

variable {σ κ : Type}

/-! ## Sealing and opening with their checks -/

/-- The call that seals a buffer in place; its tag has a buffer of its own. -/
def sealCallGuarded (backend : Backend σ) (key : ImportedKey) (nonce aad tag : Bytes) :
    Guarded (Frame σ κ) (Except BackendError Unit × Bytes) := fun frame =>
  let (reply, world) := backend.answer (.aeadEncrypt key.raw nonce aad frame.buffer tag) frame.world
  (.ok (reply.result, reply.tagOutput), { frame with world, buffer := reply.output })

def openCallGuarded (backend : Backend σ) (key : ImportedKey) (nonce aad tag : Bytes) :
    Guarded (Frame σ κ) (Except BackendError Unit) := fun frame =>
  let (reply, world) := backend.answer (.aeadDecrypt key.raw nonce aad frame.buffer tag) frame.world
  (.ok reply.result, { frame with world, buffer := reply.output })

def sealIntoGuarded (backend : Backend σ) (gcm : Gcm) (nonce plaintext aad : Bytes) :
    Guarded (Frame σ κ) (Except CipherError Unit) := do
  require .nonceLength (nonce.length = gcm.nonceSize)
  require .messageFits (plaintext.length ≤ gcm.longestPlaintext)
  match gcm with
  | blockwise cipher mode =>
      mode.sealIntoGuarded (cipher.guardedCipher backend) nonce plaintext aad
  | native key =>
      let start := (← buffer).length
      update (· ++ plaintext)
      let (result, tag) ←
        onTail start (sealCallGuarded backend key nonce aad (Bytes.zeros standardTagSize))
      match result with
      | .error error =>
          cutBack start
          return .error (.backend error)
      | .ok () =>
          update (· ++ tag)
          return .ok ()

def openIntoGuarded (backend : Backend σ) (gcm : Gcm) (nonce sealedText aad : Bytes) :
    Guarded (Frame σ κ) (Except CipherError Unit) := do
  require .nonceLength (nonce.length = gcm.nonceSize)
  match gcm with
  | blockwise cipher mode =>
      mode.openIntoGuarded (cipher.guardedCipher backend) nonce sealedText aad
  | native key =>
      if sealedText.length < standardTagSize then return .error .authentication
      else if maxNativePlaintext <
          (← step (Panic.difference sealedText.length standardTagSize)) then
        return .error .authentication
      else
        let (body, tag) ← step (Panic.splitAt sealedText
          (← step (Panic.difference sealedText.length standardTagSize)))
        let start := (← buffer).length
        update (· ++ body)
        match ← onTail start (openCallGuarded backend key nonce aad tag) with
        | .error _ =>
            cutBack start
            return .error .authentication
        | .ok () => return .ok ()

namespace Ordered

/-- The number of a nonce that passes the checks. -/
def nonceNumberGuarded (nonce : Bytes) : Guarded (Frame σ Nat) Nat := do
  require .nonceLength (nonce.length = standardNonceSize)
  let counter ← step (Panic.copied (Bytes.zeros 8) (← step (Panic.back nonce 4)))
  require .counterRemains (Bytes.ofBigEndian counter ≠ 0xffffffffffffffff)
  let wide ← step (Panic.overwriteBack (Bytes.zeros 16) 4 nonce)
  require .nonceIncreases ((← kept) ≤ Bytes.ofBigEndian wide)
  return Bytes.ofBigEndian wide

/-- What is kept is the least nonce, a number of sixteen bytes. -/
def sealIntoGuarded (backend : Backend σ) (gcm : Gcm) (nonce plaintext aad : Bytes) :
    Guarded (Frame σ Nat) (Except CipherError Unit) := do
  let value ← nonceNumberGuarded nonce
  match ← gcm.sealIntoGuarded backend nonce plaintext aad with
  | .error error => return .error error
  | .ok () =>
      keep (← step (Panic.sum (Bytes.capacity 16) value 1))
      return .ok ()

def openIntoGuarded (backend : Backend σ) (gcm : Gcm) (nonce sealedText aad : Bytes) :
    Guarded (Frame σ Nat) (Except CipherError Unit) :=
  gcm.openIntoGuarded backend nonce sealedText aad

end Ordered

/-! ## Messages -/

/-- Block by block, the sizes that the mode relies on. -/
def Fits (backend : Backend σ) : Gcm → Prop
  | native _ => True
  | blockwise cipher mode => mode.Fits (cipher.blockCipher backend)

theorem fits_of_create {backend : Backend σ} {cipher : AesCipher} {nonceSize tagSize : Nat}
    {start next : Driven σ} {gcm : Gcm}
    (made : create backend cipher nonceSize tagSize start = (.ok gcm, next)) :
    gcm.Fits backend := by
  rcases create_eq_ok made with ⟨-, key, length, rfl, -⟩ | ⟨-, own, mode, rfl, built⟩
  · trivial
  · obtain ⟨middle, -, derived, -⟩ := createBlockwise_eq_ok built
    exact Blockwise.fits_of_derive derived

section

variable {backend : Backend σ} {key : ImportedKey} (nonce aad : Bytes) (frame : Frame σ κ)

/-- A native message that passes the checks is one call on the tail of the buffer. -/
theorem sealIntoGuarded_native_documented {plaintext : Bytes}
    (standard : nonce.length = standardNonceSize) (short : plaintext.length ≤ maxNativePlaintext) :
    Documented (sealIntoGuarded backend (native key) nonce plaintext aad) id
      (stateless fun destination => (native key).sealInto backend destination nonce plaintext aad)
      (fun _ _ => nonce.length ≠ standardNonceSize ∨ maxNativePlaintext < plaintext.length)
      frame := by
  obtain ⟨world, destination, kept⟩ := frame
  have proper : ¬ (nonce.length ≠ standardNonceSize ∨ maxNativePlaintext < plaintext.length) := by
    omega
  have tailed := onTail_append
    (sealCallGuarded backend key nonce aad (Bytes.zeros standardTagSize)) world destination
    plaintext kept
  have called : sealCallGuarded backend key nonce aad (Bytes.zeros standardTagSize)
      ⟨world, plaintext, kept⟩ =
        (.ok ((backend.answer (sealCall key nonce plaintext aad) world).1.result,
            (backend.answer (sealCall key nonce plaintext aad) world).1.tagOutput),
          ⟨(backend.answer (sealCall key nonce plaintext aad) world).2,
            (backend.answer (sealCall key nonce plaintext aad) world).1.output, kept⟩) := rfl
  rw [called] at tailed
  have agreed : nonce.length = (native key).nonceSize := standard
  have fits : plaintext.length ≤ (native key).longestPlaintext := short
  cases answered : (backend.answer (sealCall key nonce plaintext aad) world).1.result with
  | error error =>
      rw [answered] at tailed
      apply Documented.of_answer proper
      · simp only [sealIntoGuarded, bind_apply, require_of_holds agreed, require_of_holds fits,
          buffer, update, tailed, cutBack_append]
        rfl
      · simp only [stateless,
          sealInto_native_of_error standard (Nat.not_lt_of_le short) answered]
        rfl
  | ok _ =>
      rw [answered] at tailed
      apply Documented.of_answer proper
      · simp only [sealIntoGuarded, bind_apply, require_of_holds agreed, require_of_holds fits,
          buffer, update, tailed]
        rfl
      · simp only [stateless, sealInto_native_of_ok standard (Nat.not_lt_of_le short) answered]
        rfl

theorem openIntoGuarded_native_documented {sealedText : Bytes}
    (standard : nonce.length = standardNonceSize) :
    Documented (openIntoGuarded backend (native key) nonce sealedText aad) id
      (stateless fun destination => (native key).openInto backend destination nonce sealedText aad)
      (fun _ _ => nonce.length ≠ standardNonceSize) frame := by
  obtain ⟨world, destination, kept⟩ := frame
  have proper : ¬ nonce.length ≠ standardNonceSize := not_not_intro standard
  have agreed : nonce.length = (native key).nonceSize := standard
  by_cases outside : OutOfNativeRange sealedText
  · apply Documented.of_answer proper
    · by_cases short : sealedText.length < standardTagSize
      · simp only [openIntoGuarded, bind_apply, require_of_holds agreed, if_pos short]
        rfl
      · have long : maxNativePlaintext < sealedText.length - standardTagSize :=
          outside.resolve_left short
        simp only [openIntoGuarded, bind_apply, require_of_holds agreed, if_neg short, step,
          Panic.difference_of_le (Nat.le_of_not_lt short), if_pos long]
        rfl
    · simp only [stateless, openInto_native_of_outOfRange standard outside]
      rfl
  · obtain ⟨enough, inside⟩ := not_or.mp outside
    have tailed := onTail_append
      (openCallGuarded backend key nonce aad
        (sealedText.drop (sealedText.length - standardTagSize))) world destination
      (sealedText.take (sealedText.length - standardTagSize)) kept
    have called : openCallGuarded backend key nonce aad
          (sealedText.drop (sealedText.length - standardTagSize))
          ⟨world, sealedText.take (sealedText.length - standardTagSize), kept⟩ =
        (.ok (backend.answer (openCall key nonce sealedText aad) world).1.result,
          ⟨(backend.answer (openCall key nonce sealedText aad) world).2,
            (backend.answer (openCall key nonce sealedText aad) world).1.output, kept⟩) := rfl
    rw [called] at tailed
    have divided : Panic.splitAt sealedText (sealedText.length - standardTagSize) =
        .ok (sealedText.take (sealedText.length - standardTagSize),
          sealedText.drop (sealedText.length - standardTagSize)) :=
      Panic.splitAt_of_le (Nat.sub_le _ _)
    cases answered : (backend.answer (openCall key nonce sealedText aad) world).1.result with
    | error error =>
        rw [answered] at tailed
        apply Documented.of_answer proper
        · simp only [openIntoGuarded, bind_apply, require_of_holds agreed, if_neg enough, step,
            Panic.difference_of_le (Nat.le_of_not_lt enough), if_neg inside, divided, buffer,
            update, tailed, cutBack_append]
          rfl
        · simp only [stateless, openInto_native_of_error standard outside answered]
          rfl
    | ok _ =>
        rw [answered] at tailed
        apply Documented.of_answer proper
        · simp only [openIntoGuarded, bind_apply, require_of_holds agreed, if_neg enough, step,
            Panic.difference_of_le (Nat.le_of_not_lt enough), if_neg inside, divided, buffer,
            update, tailed]
          rfl
        · simp only [stateless, openInto_native_of_ok standard outside answered]
          rfl

end

section

variable {backend : Backend σ} {gcm : Gcm} (fits : gcm.Fits backend) (nonce aad : Bytes)
  (frame : Frame σ κ)
include fits

theorem sealIntoGuarded_documented (plaintext : Bytes) :
    Documented (sealIntoGuarded backend gcm nonce plaintext aad) id
      (stateless fun destination => gcm.sealInto backend destination nonce plaintext aad)
      (fun _ _ => nonce.length ≠ gcm.nonceSize ∨ gcm.longestPlaintext < plaintext.length)
      frame := by
  by_cases agreed : nonce.length = gcm.nonceSize
  · by_cases short : plaintext.length ≤ gcm.longestPlaintext
    · cases gcm with
      | blockwise cipher mode =>
          have inner : mode.Fits (cipher.guardedCipher backend).cipher := fits
          apply (Blockwise.sealIntoGuarded_documented inner nonce aad frame plaintext).congr
          · simp only [sealIntoGuarded, bind_apply, require_of_holds agreed,
              require_of_holds short]
          · simp only [stateless, sealInto_blockwise]
            rfl
      | native key => exact sealIntoGuarded_native_documented nonce aad frame agreed short
    · have long : gcm.longestPlaintext < plaintext.length := Nat.lt_of_not_le short
      apply Documented.of_refusal .messageFits (.inr long)
      · simp only [sealIntoGuarded, bind_apply, require_of_holds agreed, require_of_not short]
        rfl
      · simp only [stateless, sealInto, if_neg (not_not_intro agreed), if_pos long]
        rfl
  · apply Documented.of_refusal .nonceLength (.inl agreed)
    · simp only [sealIntoGuarded, bind_apply, require_of_not agreed]
      rfl
    · simp only [stateless, sealInto, if_pos agreed]
      rfl

theorem openIntoGuarded_documented (sealedText : Bytes) :
    Documented (openIntoGuarded backend gcm nonce sealedText aad) id
      (stateless fun destination => gcm.openInto backend destination nonce sealedText aad)
      (fun _ _ => nonce.length ≠ gcm.nonceSize) frame := by
  by_cases agreed : nonce.length = gcm.nonceSize
  · cases gcm with
    | blockwise cipher mode =>
        have inner : mode.Fits (cipher.guardedCipher backend).cipher := fits
        apply (Blockwise.openIntoGuarded_documented inner nonce aad frame sealedText).congr
        · simp only [openIntoGuarded, bind_apply, require_of_holds agreed]
        · simp only [stateless, openInto_blockwise]
          rfl
    | native key => exact openIntoGuarded_native_documented nonce aad frame agreed
  · apply Documented.of_refusal .nonceLength agreed
    · simp only [openIntoGuarded, bind_apply, require_of_not agreed]
      rfl
    · simp only [stateless, openInto, if_pos agreed]
      rfl

end

/-! ## Messages under ordered nonces -/

namespace Ordered

variable {backend : Backend σ} {gcm : Gcm}

/-- The checks pass or fail together with those on the number, and in the same way. -/
theorem nonceNumberGuarded_eq (gcm : Gcm) (nonce : Bytes) (frame : Frame σ Nat) :
    nonceNumberGuarded nonce frame =
      match (Ordered.mk gcm frame.kept).nonceNumber nonce with
      | .error precondition => (.error precondition.panic, frame)
      | .ok value => (.ok value, frame) := by
  by_cases agreed : nonce.length = standardNonceSize
  · have enough : 4 ≤ nonce.length := by rw [agreed]; decide
    have copied : Panic.copied (Bytes.zeros 8) (nonce.drop 4) = .ok (nonce.drop 4) := by
      apply Panic.copied_of_length
      rw [List.length_drop, agreed]
      rfl
    have widened : Panic.overwriteBack (Bytes.zeros 16) 4 nonce = .ok (Bytes.zeros 4 ++ nonce) :=
      Panic.overwriteBack_of_length (by rw [agreed]; rfl)
    by_cases last : Bytes.ofBigEndian (nonce.drop 4) = 0xffffffffffffffff
    · simp only [nonceNumberGuarded, bind_apply, require_of_holds agreed, step,
        Panic.back_of_le enough, copied, require_of_not (not_not_intro last), nonceNumber,
        if_neg (not_not_intro agreed), if_pos last]
      rfl
    · by_cases below : Bytes.ofBigEndian nonce < frame.kept
      · have refused : ¬ frame.kept ≤ Bytes.ofBigEndian nonce := Nat.not_le_of_lt below
        simp only [nonceNumberGuarded, bind_apply, require_of_holds agreed, step,
          Panic.back_of_le enough, copied, require_of_holds last, widened, kept,
          Bytes.ofBigEndian_zeros_append, require_of_not refused, nonceNumber,
          if_neg (not_not_intro agreed), if_neg last, if_pos below]
        rfl
      · simp only [nonceNumberGuarded, bind_apply, require_of_holds agreed, step,
          Panic.back_of_le enough, copied, require_of_holds last, widened, kept,
          Bytes.ofBigEndian_zeros_append, require_of_holds (Nat.le_of_not_lt below), nonceNumber,
          if_neg (not_not_intro agreed), if_neg last, if_neg below]
        rfl
  · simp only [nonceNumberGuarded, bind_apply, require_of_not agreed, nonceNumber, if_pos agreed]
    rfl

/-- The number above that of a nonce still has sixteen bytes. -/
theorem nonceNumber_succ_lt {ordered : Ordered} {nonce : Bytes} {value : Nat}
    (passed : ordered.nonceNumber nonce = .ok value) : value + 1 < Bytes.capacity 16 := by
  obtain ⟨⟨agreed, -, -⟩, rfl⟩ := nonceNumber_eq_ok_iff.mp passed
  have bounded := Bytes.ofBigEndian_lt nonce
  rw [agreed] at bounded
  have room : Bytes.capacity standardNonceSize + 1 < Bytes.capacity 16 := by decide
  omega

theorem sealIntoGuarded_documented (fits : gcm.Fits backend)
    (standard : gcm.nonceSize = standardNonceSize) (nonce plaintext aad : Bytes)
    (frame : Frame σ Nat) :
    Documented (sealIntoGuarded backend gcm nonce plaintext aad) (Ordered.mk gcm)
      (fun destination ordered => ordered.sealInto backend destination nonce plaintext aad)
      (fun _ minNext =>
        nonce.length ≠ standardNonceSize ∨ gcm.longestPlaintext < plaintext.length ∨
          Bytes.ofBigEndian (nonce.drop 4) = 0xffffffffffffffff ∨
            Bytes.ofBigEndian nonce < minNext) frame := by
  have numbered := nonceNumberGuarded_eq gcm nonce frame
  cases checked : (Ordered.mk gcm frame.kept).nonceNumber nonce with
  | error precondition =>
      rw [checked] at numbered
      have improper : ¬ ((nonce.length = standardNonceSize ∧
          Bytes.ofBigEndian (nonce.drop 4) ≠ 0xffffffffffffffff ∧
            frame.kept ≤ Bytes.ofBigEndian nonce)) := fun proper => by
        have passed : (Ordered.mk gcm frame.kept).nonceNumber nonce = .ok _ :=
          nonceNumber_eq_ok_iff.mpr ⟨proper, rfl⟩
        rw [checked] at passed
        cases passed
      apply Documented.of_refusal precondition (by omega) (bind_of_panic numbered)
      exact sealInto_of_refused checked
  | ok value =>
      rw [checked] at numbered
      obtain ⟨⟨agreed, last, above⟩, -⟩ := nonceNumber_eq_ok_iff.mp checked
      simp only at above
      have inner := Gcm.sealIntoGuarded_documented fits nonce aad frame plaintext
      rw [standard] at inner
      rcases inner.refuses_or_answers with
        ⟨improper, precondition, stopped, refused⟩ | ⟨proper, result, next, done, answered⟩
      · apply Documented.of_refusal precondition (by omega)
        · rw [sealIntoGuarded, bind_of_ok numbered, bind_of_panic stopped]
        · exact sealInto_of_fault checked (of_stateless refused).1
      · obtain ⟨sealed, same⟩ := of_stateless answered
        cases result with
        | error error =>
            apply Documented.of_answer (by omega)
            · rw [sealIntoGuarded, bind_of_ok numbered, bind_of_ok done]
              rfl
            · rw [show next.kept = frame.kept from same]
              exact sealInto_of_fault checked sealed
        | ok _ =>
            have room := Panic.sum_of_lt (nonceNumber_succ_lt checked)
            apply Documented.of_answer (by omega)
            · rw [sealIntoGuarded, bind_of_ok numbered, bind_of_ok done]
              simp only [bind_apply, step, room, keep]
              rfl
            · exact sealInto_of_ok checked sealed

end Ordered

end CipherModes.Gcm
