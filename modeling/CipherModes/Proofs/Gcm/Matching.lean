import CipherModes.Proofs.Gcm.Destination
import CipherModes.Proofs.Gcm.Scheme

/-!
# Sealing and opening match

Under a nonce and associated data, an implementation either computes a scheme or
refuses every message. In both cases the texts that open to a message are those
that it seals to.
-/

set_option autoImplicit false

namespace CipherModes.Gcm

/-- What opening comes to: a message appended, or the error of authentication. -/
def openOutcome (destination : Bytes) : Option Bytes → Except Fault Unit × Bytes
  | some plaintext => (.ok (), destination ++ plaintext)
  | none => (.error (.error .authentication), destination)

/-- Every message that is not too long is sealed as the scheme says, and opened so. -/
structure Computes (scheme : Scheme) (longest : Nat) (sealText openText : TextOperation)
    (nonce aad : Bytes) : Prop where
  seals : ∀ destination plaintext, plaintext.length ≤ longest →
    sealText destination nonce plaintext aad =
      (.ok (), destination ++ scheme.sealedText nonce aad plaintext)
  refuses_long : ∀ destination plaintext, longest < plaintext.length →
    sealText destination nonce plaintext aad = (.error (.broken .messageFits), destination)
  opens : ∀ destination sealedText, openText destination nonce sealedText aad =
    openOutcome destination (scheme.unsealed? longest nonce aad sealedText)

/-- No message is sealed, and none is opened. -/
structure Refuses (sealText openText : TextOperation) (nonce aad : Bytes) : Prop where
  seals : ∀ destination plaintext, ∃ fault,
    sealText destination nonce plaintext aad = (.error fault, destination)
  opens : ∀ destination sealedText,
    openText destination nonce sealedText aad = (.error (.error .authentication), destination)

/-- A text opens to a message if and only if the message is sealed to it, and every other text
is rejected. The nonce, the associated data and both destinations are any. -/
structure Matching (sealText openText : TextOperation) (nonceSize tagSize : Nat) : Prop where
  opens_iff : ∀ destination initial nonce sealedText aad plaintext,
    openText destination nonce sealedText aad = (.ok (), destination ++ plaintext) ↔
      sealText initial nonce plaintext aad = (.ok (), initial ++ sealedText)
  length_sealed : ∀ initial nonce plaintext aad sealedText,
    sealText initial nonce plaintext aad = (.ok (), initial ++ sealedText) →
      sealedText.length = plaintext.length + tagSize
  rejects : ∀ destination nonce sealedText aad, nonce.length = nonceSize →
    (∀ initial plaintext,
      sealText initial nonce plaintext aad ≠ (.ok (), initial ++ sealedText)) →
        openText destination nonce sealedText aad =
          (.error (.error .authentication), destination)

/-- Every message and all associated data whose length is a 32-bit number can be sealed. -/
def SealsAll (sealText : TextOperation) (nonceSize : Nat) : Prop :=
  ∀ destination nonce plaintext aad, nonce.length = nonceSize →
    plaintext.length < 0x100000000 → aad.length < 0x100000000 → ∃ sealedText,
      sealText destination nonce plaintext aad = (.ok (), destination ++ sealedText)

variable {scheme : Scheme} {longest : Nat} {sealText openText : TextOperation}
  {destination initial nonce sealedText aad plaintext : Bytes}

namespace Computes

theorem seals_iff (computes : Computes scheme longest sealText openText nonce aad) :
    sealText initial nonce plaintext aad = (.ok (), initial ++ sealedText) ↔
      plaintext.length ≤ longest ∧ sealedText = scheme.sealedText nonce aad plaintext := by
  by_cases fits : plaintext.length ≤ longest
  · rw [computes.seals initial plaintext fits, Prod.mk.injEq, List.append_cancel_left_eq]
    exact ⟨fun same => ⟨fits, same.2.symm⟩, fun same => ⟨rfl, same.2.symm⟩⟩
  · rw [computes.refuses_long initial plaintext (Nat.lt_of_not_le fits)]
    exact ⟨nofun, fun same => absurd same.1 fits⟩

theorem opens_iff (computes : Computes scheme longest sealText openText nonce aad) :
    openText destination nonce sealedText aad = (.ok (), destination ++ plaintext) ↔
      scheme.unsealed? longest nonce aad sealedText = some plaintext := by
  rw [computes.opens]
  cases scheme.unsealed? longest nonce aad sealedText with
  | none => exact ⟨nofun, nofun⟩
  | some opened =>
      rw [openOutcome, Prod.mk.injEq, List.append_cancel_left_eq, Option.some.injEq]
      exact and_iff_right rfl

end Computes

theorem Computes.sealsAll {nonceSize : Nat} (limit : maxNativePlaintext ≤ longest)
    (computes : ∀ nonce aad, nonce.length = nonceSize → aad.length < 0x100000000 →
      Computes scheme longest sealText openText nonce aad) : SealsAll sealText nonceSize := by
  intro destination nonce plaintext aad agreed short aadFits
  have fits : plaintext.length ≤ maxNativePlaintext := Nat.le_of_lt_succ short
  exact ⟨_, (computes nonce aad agreed aadFits).seals destination plaintext
    (Nat.le_trans fits limit)⟩

theorem Refuses.not_seals (refuses : Refuses sealText openText nonce aad) :
    sealText initial nonce plaintext aad ≠ (.ok (), initial ++ sealedText) := by
  obtain ⟨fault, failed⟩ := refuses.seals initial plaintext
  rw [failed]
  nofun

theorem Refuses.not_opens (refuses : Refuses sealText openText nonce aad) :
    openText destination nonce sealedText aad ≠ (.ok (), destination ++ plaintext) := by
  rw [refuses.opens]
  nofun

/-- An implementation matches if, under each nonce of the agreed length, it computes a scheme or
refuses. -/
theorem Matching.of_agreed {nonceSize tagSize : Nat}
    (agreed : ∀ nonce aad, nonce.length = nonceSize →
      Refuses sealText openText nonce aad ∨
        ∃ scheme longest, Scheme.Sound scheme ∧ scheme.tagSize = tagSize ∧
          Computes scheme longest sealText openText nonce aad)
    (refused : RefusesNonces sealText openText nonceSize) :
    Matching sealText openText nonceSize tagSize := by
  constructor
  case opens_iff =>
    intro destination initial nonce sealedText aad plaintext
    by_cases right : nonce.length = nonceSize
    · rcases agreed nonce aad right with refuses | ⟨scheme, longest, sound, -, computes⟩
      · exact iff_of_false refuses.not_opens refuses.not_seals
      · rw [computes.opens_iff, computes.seals_iff, Scheme.unsealed?_eq_some_iff sound]
    · obtain ⟨seals, opens⟩ := refused destination nonce sealedText aad right
      rw [opens, (refused initial nonce plaintext aad right).1]
      exact ⟨nofun, nofun⟩
  case length_sealed =>
    intro initial nonce plaintext aad sealedText success
    by_cases right : nonce.length = nonceSize
    · rcases agreed nonce aad right with refuses | ⟨scheme, longest, sound, size, computes⟩
      · exact absurd success refuses.not_seals
      · obtain ⟨-, rfl⟩ := computes.seals_iff.mp success
        rw [Scheme.length_sealedText sound, size]
    · rw [(refused initial nonce plaintext aad right).1] at success
      cases success
  case rejects =>
    intro destination nonce sealedText aad right unsealed
    rcases agreed nonce aad right with refuses | ⟨scheme, longest, sound, -, computes⟩
    · exact refuses.opens destination sealedText
    · have rejected : scheme.unsealed? longest nonce aad sealedText = none := by
        rw [Option.eq_none_iff_forall_ne_some]
        intro plaintext opened
        have sealing := (Scheme.unsealed?_eq_some_iff sound).mp opened
        exact unsealed [] plaintext (computes.seals_iff.mpr sealing)
      rw [computes.opens, rejected]
      rfl

end CipherModes.Gcm
