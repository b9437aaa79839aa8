import CipherModes.Proofs.Gcm.Cipher
import CipherModes.Proofs.Gcm.Creation
import CipherModes.Proofs.Gcm.Ordered
import CipherModes.RotatingCipher
import CipherModes.Token.Lengths

/-!
# What is left in a destination

Sealing and opening append to a destination. Any cipher or backend call may
fail, at any block of a message, and may write whatever it likes into the
buffer it was given before it fails: an operation that fails leaves the
destination as it was, and one that succeeds adds bytes of the exact number.
-/

set_option autoImplicit false

namespace CipherModes.Gcm

variable {σ : Type} {backend : Backend σ} {state : σ}

/-- An operation on a destination: it either appended bytes of an acceptable number, or failed
for an expected cause and left the destination as it was. -/
inductive Appends (expected : Fault → Prop) (acceptable : Nat → Prop) (destination : Bytes) :
    Except Fault Unit × Bytes → Prop where
  | succeeded {added : Bytes} : acceptable added.length →
      Appends expected acceptable destination (.ok (), destination ++ added)
  | failed {fault : Fault} : expected fault →
      Appends expected acceptable destination (.error fault, destination)

namespace Appends

variable {expected : Fault → Prop} {acceptable : Nat → Prop} {destination : Bytes}
  {outcome : Except Fault Unit × Bytes}

theorem mono {wider : Fault → Prop} (widen : ∀ {fault}, expected fault → wider fault)
    (appends : Appends expected acceptable destination outcome) :
    Appends wider acceptable destination outcome := by
  cases appends with
  | succeeded size => exact .succeeded size
  | failed cause => exact .failed (widen cause)

theorem expected_of_error {fault : Fault}
    (appends : Appends expected acceptable destination outcome)
    (error : outcome.1 = .error fault) : expected fault := by
  cases appends with
  | succeeded => cases error
  | failed cause =>
      cases error
      exact cause

end Appends

/-- Why sealing may fail under a nonce of the agreed length. -/
def SealFault (fault : Fault) : Prop :=
  fault = .broken .messageFits ∨ ∃ error, fault = .error error

/-- The one error of opening. -/
def OpenFault (fault : Fault) : Prop := fault = .error .authentication

namespace Blockwise

variable {cipher : BlockCipher σ} {gcm : Blockwise} {destination nonce aad : Bytes}

theorem sealInto_appends (sized : gcm.tagSize ≤ standardTagSize)
    (agreed : nonce.length = gcm.nonceSize) (plaintext : Bytes) :
    Appends SealFault (· = plaintext.length + gcm.tagSize) destination
      (gcm.sealInto cipher destination nonce plaintext aad state).1 := by
  by_cases long : maxPlaintext < plaintext.length
  · rw [sealInto_of_long agreed long]
    exact .failed (.inl rfl)
  · have kept := length_cryptMessage cipher (preCounter gcm.hashKey nonce) plaintext state
    cases encrypted : cryptMessage cipher (preCounter gcm.hashKey nonce) plaintext state with
    | mk reply middle =>
        obtain ⟨result, body⟩ := reply
        rw [encrypted] at kept
        cases result with
        | error error =>
            rw [sealInto_of_crypt_error agreed long encrypted]
            exact .failed (.inr ⟨error, rfl⟩)
        | ok _ =>
            cases tagged : computeTag cipher gcm.hashKey (preCounter gcm.hashKey nonce) aad body
                middle with
            | mk result next =>
                cases result with
                | error error =>
                    rw [sealInto_of_tag_error agreed long encrypted tagged]
                    exact .failed (.inr ⟨error, rfl⟩)
                | ok tag =>
                    have whole := length_of_computeTag tagged
                    rw [sealInto_of_ok agreed long encrypted tagged, List.append_assoc]
                    apply Appends.succeeded
                    rw [List.length_append, List.length_take, whole, kept]
                    exact congrArg (plaintext.length + ·) (Nat.min_eq_left sized)

theorem openInto_appends (agreed : nonce.length = gcm.nonceSize) (sealedText : Bytes) :
    Appends OpenFault (· + gcm.tagSize = sealedText.length) destination
      (gcm.openInto cipher destination nonce sealedText aad state).1 := by
  by_cases outside : gcm.OutOfRange sealedText
  · rw [openInto_of_outOfRange agreed outside]
    exact .failed rfl
  · cases tagged : computeTag cipher gcm.hashKey (preCounter gcm.hashKey nonce) aad
        (sealedText.take (sealedText.length - gcm.tagSize)) state with
    | mk result middle =>
        cases result with
        | error error =>
            rw [openInto_of_tag_error agreed outside tagged]
            exact .failed rfl
        | ok tag =>
            by_cases matching :
                tag.take gcm.tagSize = sealedText.drop (sealedText.length - gcm.tagSize)
            · have kept := length_cryptMessage cipher (preCounter gcm.hashKey nonce)
                (sealedText.take (sealedText.length - gcm.tagSize)) middle
              cases decrypted : cryptMessage cipher (preCounter gcm.hashKey nonce)
                  (sealedText.take (sealedText.length - gcm.tagSize)) middle with
              | mk reply next =>
                  obtain ⟨result, plaintext⟩ := reply
                  rw [decrypted] at kept
                  cases result with
                  | error error =>
                      rw [openInto_of_crypt_error agreed outside tagged matching decrypted]
                      exact .failed rfl
                  | ok _ =>
                      rw [openInto_of_ok agreed outside tagged matching decrypted]
                      apply Appends.succeeded
                      rw [kept, List.length_take]
                      omega
            · rw [openInto_of_mismatch agreed outside tagged matching]
              exact .failed rfl

end Blockwise

section

variable {key : ImportedKey} {destination nonce aad : Bytes}

private theorem sealInto_native_appends (standard : nonce.length = standardNonceSize)
    (plaintext : Bytes) :
    Appends SealFault (· = plaintext.length + standardTagSize) destination
      ((native key).sealInto backend destination nonce plaintext aad state).1 := by
  by_cases long : maxNativePlaintext < plaintext.length
  · rw [sealInto_native_of_long standard long]
    exact .failed (.inl rfl)
  · cases answered : (backend.answer (sealCall key nonce plaintext aad) state).1.result with
    | error error =>
        rw [sealInto_native_of_error standard long answered]
        exact .failed (.inr ⟨_, rfl⟩)
    | ok _ =>
        have kept := backend.keepsLengths (sealCall key nonce plaintext aad) state
        rw [sealInto_native_of_ok standard long answered, List.append_assoc]
        apply Appends.succeeded
        rw [List.length_append, kept.1, kept.2]
        exact congrArg (plaintext.length + ·) (Bytes.length_zeros _)

private theorem openInto_native_appends (standard : nonce.length = standardNonceSize)
    (sealedText : Bytes) :
    Appends OpenFault (· + standardTagSize = sealedText.length) destination
      ((native key).openInto backend destination nonce sealedText aad state).1 := by
  by_cases outside : OutOfNativeRange sealedText
  · rw [openInto_native_of_outOfRange standard outside]
    exact .failed rfl
  · cases answered : (backend.answer (openCall key nonce sealedText aad) state).1.result with
    | error error =>
        rw [openInto_native_of_error standard outside answered]
        exact .failed rfl
    | ok _ =>
        have kept := backend.keepsLengths (openCall key nonce sealedText aad) state
        rw [openInto_native_of_ok standard outside answered]
        apply Appends.succeeded
        have body : (sealedText.take (sealedText.length - standardTagSize)).length =
            sealedText.length - standardTagSize := by
          rw [List.length_take]
          omega
        rw [kept.1, show (openCall key nonce sealedText aad).output =
          sealedText.take (sealedText.length - standardTagSize) from rfl, body]
        omega

variable {gcm : Gcm}

theorem sealInto_appends (sized : gcm.tagSize ≤ standardTagSize)
    (agreed : nonce.length = gcm.nonceSize) (plaintext : Bytes) :
    Appends SealFault (· = plaintext.length + gcm.tagSize) destination
      (gcm.sealInto backend destination nonce plaintext aad state).1 := by
  cases gcm with
  | native key => exact sealInto_native_appends agreed plaintext
  | blockwise cipher mode =>
      rw [sealInto_blockwise]
      exact Blockwise.sealInto_appends sized agreed plaintext

theorem openInto_appends (agreed : nonce.length = gcm.nonceSize) (sealedText : Bytes) :
    Appends OpenFault (· + gcm.tagSize = sealedText.length) destination
      (gcm.openInto backend destination nonce sealedText aad state).1 := by
  cases gcm with
  | native key => exact openInto_native_appends agreed sealedText
  | blockwise cipher mode =>
      rw [openInto_blockwise]
      exact Blockwise.openInto_appends agreed sealedText

theorem sealInto_of_nonce_length (wrong : nonce.length ≠ gcm.nonceSize) (plaintext : Bytes) :
    gcm.sealInto backend destination nonce plaintext aad state =
      ((.error (.broken .nonceLength), destination), state) := by
  cases gcm with
  | native key => exact sealInto_native_of_nonce_length wrong
  | blockwise cipher mode =>
      rw [sealInto_blockwise]
      exact Blockwise.sealInto_of_nonce_length wrong

theorem openInto_of_nonce_length (wrong : nonce.length ≠ gcm.nonceSize) (sealedText : Bytes) :
    gcm.openInto backend destination nonce sealedText aad state =
      ((.error (.broken .nonceLength), destination), state) := by
  cases gcm with
  | native key => exact openInto_native_of_nonce_length wrong
  | blockwise cipher mode =>
      rw [openInto_blockwise]
      exact Blockwise.openInto_of_nonce_length wrong

end

/-! ## Sealing and opening as functions of their buffers -/

/-- Sealing or opening from some state: the result and the destination afterwards. -/
abbrev TextOperation := (destination nonce text aad : Bytes) → Except Fault Unit × Bytes

def Blockwise.sealing (cipher : BlockCipher σ) (gcm : Blockwise) (state : σ) : TextOperation :=
  fun destination nonce plaintext aad =>
    (gcm.sealInto cipher destination nonce plaintext aad state).1

def Blockwise.opening (cipher : BlockCipher σ) (gcm : Blockwise) (state : σ) : TextOperation :=
  fun destination nonce sealedText aad =>
    (gcm.openInto cipher destination nonce sealedText aad state).1

def sealing (backend : Backend σ) (gcm : Gcm) (state : σ) : TextOperation :=
  fun destination nonce plaintext aad =>
    (gcm.sealInto backend destination nonce plaintext aad state).1

def opening (backend : Backend σ) (gcm : Gcm) (state : σ) : TextOperation :=
  fun destination nonce sealedText aad =>
    (gcm.openInto backend destination nonce sealedText aad state).1

def Ordered.sealing (backend : Backend σ) (ordered : Ordered) (state : σ) : TextOperation :=
  fun destination nonce plaintext aad =>
    let (result, output, _) :=
      (ordered.sealInto backend destination nonce plaintext aad state).1
    (result, output)

def Ordered.opening (backend : Backend σ) (ordered : Ordered) (state : σ) : TextOperation :=
  fun destination nonce sealedText aad =>
    (ordered.openInto backend destination nonce sealedText aad state).1

/-- A failure leaves the destination as it was, and a success adds the exact number of bytes.
The only error of opening, under a nonce of the agreed length, is that of authentication. -/
structure KeepsDestination (sealText openText : TextOperation) (nonceSize tagSize : Nat) :
    Prop where
  sealing_appends : ∀ destination nonce plaintext aad,
    Appends (fun _ => True) (· = plaintext.length + tagSize) destination
      (sealText destination nonce plaintext aad)
  opening_appends : ∀ destination nonce sealedText aad,
    Appends (fun fault => nonce.length = nonceSize → OpenFault fault)
      (· + tagSize = sealedText.length) destination (openText destination nonce sealedText aad)

/-- A nonce of another length is refused before anything else. -/
def RefusesNonces (sealText openText : TextOperation) (nonceSize : Nat) : Prop :=
  ∀ destination nonce text aad, nonce.length ≠ nonceSize →
    sealText destination nonce text aad = (.error (.broken .nonceLength), destination) ∧
      openText destination nonce text aad = (.error (.broken .nonceLength), destination)

theorem Blockwise.refusesNonces (cipher : BlockCipher σ) (gcm : Blockwise) (before after : σ) :
    RefusesNonces (gcm.sealing cipher before) (gcm.opening cipher after) gcm.nonceSize := by
  intro destination nonce text aad wrong
  rw [sealing, opening, sealInto_of_nonce_length wrong, openInto_of_nonce_length wrong]
  exact ⟨rfl, rfl⟩

theorem refusesNonces (backend : Backend σ) (gcm : Gcm) (before after : σ) :
    RefusesNonces (gcm.sealing backend before) (gcm.opening backend after) gcm.nonceSize := by
  intro destination nonce text aad wrong
  rw [sealing, opening, sealInto_of_nonce_length wrong, openInto_of_nonce_length wrong]
  exact ⟨rfl, rfl⟩

/-- What is left to show for each implementation is how it works under a nonce of the agreed
length. -/
theorem KeepsDestination.of_agreed {sealText openText : TextOperation} {nonceSize tagSize : Nat}
    (sealingAppends : ∀ destination nonce plaintext aad, nonce.length = nonceSize →
      Appends SealFault (· = plaintext.length + tagSize) destination
        (sealText destination nonce plaintext aad))
    (openingAppends : ∀ destination nonce sealedText aad, nonce.length = nonceSize →
      Appends OpenFault (· + tagSize = sealedText.length) destination
        (openText destination nonce sealedText aad))
    (refused : RefusesNonces sealText openText nonceSize) :
    KeepsDestination sealText openText nonceSize tagSize := by
  constructor
  · intro destination nonce plaintext aad
    by_cases agreed : nonce.length = nonceSize
    · exact (sealingAppends destination nonce plaintext aad agreed).mono fun _ => trivial
    · rw [(refused destination nonce plaintext aad agreed).1]
      exact .failed trivial
  · intro destination nonce sealedText aad
    by_cases agreed : nonce.length = nonceSize
    · exact (openingAppends destination nonce sealedText aad agreed).mono
        fun expected _ => expected
    · rw [(refused destination nonce sealedText aad agreed).2]
      exact .failed fun same => absurd same agreed

theorem Blockwise.keepsDestination {cipher : BlockCipher σ} {gcm : Blockwise}
    (sized : gcm.tagSize ≤ standardTagSize) (state : σ) :
    KeepsDestination (gcm.sealing cipher state) (gcm.opening cipher state) gcm.nonceSize
      gcm.tagSize := by
  apply KeepsDestination.of_agreed
  · intro destination nonce plaintext aad agreed
    exact sealInto_appends sized agreed plaintext
  · intro destination nonce sealedText aad agreed
    exact openInto_appends agreed sealedText
  · exact refusesNonces cipher gcm state state

theorem keepsDestination (backend : Backend σ) {gcm : Gcm}
    (sized : gcm.tagSize ≤ standardTagSize) (state : σ) :
    KeepsDestination (gcm.sealing backend state) (gcm.opening backend state) gcm.nonceSize
      gcm.tagSize := by
  apply KeepsDestination.of_agreed
  · intro destination nonce plaintext aad agreed
    exact sealInto_appends sized agreed plaintext
  · intro destination nonce sealedText aad agreed
    exact openInto_appends agreed sealedText
  · exact refusesNonces backend gcm state state

theorem Ordered.keepsDestination (backend : Backend σ) (ordered : Ordered)
    (sized : ordered.gcm.tagSize ≤ standardTagSize) (state : σ) :
    KeepsDestination (ordered.sealing backend state) (ordered.opening backend state)
      ordered.gcm.nonceSize ordered.gcm.tagSize := by
  have kept := Gcm.keepsDestination backend sized state
  constructor
  · intro destination nonce plaintext aad
    cases checked : ordered.nonceNumber nonce with
    | error precondition =>
        rw [sealing, sealInto_of_refused checked]
        exact .failed trivial
    | ok number =>
        have inner := kept.sealing_appends destination nonce plaintext aad
        rw [Gcm.sealing] at inner
        cases sealed : ordered.gcm.sealInto backend destination nonce plaintext aad state with
        | mk reply next =>
            obtain ⟨result, output⟩ := reply
            rw [sealed] at inner
            cases result with
            | error fault =>
                rw [sealing, sealInto_of_fault checked sealed]
                exact inner
            | ok _ =>
                rw [sealing, sealInto_of_ok checked sealed]
                exact inner
  · exact kept.opening_appends

/-- However a GCM was made, over whichever cipher or backend: in every state, an operation that
fails leaves its destination as it was. -/
theorem failure_keeps_destination :
    (∀ {σ : Type} (cipher : BlockCipher σ) (nonceSize tagSize : Nat) (start next : σ)
      (gcm : Blockwise), Blockwise.derive cipher nonceSize tagSize start = (.ok gcm, next) →
        ∀ state, KeepsDestination (gcm.sealing cipher state) (gcm.opening cipher state)
          nonceSize tagSize) ∧
    (∀ {σ : Type} (backend : Backend σ) (cipher : AesCipher) (nonceSize tagSize : Nat)
      (start next : Driven σ) (gcm : Gcm),
        create backend cipher nonceSize tagSize start = (.ok gcm, next) →
          ∀ state, KeepsDestination (gcm.sealing backend state) (gcm.opening backend state)
            nonceSize tagSize) ∧
    (∀ {σ : Type} (backend : Backend σ) (gcm : Gcm) (fresh : Ordered),
      Ordered.ofGcm gcm = .ok fresh → ∀ minNext state,
        KeepsDestination (Ordered.sealing backend { gcm, minNext } state)
          (Ordered.opening backend { gcm, minNext } state) standardNonceSize standardTagSize) := by
  refine ⟨?_, ?_, ?_⟩
  · intro σ cipher nonceSize tagSize start next gcm derived state
    have facts := Blockwise.derivedFrom_of_derive derived
    rw [← facts.nonceSize_eq, ← facts.tagSize_eq]
    exact Blockwise.keepsDestination facts.sized.tagSize_le state
  · intro σ backend cipher nonceSize tagSize start next gcm made state
    obtain ⟨nonces, tags, bound⟩ := sizes_of_create made
    rw [← nonces, ← tags]
    exact keepsDestination backend (tags ▸ bound) state
  · intro σ backend gcm fresh accepted minNext state
    obtain ⟨nonces, tags, -⟩ := Ordered.ofGcm_eq_ok_iff.mp accepted
    rw [← nonces, ← tags]
    exact Ordered.keepsDestination backend { gcm, minNext } (Nat.le_of_eq tags) state

/-- A cipher that fails at its third call, after the hash key and one block of keystream, and
a GCM over a key of a token. -/
theorem failure_keeps_destination_at_third_call :
    (∃ mode, (Blockwise.derive (RotatingCipher.blockCipher ⟨16, 7, [3]⟩) 13 12 0).1 = .ok mode ∧
      ∀ made, KeepsDestination (mode.sealing (RotatingCipher.blockCipher ⟨16, 7, [3]⟩) made)
        (mode.opening (RotatingCipher.blockCipher ⟨16, 7, [3]⟩) made) 13 12) ∧
    ∃ cipher gcm next, create Token.backend cipher 12 16 (.fresh (.fresh .default)) =
        (.ok gcm, next) ∧
      (∀ token, KeepsDestination (gcm.sealing Token.backend token)
        (gcm.opening Token.backend token) 12 16) ∧
      ∀ minNext token, KeepsDestination (Ordered.sealing Token.backend { gcm, minNext } token)
        (Ordered.opening Token.backend { gcm, minNext } token) 12 16 := by
  obtain ⟨blockwise, made, ordered⟩ := failure_keeps_destination
  have derived : (Blockwise.derive (RotatingCipher.blockCipher ⟨16, 7, [3]⟩) 13 12 0).1 =
      .ok ⟨(RotatingCipher.mk 16 7 [3]).encrypt (Bytes.zeros 16), 13, 12⟩ := by rfl
  obtain ⟨cipher, key, imported⟩ : ∃ cipher key,
      (create Token.backend cipher 12 16 (.fresh (.fresh .default))).1 = .ok (native key) :=
    ⟨⟨0, ⟨⟨.issuedAfter 0, aesAlgorithm⟩, .issuedAfter 1, 128⟩, Bytes.zeros 16, 16⟩, _, by rfl⟩
  exact ⟨⟨_, derived, blockwise _ _ _ _ _ _ (Prod.ext derived rfl)⟩, cipher, native key, _,
    Prod.ext imported rfl, made _ _ _ _ _ _ _ (Prod.ext imported rfl),
    ordered _ _ _ (by rfl)⟩

end CipherModes.Gcm
