import CipherModes.Proofs.Accounts.Backend
import CipherModes.Proofs.Backend.Reading
import CipherModes.Proofs.Sequencing

/-!
# Operations that open and close nothing

Reading and setting properties, encrypting and decrypting in any mode neither
issue a handle nor give one back, wherever they fail.
-/

set_option autoImplicit false

namespace CipherModes

open Backend (Accounting)

variable {σ α β : Type} {backend : Backend σ} {accounting : backend.Accounting}

namespace Backend.Accounting

/-- Whatever is held before an operation is held after it. -/
def Quiet (accounting : backend.Accounting) (operation : StateM σ α) : Prop :=
  ∀ facts providers keys, Establishes (accounting.Holds facts providers keys) operation
    fun _ => accounting.Holds facts providers keys

namespace Quiet

theorem pure (value : α) : accounting.Quiet (Pure.pure value : StateM σ α) :=
  fun _ _ _ => .pure fun _ holds => holds

theorem bind {operation : StateM σ α} {rest : α → StateM σ β} (first : accounting.Quiet operation)
    (second : ∀ value, accounting.Quiet (rest value)) : accounting.Quiet (operation >>= rest) :=
  fun facts providers keys =>
    .bind _ (first facts providers keys) fun value => second value facts providers keys

theorem sequential : Sequential (fun {_} => accounting.Quiet) := ⟨pure, bind⟩

/-- An operation is quiet if a quiet call is all it does to the state. -/
theorem of_answer {operation : StateM σ α} (request : Call) (keeps : request.KeepsHandles)
    (same : ∀ state, (operation state).2 = (backend.answer request state).2) :
    accounting.Quiet operation := by
  intro facts providers keys state holds
  rw [same]
  exact holds.answer keeps

theorem call {request : Call} (keeps : request.KeepsHandles) :
    accounting.Quiet (backend.call request) :=
  .of_answer request keeps fun _ => rfl

theorem establishes {action : Action σ α} (quiet : accounting.Quiet action) {facts : Prop}
    {providers : List Provider} {keys : List ImportedKey} :
    action.Establishes (accounting.Holds facts providers keys)
      (fun _ => accounting.Holds facts providers keys) (accounting.Holds facts providers keys) := by
  intro state holds
  have after := quiet facts providers keys state holds
  cases ran : action state with
  | mk result next =>
      rw [ran] at after
      cases result <;> exact after

theorem actionBind {action : Action σ α} {rest : α → Action σ β} (first : accounting.Quiet action)
    (second : ∀ value, accounting.Quiet (rest value)) :
    accounting.Quiet (action >>= rest : Action σ β) := by
  intro facts providers keys state holds
  have halfway := first facts providers keys state holds
  rw [Action.bind_apply]
  cases ran : action state with
  | mk result middle =>
      rw [ran] at halfway
      cases result with
      | error error => exact halfway
      | ok value => exact second value facts providers keys middle halfway

theorem ofExcept (result : Except CipherError α) : accounting.Quiet (Action.ofExcept result) :=
  fun _ _ _ _ holds => holds

theorem throw (error : CipherError) :
    accounting.Quiet (MonadExcept.throw error : Action σ α) :=
  fun _ _ _ _ holds => holds

end Quiet

end Backend.Accounting

/-! ## Properties -/

namespace Provider

theorem setText_quiet (provider : Provider) (name text : String) :
    accounting.Quiet (provider.setText backend name text) :=
  .of_answer (.setProperty provider.raw name (encodeWide text)) trivial fun _ => rfl

/-- Reading a property is one call, whatever is made of its bytes. -/
theorem state_of_reading (decode : Bytes → α) (handle : Handle) (name : String) (size : Nat)
    (state : σ) :
    (Action.ofCall (decode <$> backend.getExact handle name size) state).2 =
      (backend.answer (.getProperty handle name (Bytes.zeros size)) state).2 := by
  simp only [Action.ofCall, Backend.reading_apply]

theorem getWord_quiet (provider : Provider) (name : String) :
    accounting.Quiet (provider.getWord backend name) :=
  .of_answer (.getProperty provider.raw name (Bytes.zeros 4)) trivial
    (state_of_reading decodeWord provider.raw name 4)

theorem getKeyLengths_quiet (provider : Provider) :
    accounting.Quiet (provider.getKeyLengths backend) :=
  .of_answer
    (.getProperty provider.raw PropertyName.keyLengths (Bytes.zeros KeyLengths.size)) trivial
    (state_of_reading KeyLengths.decode provider.raw PropertyName.keyLengths KeyLengths.size)

end Provider

theorem AesAlgorithm.initialise_quiet (mode : ChainingMode) (provider : Provider) :
    accounting.Quiet (initialise backend mode provider) := by
  apply Accounting.Quiet.actionBind (provider.setText_quiet _ _)
  intro _
  apply Accounting.Quiet.actionBind provider.getKeyLengths_quiet
  intro lengths
  apply Accounting.Quiet.actionBind (.ofExcept _)
  intro allowed
  apply Accounting.Quiet.actionBind (provider.getWord_quiet _)
  intro blockSize
  split
  · exact .throw _
  · exact .pure _

theorem Driven.fips_quiet : accounting.Quiet (fips backend) :=
  .of_answer .fipsEnabled trivial fun _ => rfl

/-! ## Single blocks and chained blocks -/

/-- No block of a cipher issues a handle or gives one back. -/
def BlockCipher.Quiet (accounting : backend.Accounting) (cipher : BlockCipher σ) : Prop :=
  ∀ direction source destination, accounting.Quiet (cipher.transform direction source destination)

theorem AesCipher.blockCipher_quiet (cipher : AesCipher) :
    (cipher.blockCipher backend).Quiet accounting :=
  fun direction source destination =>
    .of_answer (.crypt direction cipher.key.raw (source.take cipher.blockSize)
      (destination.take cipher.blockSize)) trivial fun _ => rfl

theorem AesCipher.cryptBlock_quiet (cipher : AesCipher) (direction : Direction)
    (source destination : Bytes) :
    accounting.Quiet (cipher.cryptBlock backend direction source destination) :=
  Accounting.Quiet.sequential.cipherBlock cipher.blockCipher_quiet _ _ _

namespace Cbc

variable {cipher : BlockCipher σ} (quiet : cipher.Quiet accounting)
include quiet

theorem cryptInPlace_quiet (stream : Cbc) (buffer : Bytes) :
    accounting.Quiet (cryptInPlace cipher stream buffer) :=
  Accounting.Quiet.sequential.cryptInPlace quiet stream buffer

theorem crypt_quiet (stream : Cbc) (source destination : Bytes) :
    accounting.Quiet (crypt cipher stream source destination) :=
  Accounting.Quiet.sequential.crypt quiet stream source destination

end Cbc

/-! ## Whole messages -/

namespace Gcm

namespace Blockwise

variable {cipher : BlockCipher σ} (quiet : cipher.Quiet accounting)
include quiet

theorem derive_quiet (nonceSize tagSize : Nat) :
    accounting.Quiet (derive cipher nonceSize tagSize) :=
  Accounting.Quiet.sequential.derive quiet nonceSize tagSize

theorem sealInto_quiet (gcm : Blockwise) (destination nonce plaintext aad : Bytes) :
    accounting.Quiet (gcm.sealInto cipher destination nonce plaintext aad) :=
  Accounting.Quiet.sequential.sealInto quiet gcm destination nonce plaintext aad

theorem openInto_quiet (gcm : Blockwise) (destination nonce sealedText aad : Bytes) :
    accounting.Quiet (gcm.openInto cipher destination nonce sealedText aad) :=
  Accounting.Quiet.sequential.openInto quiet gcm destination nonce sealedText aad

end Blockwise

/-- A GCM encrypts and decrypts, so its calls are quiet. -/
theorem calls_quiet (gcm : Gcm) : gcm.CallsHave backend (fun {_} => accounting.Quiet) := by
  cases gcm with
  | native key => exact fun _ _ _ _ _ _ => ⟨.call trivial, .call trivial⟩
  | blockwise cipher mode => exact cipher.blockCipher_quiet

theorem sealInto_quiet (gcm : Gcm) (destination nonce plaintext aad : Bytes) :
    accounting.Quiet (gcm.sealInto backend destination nonce plaintext aad) :=
  Accounting.Quiet.sequential.sealMessage gcm.calls_quiet destination nonce plaintext aad

theorem openInto_quiet (gcm : Gcm) (destination nonce sealedText aad : Bytes) :
    accounting.Quiet (gcm.openInto backend destination nonce sealedText aad) :=
  Accounting.Quiet.sequential.openMessage gcm.calls_quiet destination nonce sealedText aad

theorem Ordered.sealInto_quiet (ordered : Ordered) (destination nonce plaintext aad : Bytes) :
    accounting.Quiet (ordered.sealInto backend destination nonce plaintext aad) :=
  Accounting.Quiet.sequential.sealOrdered ordered.gcm.calls_quiet destination nonce plaintext aad

end Gcm

namespace Workspace

theorem throughBuffer_quiet {replaces : Bool} {destination : Bytes}
    {operation : Bytes → StateM σ (Except Fault Unit × Bytes × α)}
    (quiet : ∀ buffer, accounting.Quiet (operation buffer)) :
    accounting.Quiet (throughBuffer replaces destination operation) :=
  Accounting.Quiet.sequential.throughBuffer quiet

theorem plain_quiet {operation : StateM σ (Except Fault Unit × Bytes)}
    (quiet : accounting.Quiet operation) : accounting.Quiet (plain operation) :=
  Accounting.Quiet.sequential.plain quiet

end Workspace

end CipherModes
