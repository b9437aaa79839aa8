import CipherModes.Gcm.Ordered
import CipherModes.Workspace.Perform

/-!
# What goes from a cipher to its modes

The modes over a block cipher do nothing to the state but transform blocks, one
after the other. So they have every property that transforming a block has and
that passes to operations from their parts.
-/

set_option autoImplicit false

namespace CipherModes

variable {σ : Type}

/-- A property of operations that passes from parts to the whole. -/
structure Sequential (property : {α : Type} → StateM σ α → Prop) : Prop where
  pure : ∀ {α : Type} (value : α), property (Pure.pure value : StateM σ α)
  bind : ∀ {α β : Type} {operation : StateM σ α} {rest : α → StateM σ β},
    property operation → (∀ value, property (rest value)) → property (operation >>= rest)

namespace Sequential

variable {property : {α : Type} → StateM σ α → Prop} (sequential : Sequential property)
include sequential

/-! ## Buffers -/

theorem throughBuffer {α : Type} {replaces : Bool} {destination : Bytes}
    {operation : Bytes → StateM σ (Except Fault Unit × Bytes × α)}
    (has : ∀ buffer, property (operation buffer)) :
    property (Workspace.throughBuffer replaces destination operation) := by
  cases replaces with
  | false => exact has destination
  | true =>
      apply sequential.bind (has [])
      rintro ⟨result, buffer, rest⟩
      cases result <;> exact sequential.pure _

theorem plain {operation : StateM σ (Except Fault Unit × Bytes)} (has : property operation) :
    property (Workspace.plain operation) :=
  sequential.bind has fun _ => sequential.pure _

variable {cipher : BlockCipher σ}
  (transforms : ∀ direction source destination,
    property (cipher.transform direction source destination))
include transforms

/-! ## Chained blocks -/

theorem cryptBlock (direction : Direction) (chain block : Bytes) :
    property (Cbc.cryptBlock cipher direction chain block) := by
  cases direction with
  | encrypt =>
      apply sequential.bind (transforms _ _ _)
      rintro ⟨result, output⟩
      cases result <;> exact sequential.pure _
  | decrypt =>
      apply sequential.bind (transforms _ _ _)
      rintro ⟨result, output⟩
      cases result <;> exact sequential.pure _

theorem cryptFront (direction : Direction) (count : Nat) (chain buffer : Bytes) :
    property (Cbc.cryptFront cipher direction count chain buffer) := by
  induction count generalizing chain buffer with
  | zero => exact sequential.pure _
  | succ count ih =>
      apply sequential.bind (sequential.cryptBlock transforms _ _ _)
      rintro ⟨result, block, next⟩
      cases result with
      | error error => exact sequential.pure _
      | ok _ => exact sequential.bind (ih _ _) fun _ => sequential.pure _

theorem cryptInPlace (stream : Cbc) (buffer : Bytes) :
    property (Cbc.cryptInPlace cipher stream buffer) := by
  unfold Cbc.cryptInPlace
  split
  · exact sequential.pure _
  · exact sequential.bind (sequential.cryptFront transforms _ _ _ _) fun _ => sequential.pure _

theorem crypt (stream : Cbc) (source destination : Bytes) :
    property (Cbc.crypt cipher stream source destination) := by
  unfold Cbc.crypt
  split
  · exact sequential.pure _
  · split
    · exact sequential.pure _
    · exact sequential.bind (sequential.cryptInPlace transforms _ _) fun _ => sequential.pure _

/-! ## Messages block by block -/

theorem addKeystream (counter keystream : Bytes) (pieces : List Bytes) :
    property (Gcm.addKeystream cipher counter keystream pieces) := by
  induction pieces generalizing counter keystream with
  | nil => exact sequential.pure _
  | cons piece rest ih =>
      apply sequential.bind (transforms _ _ _)
      rintro ⟨result, keystream⟩
      cases result with
      | error error => exact sequential.pure _
      | ok _ => exact sequential.bind (ih _ _) fun _ => sequential.pure _

theorem computeTag (hashKey counter aad ciphertext : Bytes) :
    property (Gcm.computeTag cipher hashKey counter aad ciphertext) := by
  apply sequential.bind (transforms _ _ _)
  rintro ⟨result, mask⟩
  cases result <;> exact sequential.pure _

theorem derive (nonceSize tagSize : Nat) :
    property (Gcm.Blockwise.derive cipher nonceSize tagSize) := by
  unfold Gcm.Blockwise.derive
  split
  · exact sequential.pure _
  · apply sequential.bind (transforms _ _ _)
    rintro ⟨result, hashKey⟩
    cases result <;> exact sequential.pure _

theorem sealInto (gcm : Gcm.Blockwise) (destination nonce plaintext aad : Bytes) :
    property (gcm.sealInto cipher destination nonce plaintext aad) := by
  unfold Gcm.Blockwise.sealInto
  split
  · exact sequential.pure _
  · split
    · exact sequential.pure _
    · apply sequential.bind (sequential.addKeystream transforms _ _ _)
      rintro ⟨encrypted, body⟩
      cases encrypted with
      | error error => exact sequential.pure _
      | ok _ =>
          apply sequential.bind (sequential.computeTag transforms _ _ _ _)
          intro tagged
          cases tagged <;> exact sequential.pure _

theorem openInto (gcm : Gcm.Blockwise) (destination nonce sealedText aad : Bytes) :
    property (gcm.openInto cipher destination nonce sealedText aad) := by
  unfold Gcm.Blockwise.openInto
  split
  · exact sequential.pure _
  · split
    · exact sequential.pure _
    · apply sequential.bind (sequential.computeTag transforms _ _ _ _)
      intro tagged
      cases tagged with
      | error error => exact sequential.pure _
      | ok expected =>
          dsimp only
          split
          · exact sequential.pure _
          · apply sequential.bind (sequential.addKeystream transforms _ _ _)
            rintro ⟨decrypted, body⟩
            cases decrypted <;> exact sequential.pure _

end Sequential

/-! ## Ciphers of a backend -/

/-- The calls that a GCM makes have a property: whole messages with standard sizes, or blocks. -/
def Gcm.CallsHave (backend : Backend σ) (property : {α : Type} → StateM σ α → Prop) : Gcm → Prop
  | native key => ∀ nonce aad buffer tag, nonce.length = standardNonceSize →
      tag.length = standardTagSize →
        property (backend.call (.aeadEncrypt key.raw nonce aad buffer tag)) ∧
          property (backend.call (.aeadDecrypt key.raw nonce aad buffer tag))
  | blockwise cipher _ => ∀ direction source destination,
      property ((cipher.blockCipher backend).transform direction source destination)

namespace Sequential

variable {property : {α : Type} → StateM σ α → Prop} (sequential : Sequential property)
  {backend : Backend σ}
include sequential

theorem cipherBlock {cipher : AesCipher} (transforms : ∀ direction source destination,
      property ((cipher.blockCipher backend).transform direction source destination))
    (direction : Direction) (source destination : Bytes) :
    property (cipher.cryptBlock backend direction source destination) := by
  unfold AesCipher.cryptBlock
  split
  · exact sequential.pure _
  · split
    · exact sequential.pure _
    · exact sequential.bind (transforms _ _ _) fun _ => sequential.pure _

variable {gcm : Gcm} (calls : gcm.CallsHave backend property)
include calls

theorem sealMessage (destination nonce plaintext aad : Bytes) :
    property (gcm.sealInto backend destination nonce plaintext aad) := by
  unfold Gcm.sealInto
  split
  · exact sequential.pure _
  · rename_i matching
    split
    · exact sequential.pure _
    · cases gcm with
      | blockwise cipher mode => exact sequential.sealInto calls _ _ _ _ _
      | native key =>
          have sized : nonce.length = Gcm.standardNonceSize := Decidable.not_not.mp matching
          apply sequential.bind (calls nonce aad plaintext _ sized (Bytes.length_zeros _)).1
          intro reply
          split <;> exact sequential.pure _

theorem openMessage (destination nonce sealedText aad : Bytes) :
    property (gcm.openInto backend destination nonce sealedText aad) := by
  unfold Gcm.openInto
  split
  · exact sequential.pure _
  · rename_i matching
    cases gcm with
    | blockwise cipher mode => exact sequential.openInto calls _ _ _ _ _
    | native key =>
        dsimp only
        split
        · exact sequential.pure _
        · rename_i long
          have sized : nonce.length = Gcm.standardNonceSize := Decidable.not_not.mp matching
          have tagged : (sealedText.drop (sealedText.length - Gcm.standardTagSize)).length =
              Gcm.standardTagSize := by
            rw [List.length_drop]
            omega
          apply sequential.bind (calls nonce aad _ _ sized tagged).2
          intro reply
          split <;> exact sequential.pure _

end Sequential

theorem Sequential.sealOrdered {property : {α : Type} → StateM σ α → Prop}
    (sequential : Sequential property) {backend : Backend σ} {ordered : Gcm.Ordered}
    (calls : ordered.gcm.CallsHave backend property) (destination nonce plaintext aad : Bytes) :
    property (ordered.sealInto backend destination nonce plaintext aad) := by
  unfold Gcm.Ordered.sealInto
  split
  · exact sequential.pure _
  · apply sequential.bind (sequential.sealMessage calls _ _ _ _)
    rintro ⟨result, _⟩
    cases result <;> exact sequential.pure _

end CipherModes
