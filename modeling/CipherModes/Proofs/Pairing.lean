import CipherModes.Proofs.Token.LiveKeys
import CipherModes.Workspace.Perform

/-!
# Operations in pairs

A mode does nothing but transform blocks, one after the other. So whatever
relates the blocks of two ciphers, and passes from the parts of two operations
to the wholes, relates the modes over the one and over the other.
-/

set_option autoImplicit false

namespace CipherModes

/-! ## Answers that are alike -/

/-- Both calls succeeded or failed with the same error, and their buffers hold the same. -/
structure Reply.Alike {call other : Call} (reply : Reply call) (second : Reply other) : Prop where
  result : (reply.result.map fun _ => ()) = (second.result.map fun _ => ())
  output : reply.output = second.output
  tagOutput : reply.tagOutput = second.tagOutput

theorem Reply.Alike.result_cases {call other : Call} {reply : Reply call} {second : Reply other}
    (alike : reply.Alike second) :
    (∃ error, reply.result = .error error ∧ second.result = .error error) ∨
      ∃ value another, reply.result = .ok value ∧ second.result = .ok another := by
  have same := alike.result
  cases first : reply.result with
  | error error =>
      cases next : second.result with
      | error other =>
          rw [first, next] at same
          cases same
          exact .inl ⟨_, rfl, rfl⟩
      | ok another =>
          rw [first, next] at same
          cases same
  | ok value =>
      cases next : second.result with
      | error other =>
          rw [first, next] at same
          cases same
      | ok another => exact .inr ⟨_, _, rfl, rfl⟩

/-- What a cipher tells of a call. -/
theorem Reply.Alike.mapError {call other : Call} {reply : Reply call} {second : Reply other}
    (alike : reply.Alike second) :
    ((reply.result.mapError CipherError.backend).map fun _ => ()) =
      ((second.result.mapError CipherError.backend).map fun _ => ()) := by
  obtain ⟨error, first, next⟩ | ⟨value, another, first, next⟩ := alike.result_cases
  · rw [first, next]
    rfl
  · rw [first, next]
    rfl

/-- On either side every value is alike to one on the other. -/
structure Covers {α β : Type} (alike : α → β → Prop) : Prop where
  left : ∀ value, ∃ other, alike value other
  right : ∀ other, ∃ value, alike value other

theorem Covers.eq {α : Type} : Covers (@Eq α) :=
  ⟨fun value => ⟨value, rfl⟩, fun value => ⟨value, rfl⟩⟩

/-- The same result and the same output, and what comes with them is alike. -/
def Alongside {α β γ δ : Type} (alike : γ → δ → Prop) (outcome : α × β × γ)
    (other : α × β × δ) : Prop :=
  outcome.1 = other.1 ∧ outcome.2.1 = other.2.1 ∧ alike outcome.2.2 other.2.2

theorem Covers.alongside {α β γ δ : Type} {alike : γ → δ → Prop} (covers : Covers alike) :
    Covers (Alongside alike : α × β × γ → α × β × δ → Prop) := by
  constructor
  · intro outcome
    obtain ⟨rest, same⟩ := covers.left outcome.2.2
    exact ⟨(outcome.1, outcome.2.1, rest), rfl, rfl, same⟩
  · intro other
    obtain ⟨rest, same⟩ := covers.right other.2.2
    exact ⟨(other.1, other.2.1, rest), rfl, rfl, same⟩

theorem KeyRequest.covers (request : KeyRequest) (key twin : Handle) :
    Covers (@Reply.Alike (request.call key) (request.call twin)) := by
  cases request <;> constructor <;>
    exact fun reply => ⟨⟨reply.result, reply.output, reply.tagOutput⟩, rfl, rfl, rfl⟩

/-! ## From parts to wholes -/

variable {σ τ : Type}

/-- A relation of operations, by how their values are related, that passes from parts to wholes. -/
structure Pairing
    (related : {α β : Type} → (α → β → Prop) → StateM σ α → StateM τ β → Prop) : Prop where
  mono : ∀ {α β : Type} {alike weaker : α → β → Prop} {operation : StateM σ α} {twin : StateM τ β},
    related alike operation twin → (∀ value other, alike value other → weaker value other) →
      related weaker operation twin
  pure : ∀ {α β : Type} {alike : α → β → Prop} {value : α} {other : β}, alike value other →
    related alike (Pure.pure value) (Pure.pure other)
  bind : ∀ {α β γ δ : Type} {between : γ → δ → Prop} {alike : α → β → Prop}
    {operation : StateM σ γ} {twin : StateM τ δ} {rest : γ → StateM σ α} {others : δ → StateM τ β},
    Covers between → related between operation twin →
      (∀ value other, between value other → related alike (rest value) (others other)) →
        related alike (operation >>= rest) (twin >>= others)

/-- Both transform blocks of the same size, and are related in how they do it. -/
structure BlockCipher.Paired
    (related : {α β : Type} → (α → β → Prop) → StateM σ α → StateM τ β → Prop)
    (cipher : BlockCipher σ) (twin : BlockCipher τ) : Prop where
  blockSize : cipher.blockSize = twin.blockSize
  transform : ∀ direction source destination,
    related Eq (cipher.transform direction source destination)
      (twin.transform direction source destination)

namespace Pairing

variable {related : {α β : Type} → (α → β → Prop) → StateM σ α → StateM τ β → Prop}
  (pairing : Pairing related)
include pairing

theorem same {α : Type} (value : α) : related Eq (Pure.pure value) (Pure.pure value) :=
  pairing.pure rfl

theorem andThen {α β γ : Type} {alike : α → β → Prop} {operation : StateM σ γ}
    {twin : StateM τ γ} {rest : γ → StateM σ α} {others : γ → StateM τ β}
    (first : related Eq operation twin)
    (second : ∀ value, related alike (rest value) (others value)) :
    related alike (operation >>= rest) (twin >>= others) :=
  pairing.bind .eq first fun value _ same => same ▸ second value

theorem throughBuffer {α β : Type} {alike : α → β → Prop} {replaces : Bool} {destination : Bytes}
    {operation : Bytes → StateM σ (Except Fault Unit × Bytes × α)}
    {twin : Bytes → StateM τ (Except Fault Unit × Bytes × β)} (covers : Covers alike)
    (each : ∀ buffer, related (Alongside alike) (operation buffer) (twin buffer)) :
    related (Alongside alike) (Workspace.throughBuffer replaces destination operation)
      (Workspace.throughBuffer replaces destination twin) := by
  cases replaces with
  | false => exact each destination
  | true =>
      apply pairing.bind covers.alongside (each [])
      intro outcome other same
      obtain ⟨result, buffer, rest⟩ := outcome
      obtain ⟨_, _, others⟩ := other
      obtain ⟨rfl, rfl, still⟩ := same
      cases result <;> exact pairing.pure ⟨rfl, rfl, still⟩

theorem plain {operation : StateM σ (Except Fault Unit × Bytes)}
    {twin : StateM τ (Except Fault Unit × Bytes)} (each : related Eq operation twin) :
    related (Alongside Eq) (Workspace.plain operation) (Workspace.plain twin) :=
  pairing.andThen each fun _ => pairing.pure ⟨rfl, rfl, rfl⟩

variable {cipher : BlockCipher σ} {twin : BlockCipher τ} (ciphers : cipher.Paired related twin)
include ciphers

/-! ## Chained blocks -/

theorem chainedBlock (direction : Direction) (chain block : Bytes) :
    related Eq (Cbc.cryptBlock cipher direction chain block)
      (Cbc.cryptBlock twin direction chain block) := by
  cases direction with
  | encrypt =>
      apply pairing.andThen (ciphers.transform _ _ _)
      intro step
      obtain ⟨_ | _, output⟩ := step <;> exact pairing.same _
  | decrypt =>
      apply pairing.andThen (ciphers.transform _ _ _)
      intro step
      obtain ⟨_ | _, output⟩ := step <;> exact pairing.same _

theorem cryptFront (direction : Direction) (count : Nat) (chain buffer : Bytes) :
    related Eq (Cbc.cryptFront cipher direction count chain buffer)
      (Cbc.cryptFront twin direction count chain buffer) := by
  induction count generalizing chain buffer with
  | zero => exact pairing.same _
  | succ count ih =>
      apply pairing.andThen (pairing.chainedBlock ciphers _ _ _)
      intro step
      obtain ⟨result, block, next⟩ := step
      cases result with
      | error error => exact pairing.same _
      | ok _ => exact pairing.andThen (ih _ _) fun _ => pairing.same _

theorem cryptInPlace (stream : Cbc) (buffer : Bytes) :
    related Eq (stream.cryptInPlace cipher buffer) (stream.cryptInPlace twin buffer) := by
  unfold Cbc.cryptInPlace
  split
  · exact pairing.same _
  · exact pairing.andThen (pairing.cryptFront ciphers _ _ _ _) fun _ => pairing.same _

theorem crypt (stream : Cbc) (source destination : Bytes) :
    related Eq (stream.crypt cipher source destination) (stream.crypt twin source destination) := by
  unfold Cbc.crypt
  split
  · exact pairing.same _
  · split
    · exact pairing.same _
    · exact pairing.andThen (pairing.cryptInPlace ciphers _ _) fun _ => pairing.same _

/-! ## Messages block by block -/

theorem addKeystream (counter keystream : Bytes) (pieces : List Bytes) :
    related Eq (Gcm.addKeystream cipher counter keystream pieces)
      (Gcm.addKeystream twin counter keystream pieces) := by
  induction pieces generalizing counter keystream with
  | nil => exact pairing.same _
  | cons piece rest ih =>
      apply pairing.andThen (ciphers.transform _ _ _)
      intro step
      obtain ⟨result, keystream⟩ := step
      cases result with
      | error error => exact pairing.same _
      | ok _ => exact pairing.andThen (ih _ _) fun _ => pairing.same _

theorem computeTag (hashKey counter aad ciphertext : Bytes) :
    related Eq (Gcm.computeTag cipher hashKey counter aad ciphertext)
      (Gcm.computeTag twin hashKey counter aad ciphertext) := by
  apply pairing.andThen (ciphers.transform _ _ _)
  intro step
  obtain ⟨_ | _, mask⟩ := step <;> exact pairing.same _

theorem derive (nonceSize tagSize : Nat) :
    related Eq (Gcm.Blockwise.derive cipher nonceSize tagSize)
      (Gcm.Blockwise.derive twin nonceSize tagSize) := by
  unfold Gcm.Blockwise.derive
  rw [← ciphers.blockSize]
  split
  · exact pairing.same _
  · apply pairing.andThen (ciphers.transform _ _ _)
    intro step
    obtain ⟨_ | _, hashKey⟩ := step <;> exact pairing.same _

theorem sealInto (mode : Gcm.Blockwise) (destination nonce plaintext aad : Bytes) :
    related Eq (mode.sealInto cipher destination nonce plaintext aad)
      (mode.sealInto twin destination nonce plaintext aad) := by
  unfold Gcm.Blockwise.sealInto
  split
  · exact pairing.same _
  · split
    · exact pairing.same _
    · apply pairing.andThen (pairing.addKeystream ciphers _ _ _)
      intro message
      obtain ⟨encrypted, body⟩ := message
      cases encrypted with
      | error error => exact pairing.same _
      | ok _ =>
          apply pairing.andThen (pairing.computeTag ciphers _ _ _ _)
          intro tag
          cases tag <;> exact pairing.same _

theorem openInto (mode : Gcm.Blockwise) (destination nonce sealedText aad : Bytes) :
    related Eq (mode.openInto cipher destination nonce sealedText aad)
      (mode.openInto twin destination nonce sealedText aad) := by
  unfold Gcm.Blockwise.openInto
  split
  · exact pairing.same _
  · split
    · exact pairing.same _
    · apply pairing.andThen (pairing.computeTag ciphers _ _ _ _)
      intro expected
      cases expected with
      | error error => exact pairing.same _
      | ok expected =>
          dsimp only
          split
          · exact pairing.same _
          · apply pairing.andThen (pairing.addKeystream ciphers _ _ _)
            intro step
            obtain ⟨_ | _, body⟩ := step <;> exact pairing.same _

end Pairing

/-! ## Ciphers and messages on backends -/

theorem AesCipher.transform_eq (backend : Backend σ) (cipher : AesCipher) (direction : Direction)
    (source destination : Bytes) :
    (cipher.blockCipher backend).transform direction source destination = do
      let reply ← backend.call (.crypt direction cipher.key.raw (source.take cipher.blockSize)
        (destination.take cipher.blockSize))
      return ((reply.result.mapError .backend).map fun _ => (),
        reply.output ++ destination.drop cipher.blockSize) := rfl

section

variable {backend : Backend σ} {other : Backend τ}
  {related : {α β : Type} → (α → β → Prop) → StateM σ α → StateM τ β → Prop}
  (pairing : Pairing related)
include pairing

/-- A block is one call. -/
theorem Pairing.blockCipher {cipher twin : AesCipher} (sizes : cipher.blockSize = twin.blockSize)
    (calls : ∀ direction input output, related Reply.Alike
      (backend.call (.crypt direction cipher.key.raw input output))
      (other.call (.crypt direction twin.key.raw input output))) :
    (cipher.blockCipher backend).Paired related (twin.blockCipher other) := by
  refine ⟨sizes, fun direction source destination => ?_⟩
  rw [AesCipher.transform_eq, AesCipher.transform_eq, sizes]
  apply pairing.bind (KeyRequest.covers (.crypt direction _ _) _ _) (calls direction _ _)
  intro reply answer alike
  exact pairing.pure (Prod.ext alike.mapError (congrArg (· ++ _) alike.output))

theorem Pairing.cipherBlock {cipher twin : AesCipher}
    (ciphers : (cipher.blockCipher backend).Paired related (twin.blockCipher other))
    (direction : Direction) (source destination : Bytes) :
    related Eq (cipher.cryptBlock backend direction source destination)
      (twin.cryptBlock other direction source destination) := by
  have size : cipher.blockSize = twin.blockSize := ciphers.blockSize
  unfold AesCipher.cryptBlock
  rw [size]
  split
  · exact pairing.same _
  · split
    · exact pairing.same _
    · exact pairing.andThen (ciphers.transform _ _ _) fun _ => pairing.same _

end

/-- Both work on whole messages, or both by blocks in the same mode, and are related in their
calls. -/
inductive Gcm.Paired (backend : Backend σ) (other : Backend τ)
    (related : {α β : Type} → (α → β → Prop) → StateM σ α → StateM τ β → Prop) :
    Gcm → Gcm → Prop
  | native {key twin : ImportedKey}
      (seals : ∀ nonce aad buffer tag, related Reply.Alike
        (backend.call (.aeadEncrypt key.raw nonce aad buffer tag))
        (other.call (.aeadEncrypt twin.raw nonce aad buffer tag)))
      (opens : ∀ nonce aad buffer tag, related Reply.Alike
        (backend.call (.aeadDecrypt key.raw nonce aad buffer tag))
        (other.call (.aeadDecrypt twin.raw nonce aad buffer tag))) :
      Paired backend other related (native key) (native twin)
  | blockwise {cipher twin : AesCipher} (mode : Blockwise)
      (ciphers : (cipher.blockCipher backend).Paired related (twin.blockCipher other)) :
      Paired backend other related (blockwise cipher mode) (blockwise twin mode)

namespace Pairing

variable {backend : Backend σ} {other : Backend τ}
  {related : {α β : Type} → (α → β → Prop) → StateM σ α → StateM τ β → Prop}
  (pairing : Pairing related)
include pairing

section

variable {gcm twin : Gcm} (paired : gcm.Paired backend other related twin)
include paired

theorem sealMessage (destination nonce plaintext aad : Bytes) :
    related Eq (gcm.sealInto backend destination nonce plaintext aad)
      (twin.sealInto other destination nonce plaintext aad) := by
  have sizes : gcm.nonceSize = twin.nonceSize ∧ gcm.longestPlaintext = twin.longestPlaintext := by
    cases paired <;> exact ⟨rfl, rfl⟩
  unfold Gcm.sealInto
  rw [sizes.1, sizes.2]
  split
  · exact pairing.same _
  · split
    · exact pairing.same _
    · cases paired with
      | blockwise mode ciphers => exact pairing.sealInto ciphers mode _ _ _ _
      | native seals opens =>
          apply pairing.bind (KeyRequest.covers (.sealMessage _ _ _ _) _ _) (seals _ _ _ _)
          intro reply second same
          obtain ⟨error, first, next⟩ | ⟨value, another, first, next⟩ := same.result_cases
          · rw [first, next, same.output]
            exact pairing.same _
          · rw [first, next, same.output, same.tagOutput]
            exact pairing.same _

theorem openMessage (destination nonce sealedText aad : Bytes) :
    related Eq (gcm.openInto backend destination nonce sealedText aad)
      (twin.openInto other destination nonce sealedText aad) := by
  have sizes : gcm.nonceSize = twin.nonceSize := by
    cases paired <;> rfl
  unfold Gcm.openInto
  rw [sizes]
  split
  · exact pairing.same _
  · cases paired with
    | blockwise mode ciphers => exact pairing.openInto ciphers mode _ _ _ _
    | native seals opens =>
        dsimp only
        split
        · exact pairing.same _
        · apply pairing.bind (KeyRequest.covers (.openMessage _ _ _ _) _ _) (opens _ _ _ _)
          intro reply second same
          obtain ⟨error, first, next⟩ | ⟨value, another, first, next⟩ := same.result_cases
          · rw [first, next, same.output]
            exact pairing.same _
          · rw [first, next, same.output]
            exact pairing.same _

end

/-- At the same bound the same happens, and the bound moves alike. -/
theorem sealOrdered {ordered twin : Gcm.Ordered}
    (paired : ordered.gcm.Paired backend other related twin.gcm)
    (bound : ordered.minNext = twin.minNext) (destination nonce plaintext aad : Bytes) :
    related
      (Alongside fun next last =>
        ∃ bound, next = { ordered with minNext := bound } ∧ last = { twin with minNext := bound })
      (ordered.sealInto backend destination nonce plaintext aad)
      (twin.sealInto other destination nonce plaintext aad) := by
  have numbers : ordered.nonceNumber nonce = twin.nonceNumber nonce := by
    simp only [Gcm.Ordered.nonceNumber, bound]
  have still : ∃ next, ordered = { ordered with minNext := next } ∧
      twin = { twin with minNext := next } := ⟨ordered.minNext, rfl, bound ▸ rfl⟩
  unfold Gcm.Ordered.sealInto
  rw [numbers]
  split
  · exact pairing.pure ⟨rfl, rfl, still⟩
  · apply pairing.andThen (pairing.sealMessage paired _ _ _ _)
    intro outcome
    obtain ⟨result, output⟩ := outcome
    cases result with
    | error fault => exact pairing.pure ⟨rfl, rfl, still⟩
    | ok _ => exact pairing.pure ⟨rfl, rfl, _, rfl, rfl⟩

end Pairing

end CipherModes
