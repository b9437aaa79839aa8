import CipherModes.Proofs.Token.Keys
import CipherModes.Proofs.Token.Ledger

/-!
# Keys that nothing reaches

A key is asked for a property, for blocks or for a message. What it answers was
settled when it was imported, by the secret and by the mode that its provider
had: no later call has any part in it, whatever becomes of the provider.
-/

set_option autoImplicit false

namespace CipherModes

/-! ## What a key is asked and answers -/

/-- What a key can be asked, whichever handle it goes by. -/
inductive KeyRequest
  | property (name : String) (output : Bytes)
  | crypt (direction : Direction) (input output : Bytes)
  | sealMessage (nonce aad buffer tag : Bytes)
  | openMessage (nonce aad buffer tag : Bytes)

/-- How many bytes were written where that is told, and what the buffers hold. -/
structure KeyAnswer where
  result : Except BackendError (Option Nat)
  output : Bytes
  tagOutput : Bytes := []
  deriving DecidableEq

namespace KeyRequest

/-- The call by which the key of a handle is asked. -/
def call (key : Handle) : KeyRequest → Call
  | property name output => .getProperty key name output
  | crypt direction input output => .crypt direction key input output
  | sealMessage nonce aad buffer tag => .aeadEncrypt key nonce aad buffer tag
  | openMessage nonce aad buffer tag => .aeadDecrypt key nonce aad buffer tag

def operation : KeyRequest → Operation
  | property .. => .getProperty
  | crypt .encrypt .. => .encrypt
  | crypt .decrypt .. => .decrypt
  | sealMessage .. => .aeadEncrypt
  | openMessage .. => .aeadDecrypt

/-- How many bytes a successful call says that it wrote. -/
def count (key : Handle) : (request : KeyRequest) → (request.call key).Value → Option Nat
  | property .., written | crypt .., written => some written
  | sealMessage .., _ | openMessage .., _ => none

def answerOn (request : KeyRequest) (token : Token) (key : Handle) : KeyAnswer :=
  let reply := (token.answer (request.call key)).1
  { result := reply.result.map (request.count key)
    output := reply.output
    tagOutput := reply.tagOutput }

/-- The request is refused, and its buffers are left as they are. -/
def refusal (request : KeyRequest) (status : Status) : KeyAnswer :=
  match request with
  | property _ output | crypt _ _ output | openMessage _ _ output _ =>
      { result := .error ⟨request.operation.name, status⟩, output }
  | sealMessage _ _ buffer tag =>
      { result := .error ⟨request.operation.name, status⟩, output := buffer, tagOutput := tag }

/-- The length of the secret in bits, and the length of a block. -/
def propertyOf (secret : Bytes) (name : String) : Option Bytes :=
  if name = PropertyName.keyLength then some (encodeWord (UInt32.ofNat (secret.length * 8)))
  else if name = PropertyName.blockLength then some (encodeWord 16)
  else none

/-- What is answered by a key that was made of a secret in a mode. -/
def answerOf (mode : ChainingMode) (secret : Bytes) (request : KeyRequest) : KeyAnswer :=
  match request with
  | property name output =>
      match propertyOf secret name with
      | none => request.refusal .notSupported
      | some value =>
          if value.length ≤ output.length then
            { result := .ok (some value.length), output := Bytes.overlay value output }
          else request.refusal .bufferTooSmall
  | crypt direction input output =>
      if ¬ Token.lengthFits input ∨ input.length % Aes.blockLength ≠ 0 then
        request.refusal .invalidBufferSize
      else if output.length < input.length then request.refusal .bufferTooSmall
      else
        match mode, Aes.Schedule.ofSecret? secret with
        | .ecb, some schedule =>
            { result := .ok (some input.length)
              output := Bytes.overlay (Token.cryptBlocks schedule direction input) output }
        | _, _ => request.refusal .invalidParameter
  | sealMessage nonce aad buffer tag =>
      if ¬ Token.aeadLengths nonce tag then request.refusal .invalidParameter
      else if ¬ Token.lengthFits buffer ∨ ¬ Token.lengthFits aad then
        request.refusal .invalidBufferSize
      else
        match mode, Aes.Schedule.ofSecret? secret with
        | .gcm, some schedule =>
            let (ciphertext, computed) := Gcm.sealDetached schedule.encrypt nonce aad buffer
            { result := .ok none, output := ciphertext, tagOutput := computed }
        | _, _ => request.refusal .invalidParameter
  | openMessage nonce aad buffer tag =>
      if ¬ Token.aeadLengths nonce tag then request.refusal .invalidParameter
      else if ¬ Token.lengthFits buffer ∨ ¬ Token.lengthFits aad then
        request.refusal .invalidBufferSize
      else
        match mode, Aes.Schedule.ofSecret? secret with
        | .gcm, some schedule =>
            match Gcm.openDetached? schedule.encrypt nonce aad buffer tag with
            | none => request.refusal .authTagMismatch
            | some plaintext => { result := .ok none, output := plaintext }
        | _, _ => request.refusal .invalidParameter

end KeyRequest

namespace Token

variable {settings : Settings} {token next : Token} {call : Call} {key provider : Handle}
  {object : KeyObject} {mode : ChainingMode} {secret : Bytes} {material : KeyMaterial}

/-! ## A key stays as it was made -/

/-- The handle is that of this key and of no provider. -/
structure Has (token : Token) (key : Handle) (object : KeyObject) : Prop where
  live : token.keys.get? key = some object
  no_provider : token.providers.get? key = none

namespace Has

/-- The handle that is issued next is not that of a key. -/
theorem not_next (has : token.Has key object) (accounted : token.Accounted)
    (remain : token.handlesIssued + 1 < Handle.limit) : key ≠ .issuedAfter token.issued := by
  rintro rfl
  have unused := (accounted.unused remain).2
  rw [has.live] at unused
  cases unused

theorem step (has : token.Has key object) (effect : token.Effect call next)
    (accounted : token.Accounted) (remain : next.handlesIssued < Handle.limit)
    (spared : call ≠ .destroyKey key) : next.Has key object := by
  cases effect with
  | nothing => exact has
  | opened =>
      have different := has.not_next accounted (by simp only [handlesIssued] at remain ⊢; omega)
      exact ⟨has.live, by rw [HandleTable.get?_insert_ne different, has.no_provider]⟩
  | imported =>
      have different := has.not_next accounted (by simp only [handlesIssued] at remain ⊢; omega)
      exact ⟨by rw [HandleTable.get?_insert_ne different, has.live], has.no_provider⟩
  | closed => exact ⟨has.live, HandleTable.get?_erase_of_none has.no_provider⟩
  | destroyed other =>
      have different : key ≠ other := by
        rintro rfl
        exact spared rfl
      exact ⟨by rw [HandleTable.get?_erase_ne different, has.live], has.no_provider⟩
  | switched => exact ⟨has.live, HandleTable.get?_replace_eq_none_iff.mpr has.no_provider⟩

theorem afterCalls {calls : List Call} (has : token.Has key object) (accounted : token.Accounted)
    (remain : (token.afterCalls calls).handlesIssued < Handle.limit)
    (spared : .destroyKey key ∉ calls) : (token.afterCalls calls).Has key object := by
  induction calls generalizing token with
  | nil => exact has
  | cons call rest ih =>
      obtain ⟨first, later⟩ := not_or.mp (mt List.mem_cons.mpr spared)
      have effect := token.answer_effect call
      have one := Nat.lt_of_le_of_lt (handlesIssued_le_afterCalls (token.answer call).2 rest) remain
      exact ih (has.step effect accounted one (Ne.symm first)) (accounted.step effect one) remain
        later

end Has

/-- A key that was imported goes by a handle that was not in use. -/
theorem has_of_import {raw : Handle}
    (inMode : token.providers.get? provider = some mode) (accounted : token.Accounted)
    (remain : (token.answer (.importKey provider secret)).2.handlesIssued < Handle.limit)
    (success : (token.answer (.importKey provider secret)).1.result = .ok raw) :
    ∃ material, KeyMaterial.ofSecret mode secret = .ok material ∧
      (token.answer (.importKey provider secret)).2.Has raw
        ⟨provider, UInt32.ofNat (secret.length * 8), material⟩ := by
  obtain ⟨rfl, other, material, present, made, after⟩ := imported_of_ok success
  cases inMode.symm.trans present
  rw [after] at remain ⊢
  have unused := accounted.unused (by simp only [handlesIssued] at remain ⊢; omega)
  exact ⟨material, made, HandleTable.get?_insert_self .., unused.1⟩

/-! ## What it answers -/

theorem Has.answers
    (has : token.Has key ⟨provider, UInt32.ofNat (secret.length * 8), material⟩)
    (made : KeyMaterial.ofSecret mode secret = .ok material) (request : KeyRequest) :
    request.answerOn token key = request.answerOf mode secret := by
  obtain ⟨live, noProvider⟩ := has
  obtain ⟨schedule, scheduled, known⟩ := KeyMaterial.ofSecret_eq_ok made
  cases request with
  | property name output =>
      have value : token.property key name =
          (KeyRequest.propertyOf secret name).elim (.error .notSupported) .ok := by
        simp only [property, noProvider, live]
        rfl
      simp only [KeyRequest.answerOn, KeyRequest.call, answer, getProperty, value,
        KeyRequest.answerOf]
      cases KeyRequest.propertyOf secret name with
      | none => rfl
      | some bytes =>
          simp only [Option.elim]
          split <;> rfl
  | crypt direction input output =>
      simp only [KeyRequest.answerOn, KeyRequest.call, answer, crypt, live, KeyRequest.answerOf]
      split
      · cases direction <;> rfl
      · split
        · cases direction <;> rfl
        · obtain ⟨rfl, rfl⟩ | ⟨rfl, rfl⟩ := known
          · simp only [scheduled]
            cases direction <;> rfl
          · cases direction <;> rfl
  | sealMessage nonce aad buffer tag =>
      simp only [KeyRequest.answerOn, KeyRequest.call, answer, aeadEncrypt, live,
        KeyRequest.answerOf]
      split
      · rfl
      · split
        · rfl
        · obtain ⟨rfl, rfl⟩ | ⟨rfl, rfl⟩ := known
          · rfl
          · simp only [scheduled]
            rfl
  | openMessage nonce aad buffer tag =>
      simp only [KeyRequest.answerOn, KeyRequest.call, answer, aeadDecrypt, live,
        KeyRequest.answerOf]
      split
      · rfl
      · split
        · rfl
        · obtain ⟨rfl, rfl⟩ | ⟨rfl, rfl⟩ := known
          · rfl
          · simp only [scheduled]
            cases Gcm.openDetached? schedule.encrypt nonce aad buffer tag <;> rfl

/-- What a live key answers is told by the secret and the mode in which it was imported, right
after the import and whatever is called then, as long as the key itself is not destroyed. -/
theorem live_key_answers_as_imported {before later : List Call} {raw : Handle}
    (inMode : ((fresh settings).afterCalls before).providers.get? provider = some mode)
    (success : (((fresh settings).afterCalls before).answer
      (.importKey provider secret)).1.result = .ok raw)
    (spared : .destroyKey raw ∉ later)
    (lasts : (issuedHandles ((fresh settings).trace
      (before ++ .importKey provider secret :: later))).length < Handle.limit)
    (request : KeyRequest) :
    request.answerOn
      ((fresh settings).afterCalls (before ++ .importKey provider secret :: later)) raw =
        request.answerOf mode secret := by
  have issued := length_issuedHandles
    (leads_trace (fresh settings) (before ++ .importKey provider secret :: later))
  have remain : ((fresh settings).afterCalls
      (before ++ .importKey provider secret :: later)).handlesIssued < Handle.limit := by
    rw [← issued]
    exact Nat.lt_of_le_of_lt (Nat.le_of_eq (Nat.zero_add _)) lasts
  rw [afterCalls, List.foldl_append, List.foldl_cons] at remain ⊢
  change ((((fresh settings).afterCalls before).answer (.importKey provider secret)).2.afterCalls
    later).handlesIssued < Handle.limit at remain
  have imported := Nat.lt_of_le_of_lt (handlesIssued_le_afterCalls _ later) remain
  have earlier := Nat.lt_of_le_of_lt
    (answer_effect ((fresh settings).afterCalls before) _).handlesIssued_le imported
  have accounted := (accounted_fresh settings).afterCalls before earlier
  obtain ⟨material, made, has⟩ := has_of_import inMode accounted imported success
  have still := accounted.step (answer_effect _ _) imported
  exact (has.afterCalls still remain spared).answers made request

/-- The provider is switched from single blocks to messages and another key is made in it. Another
provider comes and goes, and both are asked in vain for things that they cannot do. -/
theorem live_key_answers_as_imported_after_switch :
    let provider := Handle.issuedAfter 0
    let key := Handle.issuedAfter 1
    let before : List Call :=
      [.openProvider aesAlgorithm .none,
        .setProperty provider PropertyName.chainingMode (encodeWide ChainingMode.ecb.text)]
    let later : List Call :=
      [.setProperty provider PropertyName.chainingMode (encodeWide ChainingMode.gcm.text),
        .importKey provider (Bytes.zeros 32), .openProvider aesAlgorithm .none,
        .closeProvider (.issuedAfter 3), .closeProvider provider,
        .crypt .encrypt (.issuedAfter 2) (Bytes.zeros 16) (Bytes.zeros 16),
        .destroyKey (.issuedAfter 2)]
    let token := (fresh {}).afterCalls (before ++ .importKey provider (Bytes.zeros 16) :: later)
    token.providers.get? provider = some .gcm ∧ token.counters = [1, 1, 2, 2] ∧
      ∀ request : KeyRequest,
        request.answerOn token key = request.answerOf .ecb (Bytes.zeros 16) :=
  ⟨by decide +kernel, by decide +kernel,
    live_key_answers_as_imported (by decide +kernel) (by decide +kernel) (by decide +kernel)
      (by decide +kernel)⟩

end Token

end CipherModes
