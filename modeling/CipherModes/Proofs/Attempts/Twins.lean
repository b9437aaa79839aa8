import CipherModes.Proofs.Attempts.Likewise
import CipherModes.Proofs.Attempts.Planned
import CipherModes.Proofs.Token.LiveKeys
import CipherModes.Workspace.Item

/-!
# Objects that differ in their handles

What a cipher or a GCM does on a token is settled by the material of its key.
Objects that differ in nothing but the handles of their keys, and the same
object on two tokens, serve likewise as long as the keys are of the same
material and the same calls fail.
-/

set_option autoImplicit false

namespace CipherModes

/-! ## Calls on a key -/

/-- The request is for blocks or a message. -/
def KeyRequest.UsesKey : KeyRequest → Prop
  | property .. => False
  | crypt .. | sealMessage .. | openMessage .. => True

theorem KeyRequest.operation_call (request : KeyRequest) (key : Handle) :
    (request.call key).operation = request.operation := by
  cases request with
  | crypt direction => cases direction <;> rfl
  | property | sealMessage | openMessage => rfl

namespace Token

variable {token other : Token} {key twin : Handle}

theorem get?_of_same (same : token.material? key = other.material? twin) :
    token.keys.get? key = none ∧ other.keys.get? twin = none ∨
      ∃ provider bits provider' bits' material,
        token.keys.get? key = some ⟨provider, bits, material⟩ ∧
        other.keys.get? twin = some ⟨provider', bits', material⟩ := by
  cases live : token.keys.get? key with
  | none =>
      have absent : other.keys.get? twin = none := by
        rw [material?, live, material?] at same
        exact Option.map_eq_none_iff.mp same.symm
      exact .inl ⟨rfl, absent⟩
  | some object =>
      have made : other.material? twin = some object.material := by
        rw [← same, material?, live]
        rfl
      obtain ⟨provider, bits, found⟩ := material?_eq_some_iff.mp made
      exact .inr ⟨_, _, provider, bits, _, rfl, found⟩

theorem answer_alike {request : KeyRequest} (uses : request.UsesKey)
    (same : token.material? key = other.material? twin) :
    (token.answer (request.call key)).1.Alike (other.answer (request.call twin)).1 := by
  have found := get?_of_same same
  -- The buffers are looked at first, on either token alike. Then the material decides.
  cases request with
  | property => cases uses
  | crypt direction input output =>
      simp only [KeyRequest.call, answer, crypt]
      split
      · cases direction <;> exact ⟨rfl, rfl, rfl⟩
      · split
        · cases direction <;> exact ⟨rfl, rfl, rfl⟩
        · obtain ⟨missing, absent⟩ | ⟨_, _, _, _, material, live, alive⟩ := found
          · simp only [missing, absent]
            cases direction <;> exact ⟨rfl, rfl, rfl⟩
          · simp only [live, alive]
            cases material <;> cases direction <;> exact ⟨rfl, rfl, rfl⟩
  | sealMessage nonce aad buffer tag =>
      simp only [KeyRequest.call, answer, aeadEncrypt]
      split
      · exact ⟨rfl, rfl, rfl⟩
      · split
        · exact ⟨rfl, rfl, rfl⟩
        · obtain ⟨missing, absent⟩ | ⟨_, _, _, _, material, live, alive⟩ := found
          · simp only [missing, absent]
            exact ⟨rfl, rfl, rfl⟩
          · simp only [live, alive]
            cases material <;> exact ⟨rfl, rfl, rfl⟩
  | openMessage nonce aad buffer tag =>
      simp only [KeyRequest.call, answer, aeadDecrypt]
      split
      · exact ⟨rfl, rfl, rfl⟩
      · split
        · exact ⟨rfl, rfl, rfl⟩
        · obtain ⟨missing, absent⟩ | ⟨_, _, _, _, material, live, alive⟩ := found
          · simp only [missing, absent]
            exact ⟨rfl, rfl, rfl⟩
          · simp only [live, alive]
            cases material with
            | blocks => exact ⟨rfl, rfl, rfl⟩
            | sealing schedule =>
                dsimp only
                cases Gcm.openDetached? schedule.encrypt nonce aad buffer tag <;>
                  exact ⟨rfl, rfl, rfl⟩

theorem unchanged_of_uses {request : KeyRequest} (uses : request.UsesKey) :
    (token.answer (request.call key)).2 = token := by
  have effect := token.answer_effect (request.call key)
  generalize (token.answer (request.call key)).2 = next at effect
  cases request with
  | property => cases uses
  | crypt | sealMessage | openMessage =>
      cases effect
      rfl

end Token

/-! ## Behind a plan -/

namespace Plan

variable {plan : Plan} {key twin : Handle}

/-- The keys are made of the same, and from now on the same calls on them fail: none at all, or
those of the same numbers. -/
structure Pairs (plan : Plan) (key twin : Handle) (state other : Interposed Token) : Prop where
  counted : plan.Calm ∨ state.made = other.made
  material : state.inner.material? key = other.inner.material? twin

theorem answer?_of_uses (plan : Plan) {request : KeyRequest} (uses : request.UsesKey)
    (key : Handle) (made : List Operation) :
    plan.answer? made (request.call key) =
      (plan.fault request.operation (made.count request.operation + 1)).map .fail := by
  unfold answer?
  rw [request.operation_call]
  cases plan.fault request.operation (made.count request.operation + 1) with
  | some status => rfl
  | none =>
      cases request with
      | property => cases uses
      | crypt | sealMessage | openMessage => rfl

theorem unchanged_of_uses (plan : Plan) (request : KeyRequest) (uses : request.UsesKey)
    (key : Handle) (state : Interposed Token) :
    ((Token.backend.interposed plan).answer (request.call key) state).2.inner = state.inner := by
  cases planned : plan.answer? state.made (request.call key) with
  | some reply => rw [Backend.Accounting.answer_of_planned planned]
  | none =>
      rw [Backend.Accounting.answer_of_unplanned planned]
      exact Token.unchanged_of_uses uses

theorem call_likewise (plan : Plan) (request : KeyRequest) (uses : request.UsesKey)
    (key twin : Handle) :
    Likewise (plan.Pairs key twin) Reply.Alike
      ((Token.backend.interposed plan).call (request.call key))
      ((Token.backend.interposed plan).call (request.call twin)) := by
  intro state other pairs
  obtain ⟨counted, material⟩ := pairs
  -- Both calls are of the same operation, so the plan makes both of them fail or neither.
  have fails : plan.fault request.operation (state.made.count request.operation + 1) =
      plan.fault request.operation (other.made.count request.operation + 1) := by
    obtain calm | same := counted
    · rw [calm, calm]
    · rw [same]
  have counts : plan.Calm ∨ (request.call key).operation :: state.made =
      (request.call twin).operation :: other.made := by
    rw [request.operation_call, request.operation_call]
    exact counted.imp_right (congrArg _)
  have planned := plan.answer?_of_uses uses key state.made
  have twinPlanned := plan.answer?_of_uses uses twin other.made
  rw [fails] at planned
  simp only [Backend.call]
  cases failing : plan.fault request.operation (other.made.count request.operation + 1) with
  | some status =>
      rw [failing, Option.map_some] at planned twinPlanned
      rw [Backend.Accounting.answer_of_planned planned,
        Backend.Accounting.answer_of_planned twinPlanned]
      refine ⟨⟨?_, ?_, ?_⟩, counts, material⟩
      · rw [Reply.fail, Reply.fail, request.operation_call, request.operation_call]
        rfl
      · cases request <;> rfl
      · cases request <;> rfl
  | none =>
      rw [failing, Option.map_none] at planned twinPlanned
      rw [Backend.Accounting.answer_of_unplanned planned,
        Backend.Accounting.answer_of_unplanned twinPlanned]
      refine ⟨Token.answer_alike uses material, counts, ?_⟩
      simp only [Token.backend, Token.unchanged_of_uses uses]
      exact material

end Plan

/-! ## Objects -/

/-- The keys differ in nothing but their handles. -/
structure ImportedKey.Alike (key twin : ImportedKey) : Prop where
  algorithm : key.provider.algorithm = twin.provider.algorithm
  bits : key.bits = twin.bits

section

variable {σ : Type}

namespace AesCipher

/-- The ciphers differ in nothing but the handles of their keys. -/
structure Alike (cipher twin : AesCipher) : Prop where
  key : cipher.key.Alike twin.key
  engine : cipher.engine = twin.engine
  secret : cipher.secret = twin.secret
  blockSize : cipher.blockSize = twin.blockSize

/-- Blocks, streams and messages over the one cipher and over the other come out the same. -/
structure ServesLikewise (backend : Backend σ) (related : σ → σ → Prop)
    (cipher twin : AesCipher) : Prop where
  cryptBlock : ∀ direction source destination,
    Likewise related Eq (cipher.cryptBlock backend direction source destination)
      (twin.cryptBlock backend direction source destination)
  crypt : ∀ (stream : Cbc) source destination,
    Likewise related Eq (stream.crypt (cipher.blockCipher backend) source destination)
      (stream.crypt (twin.blockCipher backend) source destination)
  cryptInPlace : ∀ (stream : Cbc) buffer,
    Likewise related Eq (stream.cryptInPlace (cipher.blockCipher backend) buffer)
      (stream.cryptInPlace (twin.blockCipher backend) buffer)
  derive : ∀ nonceSize tagSize,
    Likewise related Eq (Gcm.Blockwise.derive (cipher.blockCipher backend) nonceSize tagSize)
      (Gcm.Blockwise.derive (twin.blockCipher backend) nonceSize tagSize)
  sealInto : ∀ (mode : Gcm.Blockwise) destination nonce plaintext aad,
    Likewise related Eq
      (mode.sealInto (cipher.blockCipher backend) destination nonce plaintext aad)
      (mode.sealInto (twin.blockCipher backend) destination nonce plaintext aad)
  openInto : ∀ (mode : Gcm.Blockwise) destination nonce sealedText aad,
    Likewise related Eq
      (mode.openInto (cipher.blockCipher backend) destination nonce sealedText aad)
      (mode.openInto (twin.blockCipher backend) destination nonce sealedText aad)

end AesCipher

namespace Gcm

inductive Alike : Gcm → Gcm → Prop
  | native {key twin : ImportedKey} (keys : key.Alike twin) : Alike (native key) (native twin)
  | blockwise {cipher twin : AesCipher} (ciphers : cipher.Alike twin) (mode : Blockwise) :
      Alike (blockwise cipher mode) (blockwise twin mode)

structure ServesLikewise (backend : Backend σ) (related : σ → σ → Prop) (gcm twin : Gcm) :
    Prop where
  sealInto : ∀ destination nonce plaintext aad,
    Likewise related Eq (gcm.sealInto backend destination nonce plaintext aad)
      (twin.sealInto backend destination nonce plaintext aad)
  openInto : ∀ destination nonce sealedText aad,
    Likewise related Eq (gcm.openInto backend destination nonce sealedText aad)
      (twin.openInto backend destination nonce sealedText aad)

namespace Ordered

structure Alike (ordered twin : Ordered) : Prop where
  gcm : ordered.gcm.Alike twin.gcm
  minNext : ordered.minNext = twin.minNext

/-- At any bound they go likewise, and come to the same bound. -/
structure ServesLikewise (backend : Backend σ) (related : σ → σ → Prop)
    (ordered twin : Ordered) : Prop where
  sealInto : ∀ bound destination nonce plaintext aad,
    Likewise related
      (fun outcome other => outcome.1 = other.1 ∧ outcome.2.1 = other.2.1 ∧
        ∃ next, outcome.2.2 = { ordered with minNext := next } ∧
          other.2.2 = { twin with minNext := next })
      (Ordered.sealInto backend { ordered with minNext := bound } destination nonce plaintext aad)
      (Ordered.sealInto backend { twin with minNext := bound } destination nonce plaintext aad)
  openInto : ∀ destination nonce sealedText aad,
    Likewise related Eq (ordered.openInto backend destination nonce sealedText aad)
      (twin.openInto backend destination nonce sealedText aad)

end Ordered

end Gcm

end

/-! ## Objects over keys of the same material -/

section

variable (plan : Plan)

namespace AesCipher

variable {cipher twin : AesCipher}

theorem blockCipher_paired (sizes : cipher.blockSize = twin.blockSize) :
    (cipher.blockCipher (Token.backend.interposed plan)).Paired
      (fun {_ _} => Likewise (plan.Pairs cipher.key.raw twin.key.raw))
      (twin.blockCipher (Token.backend.interposed plan)) := by
  apply (Likewise.pairing _).blockCipher sizes
  exact fun direction input output =>
    plan.call_likewise (.crypt direction input output) trivial cipher.key.raw twin.key.raw

theorem servesLikewise (alike : cipher.Alike twin) :
    cipher.ServesLikewise (Token.backend.interposed plan)
      (plan.Pairs cipher.key.raw twin.key.raw) twin := by
  have ciphers := blockCipher_paired plan alike.blockSize
  have pairing := Likewise.pairing (plan.Pairs cipher.key.raw twin.key.raw)
  exact ⟨pairing.cipherBlock ciphers, pairing.crypt ciphers, pairing.cryptInPlace ciphers,
    pairing.derive ciphers, pairing.sealInto ciphers, pairing.openInto ciphers⟩

end AesCipher

namespace Gcm

variable {gcm twin : Gcm}

theorem Alike.paired (alike : gcm.Alike twin) :
    gcm.Paired (Token.backend.interposed plan) (Token.backend.interposed plan)
      (fun {_ _} => Likewise (plan.Pairs gcm.ownedKey.raw twin.ownedKey.raw)) twin := by
  cases alike with
  | blockwise ciphers mode =>
      exact .blockwise mode (AesCipher.blockCipher_paired plan ciphers.blockSize)
  | @native key other keys =>
      constructor
      · exact fun nonce aad buffer tag =>
          plan.call_likewise (.sealMessage nonce aad buffer tag) trivial key.raw other.raw
      · exact fun nonce aad buffer tag =>
          plan.call_likewise (.openMessage nonce aad buffer tag) trivial key.raw other.raw

theorem servesLikewise (alike : gcm.Alike twin) :
    gcm.ServesLikewise (Token.backend.interposed plan)
      (plan.Pairs gcm.ownedKey.raw twin.ownedKey.raw) twin := by
  have pairing := Likewise.pairing (plan.Pairs gcm.ownedKey.raw twin.ownedKey.raw)
  exact ⟨pairing.sealMessage (alike.paired plan), pairing.openMessage (alike.paired plan)⟩

theorem Ordered.servesLikewise {ordered twin : Ordered} (alike : ordered.Alike twin) :
    ordered.ServesLikewise (Token.backend.interposed plan)
      (plan.Pairs ordered.gcm.ownedKey.raw twin.gcm.ownedKey.raw) twin := by
  have pairing := Likewise.pairing (plan.Pairs ordered.gcm.ownedKey.raw twin.gcm.ownedKey.raw)
  have paired := alike.gcm.paired plan
  constructor
  case openInto => exact pairing.openMessage paired
  case sealInto =>
    intro bound destination nonce plaintext aad
    have atBound : { ordered with minNext := bound }.gcm.Paired (Token.backend.interposed plan)
        (Token.backend.interposed plan)
        (fun {_ _} => Likewise (plan.Pairs ordered.gcm.ownedKey.raw twin.gcm.ownedKey.raw))
        { twin with minNext := bound }.gcm := paired
    exact pairing.sealOrdered atBound rfl _ _ _ _

end Gcm

end

end CipherModes
