import CipherModes.Proofs.Attempts.Twins
import CipherModes.Proofs.Histories.Recipes

/-!
# Objects of the same recipe

Two objects that were made by one recipe, each in front of a token of its own,
are asked the same. Unless a call fails that its token would have answered, all
answers on the way are alike, and so is what comes of them.
-/

set_option autoImplicit false

namespace CipherModes

open Workspace (throughBuffer plain)

/-! ## Operations that nothing hinders -/

/-- The call succeeded, or the token itself refused it. -/
def Event.Unhindered (token : Token) (event : Event) : Prop :=
  event.reply.result.isOk = true ∨ event.reply = (token.answer event.call).1

variable {σ τ : Type} {backend : Backend σ} {other : Backend τ} {front : backend.Fronting}
  {twin : other.Fronting} {token second : Token}

/-- Asked on these tokens, both operations add to their records. Unless something hinders a call,
they come to values that are alike and leave the tokens as they are. -/
structure Agrees (front : backend.Fronting) (twin : other.Fronting) (token second : Token)
    {α β : Type} (alike : α → β → Prop) (operation : StateM (Recorded σ) α)
    (asked : StateM (Recorded τ) β) : Prop where
  records : ∀ state, state.events ⊆ (operation state).2.events
  twinRecords : ∀ state, state.events ⊆ (asked state).2.events
  agree : ∀ state last, front.token state.inner = token → twin.token last.inner = second →
    (∀ event ∈ (operation state).2.events, event.Unhindered token) →
    (∀ event ∈ (asked last).2.events, event.Unhindered second) →
      alike (operation state).1 (asked last).1 ∧
        front.token (operation state).2.inner = token ∧ twin.token (asked last).2.inner = second

namespace Agrees

theorem pairing (front : backend.Fronting) (twin : other.Fronting) (token second : Token) :
    Pairing (fun {_ _} => Agrees front twin token second) where
  mono first weaken :=
    ⟨first.records, first.twinRecords, fun state last same still calm quiet =>
      (first.agree state last same still calm quiet).imp_left (weaken _ _)⟩
  pure holds :=
    ⟨fun _ => List.Subset.refl _, fun _ => List.Subset.refl _,
      fun _ _ same still _ _ => ⟨holds, same, still⟩⟩
  bind := by
    intro α β γ δ between alike operation asked rest others covers first next
    -- Every value is alike to some, so the second parts add to the records whatever came first.
    have later (value : γ) (state : Recorded σ) : state.events ⊆ (rest value state).2.events := by
      obtain ⟨answer, holds⟩ := covers.left value
      exact (next value answer holds).records state
    have twinLater (answer : δ) (state : Recorded τ) :
        state.events ⊆ (others answer state).2.events := by
      obtain ⟨value, holds⟩ := covers.right answer
      exact (next value answer holds).twinRecords state
    constructor
    · exact fun state => List.Subset.trans (first.records state) (later _ _)
    · exact fun state => List.Subset.trans (first.twinRecords state) (twinLater _ _)
    · intro state last same still calm quiet
      obtain ⟨holds, same, still⟩ := first.agree state last same still
        (fun event member => calm event (later _ _ member))
        (fun event member => quiet event (twinLater _ _ member))
      exact (next _ _ holds).agree _ _ same still calm quiet

variable (fails : front.OnlyFails) (twinFails : twin.OnlyFails)

omit twin in
/-- A call on a key that nothing hinders is answered by the token, which stays as it is. -/
theorem answered_of_unhindered (fails : front.OnlyFails) {request : KeyRequest}
    (uses : request.UsesKey) {key : Handle} {state : σ}
    (calm : Event.Unhindered (front.token state)
      ⟨request.call key, (backend.answer (request.call key) state).1⟩) :
    (backend.answer (request.call key) state).1 =
        ((front.token state).answer (request.call key)).1 ∧
      front.token (backend.answer (request.call key) state).2 = front.token state := by
  have effect := (front.answered (request.call key) state).effect
  have unchanged : front.token (backend.answer (request.call key) state).2 = front.token state := by
    generalize front.token (backend.answer (request.call key) state).2 = next at effect
    cases request with
    | property => cases uses
    | crypt | sealMessage | openMessage =>
        cases effect
        rfl
  refine ⟨?_, unchanged⟩
  rcases calm with succeeded | same
  · cases result : (backend.answer (request.call key) state).1.result with
    | error error =>
        rw [result] at succeeded
        cases succeeded
    | ok value => exact (fails.of_ok result).1
  · exact same

include fails twinFails

theorem call {request : KeyRequest} (uses : request.UsesKey) {key other' : Handle}
    (same : token.material? key = second.material? other') :
    Agrees front twin token second Reply.Alike (backend.recorded.call (request.call key))
      (other.recorded.call (request.call other')) := by
  constructor
  · exact fun state => List.subset_append_left ..
  · exact fun state => List.subset_append_left ..
  · rintro state last rfl rfl calm quiet
    have made := calm _ (List.mem_append_right _ (.head _))
    have twinMade := quiet _ (List.mem_append_right _ (.head _))
    obtain ⟨reply, still⟩ := answered_of_unhindered fails uses made
    obtain ⟨answer, twinStill⟩ := answered_of_unhindered twinFails uses twinMade
    refine ⟨?_, still, twinStill⟩
    have alike := Token.answer_alike uses same
    rw [← reply, ← answer] at alike
    exact alike

theorem blockCipher {cipher peer : AesCipher} {schedule : Aes.Schedule}
    (sizes : cipher.blockSize = peer.blockSize)
    (live : token.material? cipher.key.raw = some (.blocks schedule))
    (twinLive : second.material? peer.key.raw = some (.blocks schedule)) :
    (cipher.blockCipher backend.recorded).Paired (fun {_ _} => Agrees front twin token second)
      (peer.blockCipher other.recorded) := by
  apply (pairing front twin token second).blockCipher sizes
  intro direction input output
  have uses : (KeyRequest.crypt direction input output).UsesKey := trivial
  exact call fails twinFails uses (live.trans twinLive.symm)

theorem blockwise {cipher peer : AesCipher} {mode peerMode : Gcm.Blockwise}
    {schedule : Aes.Schedule} (keyed : mode.KeyedBy cipher schedule token)
    (twinKeyed : peerMode.KeyedBy peer schedule second)
    (nonces : mode.nonceSize = peerMode.nonceSize) (tags : mode.tagSize = peerMode.tagSize) :
    mode = peerMode ∧ (cipher.blockCipher backend.recorded).Paired
      (fun {_ _} => Agrees front twin token second) (peer.blockCipher other.recorded) := by
  constructor
  · obtain ⟨hashKey, nonceSize, tagSize⟩ := mode
    obtain rfl : hashKey = peerMode.hashKey := keyed.hashKey_eq.trans twinKeyed.hashKey_eq.symm
    obtain rfl : nonceSize = peerMode.nonceSize := nonces
    obtain rfl : tagSize = peerMode.tagSize := tags
    rfl
  · exact blockCipher fails twinFails (keyed.cipherSize.trans twinKeyed.cipherSize.symm) keyed.made
      twinKeyed.made

theorem gcm {mode peer : Gcm} {schedule : Aes.Schedule} (keyed : mode.KeyedBy schedule token)
    (twinKeyed : peer.KeyedBy schedule second) (kinds : mode.isNative = peer.isNative)
    (nonces : mode.nonceSize = peer.nonceSize) (tags : mode.tagSize = peer.tagSize) :
    mode.Paired backend.recorded other.recorded (fun {_ _} => Agrees front twin token second)
      peer := by
  cases keyed with
  | native live =>
      cases twinKeyed with
      | blockwise _ => cases kinds
      | native twinLive =>
          have same := live.trans twinLive.symm
          constructor
          · intro nonce aad buffer tag
            have uses : (KeyRequest.sealMessage nonce aad buffer tag).UsesKey := trivial
            exact call fails twinFails uses same
          · intro nonce aad buffer tag
            have uses : (KeyRequest.openMessage nonce aad buffer tag).UsesKey := trivial
            exact call fails twinFails uses same
  | blockwise keyed =>
      cases twinKeyed with
      | native _ => cases kinds
      | blockwise twinKeyed =>
          obtain ⟨rfl, ciphers⟩ := blockwise fails twinFails keyed twinKeyed nonces tags
          exact .blockwise _ ciphers

end Agrees

/-! ## Objects in use -/

/-- What can be asked of a cipher or a GCM. -/
inductive Use
  | cryptBlock (direction : Direction) (source destination : Bytes)
  | sealMessage (destination nonce plaintext aad : Bytes) (replaces : Bool)
  | openMessage (destination nonce sealedText aad : Bytes) (replaces : Bool)

namespace Use

def IsSeal : Use → Prop
  | sealMessage .. => True
  | cryptBlock .. | openMessage .. => False

/-- Blocks are asked of ciphers, messages of GCMs. -/
def Suits : Use → Recipe → Prop
  | cryptBlock .., .cipher _ => True
  | cryptBlock .., _ => False
  | sealMessage .., .cipher _ | openMessage .., .cipher _ => False
  | sealMessage .., _ | openMessage .., _ => True

/-- The command that asks it of the object of a name. -/
def command (name : String) : Use → Command
  | cryptBlock direction source destination => .cryptBlock direction name source destination
  | sealMessage destination nonce plaintext aad replaces =>
      .sealMessage name destination nonce plaintext aad replaces
  | openMessage destination nonce sealedText aad replaces =>
      .openMessage name destination nonce sealedText aad replaces

/-- Writes through a buffer, and tells the result and the destination. -/
def tell {α : Type} (replaces : Bool) (destination : Bytes)
    (operation : Bytes → StateM σ (Except Fault Unit × Bytes × α)) :
    StateM σ (Option (Except Fault Unit × Bytes)) := do
  let (result, output, _) ← throughBuffer replaces destination operation
  return some (result, output)

/-- What is done with a cipher or a GCM: the result and the destination, if it can be asked this. -/
def run (backend : Backend σ) (use : Use) (item : Item) :
    StateM σ (Option (Except Fault Unit × Bytes)) :=
  match use, item with
  | cryptBlock direction source destination, .cipher aes => do
      let outcome ← aes.cryptBlock backend direction source destination
      return some outcome
  | sealMessage destination nonce plaintext aad replaces, .gcm mode =>
      tell replaces destination
        fun buffer => plain (mode.sealInto backend buffer nonce plaintext aad)
  | sealMessage destination nonce plaintext aad _, .blockwise aes mode => do
      let outcome ← mode.sealInto (aes.blockCipher backend) destination nonce plaintext aad
      return some outcome
  | sealMessage destination nonce plaintext aad replaces, .ordered mode =>
      tell replaces destination fun buffer => mode.sealInto backend buffer nonce plaintext aad
  | openMessage destination nonce sealedText aad replaces, .gcm mode =>
      tell replaces destination
        fun buffer => plain (mode.openInto backend buffer nonce sealedText aad)
  | openMessage destination nonce sealedText aad _, .blockwise aes mode => do
      let outcome ← mode.openInto (aes.blockCipher backend) destination nonce sealedText aad
      return some outcome
  | openMessage destination nonce sealedText aad replaces, .ordered mode =>
      tell replaces destination
        fun buffer => plain (mode.openInto backend buffer nonce sealedText aad)
  | _, _ => return none

end Use

namespace Pairing

variable {related : {α β : Type} → (α → β → Prop) → StateM σ α → StateM τ β → Prop}
  (pairing : Pairing related)
include pairing

theorem tell {α : Type} {replaces : Bool} {destination : Bytes}
    {operation : Bytes → StateM σ (Except Fault Unit × Bytes × α)}
    {twin : Bytes → StateM τ (Except Fault Unit × Bytes × α)} (alike : α → α → Prop)
    (reflexive : ∀ value, alike value value)
    (each : ∀ buffer, related (Alongside alike) (operation buffer) (twin buffer)) :
    related Eq (Use.tell replaces destination operation) (Use.tell replaces destination twin) := by
  have covers : Covers alike :=
    ⟨fun value => ⟨value, reflexive value⟩, fun value => ⟨value, reflexive value⟩⟩
  apply pairing.bind covers.alongside (pairing.throughBuffer covers each)
  intro outcome other same
  obtain ⟨result, output, rest⟩ := outcome
  obtain ⟨rfl, rfl, -⟩ := same
  exact pairing.same _

variable {backend : Backend σ} {other : Backend τ}

theorem useCipher {cipher twin : AesCipher}
    (ciphers : (cipher.blockCipher backend).Paired related (twin.blockCipher other)) (use : Use) :
    related Eq (use.run backend (.cipher cipher)) (use.run other (.cipher twin)) := by
  cases use with
  | cryptBlock =>
      exact pairing.andThen (pairing.cipherBlock ciphers _ _ _) fun _ => pairing.same _
  | sealMessage | openMessage => exact pairing.same _

theorem useBlockwise {cipher twin : AesCipher}
    (ciphers : (cipher.blockCipher backend).Paired related (twin.blockCipher other))
    (mode : Gcm.Blockwise) (use : Use) :
    related Eq (use.run backend (.blockwise cipher mode))
      (use.run other (.blockwise twin mode)) := by
  cases use with
  | cryptBlock => exact pairing.same _
  | sealMessage =>
      exact pairing.andThen (pairing.sealInto ciphers mode _ _ _ _) fun _ => pairing.same _
  | openMessage =>
      exact pairing.andThen (pairing.openInto ciphers mode _ _ _ _) fun _ => pairing.same _

theorem useGcm {gcm twin : Gcm} (paired : gcm.Paired backend other related twin) (use : Use) :
    related Eq (use.run backend (.gcm gcm)) (use.run other (.gcm twin)) := by
  cases use with
  | cryptBlock => exact pairing.same _
  | sealMessage =>
      exact pairing.tell Eq (fun _ => rfl) fun _ =>
        pairing.plain (pairing.sealMessage paired _ _ _ _)
  | openMessage =>
      exact pairing.tell Eq (fun _ => rfl) fun _ =>
        pairing.plain (pairing.openMessage paired _ _ _ _)

theorem useOrdered {ordered twin : Gcm.Ordered}
    (paired : ordered.gcm.Paired backend other related twin.gcm) (use : Use)
    (bound : use.IsSeal → ordered.minNext = twin.minNext) :
    related Eq (use.run backend (.ordered ordered)) (use.run other (.ordered twin)) := by
  cases use with
  | cryptBlock => exact pairing.same _
  | sealMessage =>
      apply pairing.tell fun next last => next.minNext = last.minNext
      · exact fun _ => rfl
      · intro buffer
        apply pairing.mono (pairing.sealOrdered paired (bound trivial) _ _ _ _)
        intro outcome other alike
        obtain ⟨result, output, least, next, last⟩ := alike
        rw [Alongside, next, last]
        exact ⟨result, output, rfl⟩
  | openMessage =>
      exact pairing.tell Eq (fun _ => rfl) fun _ =>
        pairing.plain (pairing.openMessage paired _ _ _ _)

end Pairing

/-! ## Objects of one recipe -/

/-- The least nonce that a GCM with ordered nonces may still use. -/
def Item.minNext? : Item → Option Nat
  | ordered mode => some mode.minNext
  | _ => none

/-- Objects of one recipe do the same, if they seal from the same nonce on. -/
theorem Item.MadeBy.agrees (fails : front.OnlyFails) (twinFails : twin.OnlyFails)
    {blockLength : Nat} {recipe : Recipe} {item peer : Item}
    (made : item.MadeBy blockLength token recipe) (twinMade : peer.MadeBy blockLength second recipe)
    (use : Use) (bound : use.IsSeal → item.minNext? = peer.minNext?) :
    Agrees front twin token second Eq (use.run backend.recorded item)
      (use.run other.recorded peer) := by
  have pairing := Agrees.pairing front twin token second
  cases made with
  | cipher expanded keeps size live =>
      cases twinMade with
      | cipher twinExpanded twinKeeps twinSize twinLive =>
          cases expanded.symm.trans twinExpanded
          have sizes := size.trans twinSize.symm
          exact pairing.useCipher (Agrees.blockCipher fails twinFails sizes live twinLive) use
  | gcm expanded nonces tags native keyed =>
      cases twinMade with
      | gcm twinExpanded twinNonces twinTags twinNative twinKeyed =>
          cases expanded.symm.trans twinExpanded
          have kinds := Bool.eq_iff_iff.mpr (native.trans twinNative.symm)
          exact pairing.useGcm (Agrees.gcm fails twinFails keyed twinKeyed kinds
            (nonces.trans twinNonces.symm) (tags.trans twinTags.symm)) use
  | blockwise expanded nonces tags keyed =>
      cases twinMade with
      | blockwise twinExpanded twinNonces twinTags twinKeyed =>
          cases expanded.symm.trans twinExpanded
          obtain ⟨rfl, ciphers⟩ := Agrees.blockwise fails twinFails keyed twinKeyed
            (nonces.trans twinNonces.symm) (tags.trans twinTags.symm)
          exact pairing.useBlockwise ciphers _ use
  | ordered expanded native keyed =>
      cases twinMade with
      | ordered twinExpanded twinNative twinKeyed =>
          cases expanded.symm.trans twinExpanded
          obtain ⟨nonces, tags⟩ := Gcm.sizes_of_isNative native
          obtain ⟨twinNonces, twinTags⟩ := Gcm.sizes_of_isNative twinNative
          have modes := Agrees.gcm fails twinFails keyed twinKeyed (native.trans twinNative.symm)
            (nonces.trans twinNonces.symm) (tags.trans twinTags.symm)
          exact pairing.useOrdered modes use fun isSeal => Option.some.inj (bound isSeal)

end CipherModes
