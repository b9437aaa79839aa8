import CipherModes.Proofs.Accounts.Quiet
import CipherModes.Proofs.Gcm.Keyed
import CipherModes.Proofs.Usage.Fronting
import CipherModes.Proofs.Usage.Serving

/-!
# Calls that fit

A call fits a token if its key is live and was made for the call, or its
provider is open in the mode that a cache knows it by. On a call that fits a
token never reports the handle, nor that parameters do not match. Whoever has a
key in custody makes fitting calls with it, and they take nothing from others.
-/

set_option autoImplicit false

namespace CipherModes

namespace Token

variable {token : Token} {call : Call} {knows : ChainingMode → Handle → Prop}

/-- The call is one for the key or the provider that it names. Providers are known by a mode. -/
def Fits (knows : ChainingMode → Handle → Prop) (token : Token) : Call → Prop
  | .crypt _ key _ _ => token.Keyed key .ecb
  | .aeadEncrypt key nonce _ _ tag | .aeadDecrypt key nonce _ _ tag =>
      token.Keyed key .gcm ∧ nonce.length = Gcm.standardNonceSize ∧
        tag.length = Gcm.standardTagSize
  | .importKey provider _ => ∃ mode, mode.OfEngine ∧ knows mode provider ∧
      token.providers.get? provider = some mode
  | _ => True

theorem Fits.mono {others : ChainingMode → Handle → Prop} (fits : token.Fits knows call)
    (known : ∀ mode handle, knows mode handle → others mode handle) : token.Fits others call := by
  cases call with
  | importKey provider secret =>
      obtain ⟨mode, ofEngine, named, present⟩ := fits
      exact ⟨mode, ofEngine, known mode provider named, present⟩
  | _ => exact fits

theorem Keyed.blocks {key : Handle} (keyed : token.Keyed key .ecb) :
    ∃ provider bits schedule, token.keys.get? key = some ⟨provider, bits, .blocks schedule⟩ := by
  obtain ⟨⟨provider, bits, material⟩, secret, present, made⟩ := keyed
  obtain ⟨schedule, -, ⟨-, rfl⟩ | ⟨other, -⟩⟩ := KeyMaterial.ofSecret_eq_ok made
  · exact ⟨provider, bits, schedule, present⟩
  · cases other

theorem Keyed.sealing {key : Handle} (keyed : token.Keyed key .gcm) :
    ∃ provider bits schedule, token.keys.get? key = some ⟨provider, bits, .sealing schedule⟩ := by
  obtain ⟨⟨provider, bits, material⟩, secret, present, made⟩ := keyed
  obtain ⟨schedule, -, ⟨other, -⟩ | ⟨-, rfl⟩⟩ := KeyMaterial.ofSecret_eq_ok made
  · cases other
  · exact ⟨provider, bits, schedule, present⟩

/-- A call that uses a key that fits is refused for its sizes or its tag only. -/
theorem status?_of_fits (fits : token.Fits knows call)
    (uses : call.operation ∈ [.encrypt, .decrypt, .aeadEncrypt, .aeadDecrypt]) :
    (token.answer call).1.status? ≠ some .invalidHandle ∧
      (token.answer call).1.status? ≠ some .invalidParameter := by
  cases call with
  | crypt direction key input output =>
      obtain ⟨provider, bits, schedule, present⟩ := Keyed.blocks fits
      simp only [answer, crypt, present]
      repeat' split
      all_goals
        constructor <;> intro refused <;> cases refused
  | aeadEncrypt key nonce aad buffer tag =>
      obtain ⟨keyed, nonceSize, tagSize⟩ := fits
      obtain ⟨provider, bits, schedule, present⟩ := keyed.sealing
      have lengths : aeadLengths nonce tag = true := by simp [aeadLengths, nonceSize, tagSize]
      simp only [answer, aeadEncrypt, present, lengths, not_true_eq_false, if_false]
      split <;> constructor <;> intro refused <;> cases refused
  | aeadDecrypt key nonce aad buffer tag =>
      obtain ⟨keyed, nonceSize, tagSize⟩ := fits
      obtain ⟨provider, bits, schedule, present⟩ := keyed.sealing
      have lengths : aeadLengths nonce tag = true := by simp [aeadLengths, nonceSize, tagSize]
      simp only [answer, aeadDecrypt, present, lengths, not_true_eq_false, if_false]
      repeat' split
      all_goals
        constructor <;> intro refused <;> cases refused
  | openProvider | closeProvider | importKey | destroyKey | getProperty | setProperty
    | fipsEnabled => simp [Call.operation] at uses

/-- A provider that fits may refuse a secret, but it is there. -/
theorem status?_of_fits_import (fits : token.Fits knows call)
    (imports : call.operation = .importKey) :
    (token.answer call).1.status? ≠ some .invalidHandle := by
  cases call with
  | importKey provider secret =>
      obtain ⟨mode, ofEngine, -, present⟩ := fits
      simp only [answer, importKey, present]
      split
      · cases made : KeyMaterial.ofSecret mode secret with
        | ok material =>
            intro refused
            cases refused
        | error status =>
            have rejected : status = .invalidParameter := by
              rcases ofEngine with rfl | rfl <;> simp only [KeyMaterial.ofSecret] at made <;>
                cases expanded : Aes.Schedule.ofSecret? secret <;> rw [expanded] at made <;>
                cases made
              all_goals rfl
            cases rejected
            intro refused
            cases refused
      · intro refused
        cases refused
  | crypt direction => cases direction <;> cases imports
  | _ => cases imports

end Token

/-! ## Keys in custody -/

/-- Takes nothing back and sets no mode. -/
def Call.Harmless : Call → Prop
  | closeProvider _ | destroyKey _ | setProperty .. => False
  | _ => True

theorem Call.Harmless.spares {call : Call} (harmless : call.Harmless) (custody : List Custody)
    (cached : List (CacheKey × AesAlgorithm)) : call.Spares custody cached := by
  cases call with
  | closeProvider | destroyKey | setProperty => cases harmless
  | _ => exact ⟨fun _ _ _ => nofun, fun _ _ => ⟨nofun, fun _ _ => nofun⟩⟩

/-- A GCM uses a key for whole messages or one for blocks. -/
def Gcm.custody : Gcm → Custody
  | native key => ⟨key, some .gcm⟩
  | blockwise cipher _ => ⟨cipher.key, some .ecb⟩

namespace Backend.Fronting

variable {σ : Type} {backend : Backend σ} {front : backend.Fronting}
  {allowed : Token → Call → Prop} {initial : σ} {knows : ChainingMode → Handle → Prop}
  {custody : List Custody} {cached : List (CacheKey × AesAlgorithm)} {strangers : List Provider}

/-- As long as there are handles left, only allowed calls were made and the token keeps these. -/
abbrev Serving (front : backend.Fronting) (allowed : Token → Call → Prop) (initial : σ)
    (custody : List Custody) (cached : List (CacheKey × AesAlgorithm))
    (strangers : List Provider) : σ → Prop :=
  front.Holds allowed initial (Token.Serves custody cached strangers)

def Admits (allowed : Token → Call → Prop) (knows : ChainingMode → Handle → Prop) : Prop :=
  ∀ token call, token.Fits knows call → allowed token call

theorem Serving.answer {request : Call} {state : σ}
    (serving : front.Serving allowed initial custody cached strangers state)
    (fits : ∀ token, token.Serves custody cached strangers → allowed token request)
    (spares : ∀ token : Token, token.Serves custody cached strangers →
      request.Spares custody cached) :
    front.Serving allowed initial custody cached strangers (backend.answer request state).2 :=
  serving.step fits fun _ _ serves fronted lasts =>
    serves.spared fronted.effect lasts (spares _ serves)

/-- A key is destroyed by its holder, and all others have other keys. -/
theorem Serving.releaseKey {held : Custody} {state : σ} (admits : Admits allowed knows)
    (serving : front.Serving allowed initial (held :: custody) cached strangers state) :
    front.Holds allowed initial
      (fun token => held.key.provider.algorithm = aesAlgorithm ∧
        token.Serves custody cached strangers) (held.key.release backend state).2 := by
  apply serving.step fun token _ => admits token (.destroyKey held.key.raw) trivial
  intro token next serves fronted lasts
  have fewer := serves.shrink (List.sublist_cons_self held custody).subperm
    (List.Subset.refl _) (List.Subset.refl _)
  refine ⟨serves.algorithms _ (.head _), fewer.spared fronted.effect lasts ?_⟩
  constructor
  case keys =>
    intro other member _ same
    have different := (List.nodup_cons.mp serves.once).1
    exact different (List.mem_map.mpr ⟨other, member, (Call.destroyKey.inj same).symm⟩)
  case providers => exact fun _ _ => ⟨nofun, fun _ _ => nofun⟩

/-- An operation leaves everyone what the token keeps for them. -/
def Keeps (front : backend.Fronting) (allowed : Token → Call → Prop) (initial : σ)
    (custody : List Custody) (cached : List (CacheKey × AesAlgorithm)) (strangers : List Provider)
    {α : Type} (operation : StateM σ α) : Prop :=
  Establishes (front.Serving allowed initial custody cached strangers) operation
    fun _ => front.Serving allowed initial custody cached strangers

namespace Keeps

theorem sequential :
    Sequential (fun {_} => front.Keeps allowed initial custody cached strangers) where
  pure _ := .pure fun _ serving => serving
  bind first second := .bind _ first second

theorem of_harmless {α : Type} {operation : StateM σ α} (request : Call)
    (harmless : request.Harmless)
    (fits : ∀ token, token.Serves custody cached strangers → allowed token request)
    (same : ∀ state, (operation state).2 = (backend.answer request state).2) :
    front.Keeps allowed initial custody cached strangers operation := by
  intro state serving
  rw [same]
  exact serving.answer fits fun _ _ => harmless.spares ..

theorem blockCipher (admits : Admits allowed knows) {cipher : AesCipher}
    (held : ⟨cipher.key, some .ecb⟩ ∈ custody) (direction : Direction)
    (source destination : Bytes) :
    front.Keeps allowed initial custody cached strangers
      ((cipher.blockCipher backend).transform direction source destination) := by
  apply of_harmless (.crypt direction cipher.key.raw (source.take cipher.blockSize)
    (destination.take cipher.blockSize)) trivial _ fun _ => rfl
  exact fun token serves => admits token _ (serves.live _ held .ecb rfl)

theorem gcmCalls (admits : Admits allowed knows) {gcm : Gcm} (held : gcm.custody ∈ custody) :
    gcm.CallsHave backend (fun {_} => front.Keeps allowed initial custody cached strangers) := by
  cases gcm with
  | blockwise cipher mode => exact blockCipher admits held
  | native key =>
      intro nonce aad buffer tag nonceSize tagSize
      have fits : ∀ token : Token, token.Serves custody cached strangers →
          token.Keyed key.raw .gcm ∧
            nonce.length = Gcm.standardNonceSize ∧ tag.length = Gcm.standardTagSize :=
        fun _ serves => ⟨serves.live _ held .gcm rfl, nonceSize, tagSize⟩
      constructor
      · apply of_harmless (.aeadEncrypt key.raw nonce aad buffer tag) trivial _ fun _ => rfl
        exact fun token serves => admits token _ (fits token serves)
      · apply of_harmless (.aeadDecrypt key.raw nonce aad buffer tag) trivial _ fun _ => rfl
        exact fun token serves => admits token _ (fits token serves)

end Keeps

end Backend.Fronting

end CipherModes
