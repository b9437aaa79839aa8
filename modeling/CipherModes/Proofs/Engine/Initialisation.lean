import CipherModes.Engine
import CipherModes.Proofs.Action
import CipherModes.Proofs.Backend.Reading
import CipherModes.Proofs.Token.Calls

/-!
# Opening a provider on a token

What the calls of an engine do to a token while a provider is opened and put
into its mode: all other providers are left alone.
-/

set_option autoImplicit false

namespace CipherModes

/-- In whichever way an action ends, the providers that are spared stay as they were. -/
def Action.Spares {α : Type} (spared : Handle → Prop) (action : Action Token α) : Prop :=
  ∀ token, Token.Spares spared token (action token).2

namespace Action.Spares

variable {α β : Type} {spared : Handle → Prop} {action : Action Token α}

theorem bind {rest : α → Action Token β} (first : action.Spares spared)
    (second : ∀ value, (rest value).Spares spared) : (action >>= rest).Spares spared := by
  intro token
  have start := first token
  rw [bind_apply]
  cases ran : action token with
  | mk result middle =>
      rw [ran] at start
      cases result with
      | error error => exact start
      | ok value => exact start.trans (second value middle)

theorem ofExcept (result : Except CipherError α) : Action.Spares spared (.ofExcept result) :=
  fun token => .refl token

end Action.Spares

namespace Provider

variable {spared : Handle → Prop} {provider : Provider} {name text : String} {token next : Token}

theorem getProperty_unchanged (handle : Handle) (name : String) (output : Bytes) (token : Token) :
    (token.answer (.getProperty handle name output)).2 = token := by
  simp only [Token.answer, Token.getProperty]
  repeat' split
  all_goals rfl

/-- Reading a property, whatever is made of its bytes, changes nothing. -/
theorem reading_unchanged {α : Type} (decode : Bytes → α) (handle : Handle) (name : String)
    (size : Nat) (token : Token) :
    (Action.ofCall (decode <$> Token.backend.getExact handle name size) token).2 = token := by
  simp only [Action.ofCall, Backend.reading_apply]
  exact getProperty_unchanged handle name (Bytes.zeros size) token

theorem getWord_unchanged (provider : Provider) (name : String) (token : Token) :
    (provider.getWord Token.backend name token).2 = token :=
  reading_unchanged decodeWord provider.raw name 4 token

theorem getKeyLengths_unchanged (provider : Provider) (token : Token) :
    (provider.getKeyLengths Token.backend token).2 = token :=
  reading_unchanged KeyLengths.decode provider.raw PropertyName.keyLengths KeyLengths.size token

theorem setText_spares (provider : Provider) (name text : String) :
    (provider.setText Token.backend name text).Spares (· ≠ provider.raw) := by
  intro token
  have alone : ∀ other, other ≠ provider.raw →
      (Call.setProperty provider.raw name (encodeWide text)).LeavesAlone other := by
    intro other different
    constructor
    · nofun
    · rintro _ _ same
      cases same
      exact different rfl
  exact .of_answer alone

theorem release_spares (provider : Provider) (token : Token) :
    Token.Spares (· ≠ provider.raw) token (provider.release Token.backend token).2 := by
  have alone : ∀ other, other ≠ provider.raw →
      (Call.closeProvider provider.raw).LeavesAlone other := by
    intro other different
    constructor
    · intro same
      cases same
      exact different rfl
    · nofun
  exact .of_answer alone

theorem acquire_spares (algorithm : String) (flags : ProviderFlags) :
    (acquire Token.backend algorithm flags).Spares fun _ => True := by
  intro token
  have alone : ∀ other : Handle, True → (Call.openProvider algorithm flags).LeavesAlone other :=
    fun _ _ => ⟨nofun, nofun⟩
  have spares : Token.Spares (fun _ => True) token
      (token.answer (.openProvider algorithm flags)).2 := .of_answer alone
  simp only [acquire]
  split
  · exact spares
  · exact spares

/-- A provider that was opened has the handle issued next. -/
theorem acquire_eq_ok {algorithm : String} {flags : ProviderFlags}
    (success : acquire Token.backend algorithm flags token = (.ok provider, next)) :
    provider.raw = .issuedAfter token.issued ∧
      next.handlesIssued = token.handlesIssued + 1 := by
  simp only [acquire, Token.backend, Token.answer, Token.openProvider] at success
  by_cases missing : algorithm ≠ aesAlgorithm ∨ token.settings.disables algorithm
  · simp only [if_pos missing] at success
    cases success
  · by_cases keyed : flags.contains .hmac
    · simp only [if_neg missing, if_pos keyed] at success
      cases success
    · simp only [if_neg missing, if_neg keyed] at success
      cases success
      refine ⟨rfl, ?_⟩
      simp only [Token.handlesIssued]
      omega

/-- A provider that was put into a mode was open, and is in that mode. -/
theorem mode_of_setText {mode : ChainingMode}
    (success : provider.setText Token.backend PropertyName.chainingMode mode.text token =
      (.ok (), next)) :
    next.providers.get? provider.raw = some mode := by
  have decoded : (decodeWide? (encodeWide mode.text)).bind ChainingMode.ofText? = some mode := by
    cases mode <;> rfl
  simp only [setText, Action.ofCall, Backend.setText, Token.backend, Token.answer,
    Token.setProperty] at success
  split at success
  · cases success
  · cases success
  · rename_i present
    simp only [if_true, decoded] at success
    cases success
    exact HandleTable.get?_replace_self present mode

end Provider

namespace AesAlgorithm

variable {provider : Provider} {mode : ChainingMode} {token next : Token}

theorem initialise_spares (provider : Provider) (mode : ChainingMode) :
    (initialise Token.backend mode provider).Spares (· ≠ provider.raw) := by
  apply Action.Spares.bind (provider.setText_spares _ _)
  intro _
  apply Action.Spares.bind
  · intro token
    rw [provider.getKeyLengths_unchanged]
    exact .refl token
  intro lengths
  apply Action.Spares.bind (.ofExcept _)
  intro allowed
  apply Action.Spares.bind
  · intro token
    rw [provider.getWord_unchanged]
    exact .refl token
  intro blockSize token
  split
  · exact .refl token
  · exact .refl token

theorem initialise_eq_ok {algorithm : AesAlgorithm}
    (success : initialise Token.backend mode provider token = (.ok algorithm, next)) :
    algorithm.provider = provider ∧ next.providers.get? provider.raw = some mode := by
  obtain ⟨_, first, set, success⟩ := Action.bind_eq_ok success
  obtain ⟨lengths, second, readLengths, success⟩ := Action.bind_eq_ok success
  obtain ⟨allowed, third, checked, success⟩ := Action.bind_eq_ok success
  obtain ⟨blockSize, fourth, readSize, success⟩ := Action.bind_eq_ok success
  have lengthsKept : second = first :=
    (congrArg Prod.snd readLengths).symm.trans (provider.getKeyLengths_unchanged first)
  have checkKept : third = second := (congrArg Prod.snd checked).symm
  have sizeKept : fourth = third :=
    (congrArg Prod.snd readSize).symm.trans
      (provider.getWord_unchanged PropertyName.blockLength third)
  split at success
  · cases success
  · cases success
    rw [sizeKept, checkKept, lengthsKept]
    exact ⟨rfl, provider.mode_of_setText set⟩

end AesAlgorithm

end CipherModes
