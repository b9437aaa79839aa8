import CipherModes.Proofs.Token.Handles
import CipherModes.Token.Lengths

/-!
# What calls make of a token

Few calls change a token at all. Each handle is issued once, as long as fewer
handles are issued than there are numbers.
-/

set_option autoImplicit false

namespace CipherModes

/-- Neither closes a provider nor sets its mode. -/
def Call.LeavesAlone (call : Call) (provider : Handle) : Prop :=
  call ≠ .closeProvider provider ∧ ∀ name value, call ≠ .setProperty provider name value

theorem Call.leavesAlone_of_operation {call : Call} {provider : Handle}
    (others : call.operation ∉ [.closeProvider, .setProperty]) : call.LeavesAlone provider := by
  constructor
  · intro same
    rw [same] at others
    exact others (.head _)
  · intro name value same
    rw [same] at others
    exact others (.tail _ (.head _))

namespace Token

variable {token next : Token} {call : Call}

/-- What one call can make of a token. -/
inductive Effect (token : Token) : Call → Token → Prop where
  | nothing (call : Call) : Effect token call token
  | opened (algorithm : String) (flags : ProviderFlags) :
      Effect token (.openProvider algorithm flags)
        { token with
          issued := token.issued + 1
          providers := token.providers.insert (.issuedAfter token.issued) .cbc
          providersOpened := token.providersOpened + 1 }
  | closed (provider : Handle) :
      Effect token (.closeProvider provider)
        { token with providers := token.providers.erase provider }
  | imported (provider : Handle) (secret : Bytes) (object : KeyObject) :
      Effect token (.importKey provider secret)
        { token with
          issued := token.issued + 1
          keys := token.keys.insert (.issuedAfter token.issued) object
          keysImported := token.keysImported + 1 }
  | destroyed (key : Handle) :
      Effect token (.destroyKey key) { token with keys := token.keys.erase key }
  | switched (provider : Handle) (name : String) (value : Bytes) (mode : ChainingMode) :
      Effect token (.setProperty provider name value)
        { token with providers := token.providers.replace provider mode }

theorem answer_effect (token : Token) (call : Call) :
    token.Effect call (token.answer call).2 := by
  cases call with
  | openProvider algorithm flags =>
      simp only [answer, openProvider]
      split
      · exact .nothing _
      · split
        · exact .nothing _
        · exact .opened ..
  | closeProvider provider =>
      simp only [answer, closeProvider]
      split
      · exact .nothing _
      · split
        · exact .nothing _
        · exact .closed _
  | importKey provider secret =>
      simp only [answer, importKey]
      split
      · exact .nothing _
      · split
        · split
          · exact .nothing _
          · exact .imported ..
        · exact .nothing _
  | destroyKey key =>
      simp only [answer, destroyKey]
      split
      · exact .nothing _
      · exact .destroyed _
  | getProperty handle name output =>
      simp only [answer, getProperty]
      repeat' split
      all_goals exact .nothing _
  | setProperty handle name value =>
      simp only [answer, setProperty]
      split
      · exact .nothing _
      · exact .nothing _
      · split
        · split
          · exact .nothing _
          · exact .switched ..
        · exact .nothing _
  | crypt direction key input output =>
      simp only [answer, crypt]
      repeat' split
      all_goals exact .nothing _
  | aeadEncrypt key nonce aad buffer tag =>
      simp only [answer, aeadEncrypt]
      repeat' split
      all_goals exact .nothing _
  | aeadDecrypt key nonce aad buffer tag =>
      simp only [answer, aeadDecrypt]
      repeat' split
      all_goals exact .nothing _
  | fipsEnabled => exact .nothing _

/-- A call that fails changes nothing. -/
theorem unchanged_of_error {error : BackendError}
    (failed : (token.answer call).1.result = .error error) : (token.answer call).2 = token := by
  generalize answered : token.answer call = outcome at failed ⊢
  cases call with
  | openProvider | closeProvider | importKey | destroyKey | setProperty =>
      simp only [answer, openProvider, closeProvider, importKey, destroyKey, setProperty] at answered
      repeat' split at answered
      all_goals
        cases answered
        first | rfl | cases failed
  | getProperty | crypt | aeadEncrypt | aeadDecrypt | fipsEnabled =>
      simp only [answer, getProperty, crypt, aeadEncrypt, aeadDecrypt] at answered
      repeat' split at answered
      all_goals
        cases answered
        rfl

/-! ## Handles are issued once -/

/-- How many handles have been issued, counted without a limit. -/
def handlesIssued (token : Token) : Nat := token.providersOpened + token.keysImported

theorem Effect.handlesIssued_le (effect : token.Effect call next) :
    token.handlesIssued ≤ next.handlesIssued := by
  cases effect with
  | opened | imported =>
      simp only [handlesIssued]
      omega
  | nothing | closed | destroyed | switched => exact Nat.le_refl _

theorem handlesIssued_of_release (release : call.operation.isRelease = true) :
    (token.answer call).2.handlesIssued = token.handlesIssued := by
  have effect := token.answer_effect call
  generalize (token.answer call).2 = next at effect
  cases effect with
  | opened | imported => cases release
  | nothing | closed | destroyed | switched => rfl

/-- Every handle in use is one of those issued so far. -/
structure Accounted (token : Token) : Prop where
  issued_eq : token.issued.toNat = token.handlesIssued
  no_provider : ∀ handle : Handle, token.issued.toNat < handle.id.toNat →
    token.providers.get? handle = none
  no_key : ∀ handle : Handle, token.issued.toNat < handle.id.toNat →
    token.keys.get? handle = none

theorem accounted_fresh (settings : Settings) : (fresh settings).Accounted :=
  ⟨rfl, fun _ _ => rfl, fun _ _ => rfl⟩

/-- The next handle is the number after those issued, and the count is one more. -/
theorem Accounted.issue (accounted : token.Accounted)
    (remain : token.handlesIssued + 1 < Handle.limit) :
    (token.issued + 1).toNat = token.handlesIssued + 1 ∧
      (Handle.issuedAfter token.issued).id.toNat = token.handlesIssued + 1 := by
  have same := accounted.issued_eq
  constructor
  · rw [UInt64.toNat_add, same]
    exact Nat.mod_eq_of_lt remain
  · rw [Handle.id_issuedAfter (same ▸ remain), same]

/-- The handle that is issued next is not in use. -/
theorem Accounted.unused (accounted : token.Accounted)
    (remain : token.handlesIssued + 1 < Handle.limit) :
    token.providers.get? (.issuedAfter token.issued) = none ∧
      token.keys.get? (.issuedAfter token.issued) = none := by
  have later : token.issued.toNat < (Handle.issuedAfter token.issued).id.toNat := by
    rw [(accounted.issue remain).2, accounted.issued_eq]
    exact Nat.lt_succ_self _
  exact ⟨accounted.no_provider _ later, accounted.no_key _ later⟩

/-- A provider that is open has not the handle that is issued next. -/
theorem Accounted.provider_ne (accounted : token.Accounted)
    (remain : token.handlesIssued + 1 < Handle.limit) {provider : Handle} {mode : ChainingMode}
    (present : token.providers.get? provider = some mode) :
    provider ≠ .issuedAfter token.issued := by
  rintro rfl
  rw [(accounted.unused remain).1] at present
  cases present

theorem Accounted.step (accounted : token.Accounted) (effect : token.Effect call next)
    (remain : next.handlesIssued < Handle.limit) : next.Accounted := by
  have same := accounted.issued_eq
  cases effect with
  | nothing => exact accounted
  | opened =>
      simp only [handlesIssued] at remain
      obtain ⟨count, number⟩ := accounted.issue (by rw [handlesIssued]; omega)
      constructor
      case issued_eq =>
        rw [count]
        simp only [handlesIssued]
        omega
      case no_provider =>
        intro handle large
        rw [count] at large
        have different : handle ≠ .issuedAfter token.issued := by
          rintro rfl
          rw [number] at large
          exact Nat.lt_irrefl _ large
        rw [HandleTable.get?_insert_ne different]
        exact accounted.no_provider handle (by omega)
      case no_key =>
        intro handle large
        rw [count] at large
        exact accounted.no_key handle (by omega)
  | imported =>
      simp only [handlesIssued] at remain
      obtain ⟨count, number⟩ := accounted.issue (by rw [handlesIssued]; omega)
      constructor
      case issued_eq =>
        rw [count]
        simp only [handlesIssued]
        omega
      case no_provider =>
        intro handle large
        rw [count] at large
        exact accounted.no_provider handle (by omega)
      case no_key =>
        intro handle large
        rw [count] at large
        have different : handle ≠ .issuedAfter token.issued := by
          rintro rfl
          rw [number] at large
          exact Nat.lt_irrefl _ large
        rw [HandleTable.get?_insert_ne different]
        exact accounted.no_key handle (by omega)
  | closed provider =>
      refine ⟨same, ?_, accounted.no_key⟩
      intro handle large
      exact HandleTable.get?_erase_of_none (accounted.no_provider handle large)
  | destroyed key =>
      refine ⟨same, accounted.no_provider, ?_⟩
      intro handle large
      exact HandleTable.get?_erase_of_none (accounted.no_key handle large)
  | switched provider name value mode =>
      refine ⟨same, ?_, accounted.no_key⟩
      intro handle large
      exact HandleTable.get?_replace_eq_none_iff.mpr (accounted.no_provider handle large)

/-- What calls make of a token, one after another. -/
def afterCalls (token : Token) (calls : List Call) : Token :=
  calls.foldl (fun token call => (token.answer call).2) token

theorem handlesIssued_le_afterCalls (token : Token) (calls : List Call) :
    token.handlesIssued ≤ (token.afterCalls calls).handlesIssued := by
  induction calls generalizing token with
  | nil => exact Nat.le_refl _
  | cons call rest ih =>
      exact Nat.le_trans (token.answer_effect call).handlesIssued_le (ih (token.answer call).2)

theorem Accounted.afterCalls (accounted : token.Accounted) (calls : List Call)
    (remain : (token.afterCalls calls).handlesIssued < Handle.limit) :
    (token.afterCalls calls).Accounted := by
  induction calls generalizing token with
  | nil => exact accounted
  | cons call rest ih =>
      have one := Nat.lt_of_le_of_lt (handlesIssued_le_afterCalls (token.answer call).2 rest) remain
      exact ih (accounted.step (token.answer_effect call) one) remain

/-! ## Settings stay -/

theorem Effect.settings_eq (effect : token.Effect call next) :
    next.settings = token.settings := by
  cases effect <;> rfl

theorem settings_answer (token : Token) (call : Call) :
    (token.answer call).2.settings = token.settings :=
  (token.answer_effect call).settings_eq

theorem settings_afterCalls (token : Token) (calls : List Call) :
    (token.afterCalls calls).settings = token.settings := by
  induction calls generalizing token with
  | nil => rfl
  | cons call rest ih => exact (ih (token.answer call).2).trans (token.settings_answer call)

/-! ## Providers that are left alone -/

/-- An open provider stays open in its mode if it is left alone. -/
theorem Effect.provider_kept {provider : Handle} {mode : ChainingMode}
    (effect : token.Effect call next) (accounted : token.Accounted)
    (remain : next.handlesIssued < Handle.limit) (alone : call.LeavesAlone provider)
    (present : token.providers.get? provider = some mode) :
    next.providers.get? provider = some mode := by
  cases effect with
  | opened =>
      simp only [handlesIssued] at remain
      have different := accounted.provider_ne (by rw [handlesIssued]; omega) present
      rw [HandleTable.get?_insert_ne different, present]
  | closed other =>
      have different : provider ≠ other := by
        rintro rfl
        exact alone.1 rfl
      rw [HandleTable.get?_erase_ne different, present]
  | switched other name value new =>
      have different : provider ≠ other := by
        rintro rfl
        exact alone.2 name value rfl
      rw [HandleTable.get?_replace_ne different, present]
  | nothing | imported | destroyed => exact present

/-- Between two tokens, handles were issued once and providers that are spared stayed open in
their modes. -/
structure Spares (spared : Handle → Prop) (token next : Token) : Prop where
  issued_le : token.handlesIssued ≤ next.handlesIssued
  accounted : token.Accounted → next.handlesIssued < Handle.limit → next.Accounted
  kept : token.Accounted → next.handlesIssued < Handle.limit → ∀ provider mode, spared provider →
    token.providers.get? provider = some mode → next.providers.get? provider = some mode

namespace Spares

variable {spared : Handle → Prop} {last : Token}

theorem refl (token : Token) : Spares spared token token :=
  ⟨Nat.le_refl _, fun accounted _ => accounted, fun _ _ _ _ _ present => present⟩

/-- What is spared first has to be spared later as well, unless it was not there at first. -/
theorem through {later : Handle → Prop} (first : Spares spared token next)
    (second : Spares later next last)
    (covers : token.Accounted → next.handlesIssued < Handle.limit → ∀ provider mode,
      spared provider → token.providers.get? provider = some mode → later provider) :
    Spares spared token last := by
  constructor
  case issued_le => exact Nat.le_trans first.issued_le second.issued_le
  case accounted =>
    intro accounted remain
    have halfway := Nat.lt_of_le_of_lt second.issued_le remain
    exact second.accounted (first.accounted accounted halfway) remain
  case kept =>
    intro accounted remain provider mode chosen present
    have halfway := Nat.lt_of_le_of_lt second.issued_le remain
    exact second.kept (first.accounted accounted halfway) remain provider mode
      (covers accounted halfway provider mode chosen present)
      (first.kept accounted halfway provider mode chosen present)

theorem trans (first : Spares spared token next) (second : Spares spared next last) :
    Spares spared token last :=
  first.through second fun _ _ _ _ chosen _ => chosen

/-- What leaves all handles but a new one alone leaves those alone that were there before. -/
theorem through_new {handle : Handle} (first : Spares (fun _ => True) token next)
    (second : Spares (· ≠ handle) next last) (fresh : handle = .issuedAfter token.issued)
    (grown : next.handlesIssued = token.handlesIssued + 1) :
    Spares (fun _ => True) token last := by
  apply first.through second
  intro accounted remain provider mode _ present
  rw [fresh]
  exact accounted.provider_ne (grown ▸ remain) present

theorem of_answer (alone : ∀ provider, spared provider → call.LeavesAlone provider) :
    Spares spared token (token.answer call).2 := by
  have effect := token.answer_effect call
  constructor
  case issued_le => exact effect.handlesIssued_le
  case accounted =>
    intro accounted remain
    exact accounted.step effect remain
  case kept =>
    intro accounted remain provider mode chosen present
    exact effect.provider_kept accounted remain (alone provider chosen) present

end Spares

end Token

end CipherModes
