import CipherModes.Proofs.Establishing

/-!
# Backends that keep accounts

Everyone who opens a provider or imports a key holds it until it is given back.
A backend keeps accounts if it always agrees with the holders on what is open:
only a call that succeeds changes it, and what is held can be given back.
-/

set_option autoImplicit false

namespace CipherModes

/-- Neither issues a handle nor takes one back. -/
def Call.KeepsHandles : Call → Prop
  | openProvider .. | closeProvider _ | importKey .. | destroyKey _ => False
  | getProperty .. | setProperty .. | crypt .. | aeadEncrypt .. | aeadDecrypt .. | fipsEnabled =>
      True

/-- How one can tell from the state of a backend what is open. -/
structure Backend.Accounting {σ : Type} (backend : Backend σ) where
  /-- Handles have not run out. -/
  Lasts : σ → Prop
  /-- Just these providers are open, and just these keys are live. -/
  Exact : List Provider → List ImportedKey → σ → Prop
  lasts_before : ∀ {call : Call} {state : σ},
    Lasts (backend.answer call state).2 → Lasts state
  exact_of_same : ∀ {providers others : List Provider} {keys rearranged : List ImportedKey}
    {state : σ}, Exact providers keys state →
      (∀ provider, provider ∈ providers ↔ provider ∈ others) → keys.Perm rearranged →
        Exact others rearranged state
  kept : ∀ {call : Call} {providers : List Provider} {keys : List ImportedKey} {state : σ},
    call.KeepsHandles → Lasts (backend.answer call state).2 → Exact providers keys state →
      Exact providers keys (backend.answer call state).2
  refused : ∀ {call : Call} {error : BackendError} {providers : List Provider}
    {keys : List ImportedKey} {state : σ}, call.operation.isRelease = false →
      (backend.answer call state).1.result = .error error →
      Lasts (backend.answer call state).2 → Exact providers keys state →
        Exact providers keys (backend.answer call state).2
  opened : ∀ {algorithm : String} {flags : ProviderFlags} {raw : Handle}
    {providers : List Provider} {keys : List ImportedKey} {state : σ},
      (backend.answer (.openProvider algorithm flags) state).1.result = .ok raw →
      Lasts (backend.answer (.openProvider algorithm flags) state).2 → Exact providers keys state →
        ⟨raw, algorithm⟩ ∉ providers ∧
          Exact (⟨raw, algorithm⟩ :: providers) keys
            (backend.answer (.openProvider algorithm flags) state).2
  imported : ∀ {key : ImportedKey} {secret : Bytes} {providers : List Provider}
    {keys : List ImportedKey} {state : σ},
      (backend.answer (.importKey key.provider.raw secret) state).1.result = .ok key.raw →
      Lasts (backend.answer (.importKey key.provider.raw secret) state).2 →
      Exact providers keys state →
        Exact providers (key :: keys)
          (backend.answer (.importKey key.provider.raw secret) state).2
  /-- A provider can be closed if no key is left in it. -/
  closed : ∀ {provider : Provider} {providers : List Provider} {keys : List ImportedKey}
    {state : σ}, provider ∉ providers → (∀ key ∈ keys, key.provider ∈ providers) →
      Lasts (backend.answer (.closeProvider provider.raw) state).2 →
      Exact (provider :: providers) keys state →
        (backend.answer (.closeProvider provider.raw) state).1.result = .ok () ∧
          Exact providers keys (backend.answer (.closeProvider provider.raw) state).2
  destroyed : ∀ {key : ImportedKey} {providers : List Provider} {keys : List ImportedKey}
    {state : σ}, Lasts (backend.answer (.destroyKey key.raw) state).2 →
      Exact providers (key :: keys) state →
        (backend.answer (.destroyKey key.raw) state).1.result = .ok () ∧
          Exact providers keys (backend.answer (.destroyKey key.raw) state).2

namespace Backend.Accounting

variable {σ : Type} {backend : Backend σ}

/-- As long as handles last, something is the case and just these are open and live. -/
def Holds (accounting : backend.Accounting) (facts : Prop) (providers : List Provider)
    (keys : List ImportedKey) (state : σ) : Prop :=
  accounting.Lasts state → facts ∧ accounting.Exact providers keys state

variable {accounting : backend.Accounting} {facts : Prop} {providers : List Provider}
  {keys : List ImportedKey} {state : σ}

namespace Holds

theorem mono {others : List Provider} {rearranged : List ImportedKey} {consequences : Prop}
    (holds : accounting.Holds facts providers keys state)
    (same : facts → consequences ∧ (∀ provider, provider ∈ providers ↔ provider ∈ others) ∧
      keys.Perm rearranged) : accounting.Holds consequences others rearranged state := by
  intro lasts
  obtain ⟨known, exact⟩ := holds lasts
  obtain ⟨consequence, members, perm⟩ := same known
  exact ⟨consequence, accounting.exact_of_same exact members perm⟩

/-- A call changes what is held as the backend says. -/
theorem step {request : Call} {others : List Provider} {rearranged : List ImportedKey}
    {consequences : Prop} (holds : accounting.Holds facts providers keys state)
    (change : facts → accounting.Lasts (backend.answer request state).2 →
      accounting.Exact providers keys state →
        consequences ∧ accounting.Exact others rearranged (backend.answer request state).2) :
    accounting.Holds consequences others rearranged (backend.answer request state).2 := by
  intro lasts
  obtain ⟨known, exact⟩ := holds (accounting.lasts_before lasts)
  exact change known lasts exact

theorem answer {request : Call} (keeps : request.KeepsHandles)
    (holds : accounting.Holds facts providers keys state) :
    accounting.Holds facts providers keys (backend.answer request state).2 :=
  holds.step fun known lasts exact => ⟨known, accounting.kept keeps lasts exact⟩

theorem release {provider : Provider}
    (last : facts → provider ∉ providers ∧ ∀ key ∈ keys, key.provider ∈ providers)
    (holds : accounting.Holds facts (provider :: providers) keys state) :
    accounting.Holds facts providers keys (provider.release backend state).2 := by
  apply holds.step
  intro known lasts exact
  obtain ⟨absent, covered⟩ := last known
  exact ⟨known, (accounting.closed absent covered lasts exact).2⟩

theorem releaseKey {key : ImportedKey}
    (holds : accounting.Holds facts providers (key :: keys) state) :
    accounting.Holds facts providers keys (key.release backend state).2 :=
  holds.step fun known lasts exact => ⟨known, (accounting.destroyed lasts exact).2⟩

/-- A provider that was opened was not open before. -/
theorem acquire (algorithm : String) (flags : ProviderFlags) :
    (Provider.acquire backend algorithm flags).Establishes
      (accounting.Holds facts providers keys)
      (fun provider =>
        accounting.Holds (facts ∧ provider ∉ providers) (provider :: providers) keys)
      (accounting.Holds facts providers keys) := by
  intro state holds
  cases replied : (backend.answer (.openProvider algorithm flags) state).1.result with
  | error error =>
      simp only [Provider.acquire, replied]
      exact holds.step fun known lasts exact =>
        ⟨known, accounting.refused rfl replied lasts exact⟩
  | ok raw =>
      simp only [Provider.acquire, replied]
      apply holds.step
      intro known lasts exact
      obtain ⟨fresh, added⟩ := accounting.opened replied lasts exact
      exact ⟨⟨known, fresh⟩, added⟩

theorem acquireKey (provider : Provider) (secret : Bytes) :
    (ImportedKey.acquire backend provider secret).Establishes
      (accounting.Holds facts providers keys)
      (fun key next => key.provider = provider ∧
        accounting.Holds facts providers (key :: keys) next)
      (accounting.Holds facts providers keys) := by
  intro state holds
  cases replied : (backend.answer (.importKey provider.raw secret) state).1.result with
  | error error =>
      simp only [ImportedKey.acquire, replied]
      exact holds.step fun known lasts exact =>
        ⟨known, accounting.refused rfl replied lasts exact⟩
  | ok raw =>
      simp only [ImportedKey.acquire, replied]
      refine ⟨trivial, ?_⟩
      apply holds.step
      intro known lasts exact
      have imported := @accounting.imported ⟨provider, raw, keyBits secret.length⟩ secret
      exact ⟨known, imported replied lasts exact⟩

end Holds

end Backend.Accounting

end CipherModes
