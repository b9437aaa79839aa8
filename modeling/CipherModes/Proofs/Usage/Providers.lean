import CipherModes.Proofs.Accounts.Quiet
import CipherModes.Proofs.Cache.Scripts
import CipherModes.Proofs.Usage.Fitting

/-!
# Providers apart from engines

A provider that no engine has cached may be put into any mode and closed at any
time. Scripts do nothing else: each works on a provider of its own.
-/

set_option autoImplicit false

namespace CipherModes

open Backend (Fronting)

variable {α σ : Type} {backend : Backend σ} {front : backend.Fronting}
  {allowed : Token → Call → Prop} {initial : σ} {knows : ChainingMode → Handle → Prop}
  {custody : List Custody} {cached : List (CacheKey × AesAlgorithm)} {strangers : List Provider}

/-! ## Providers that nobody has cached -/

/-- What is done to a provider that nobody has cached is no matter to engines. -/
theorem Token.Serves.spares_of_stranger {token : Token} {provider : Provider} {call : Call}
    (serves : token.Serves custody cached strangers) (stranger : provider ∈ strangers)
    (names : call.handle? = some provider.raw) (keeps : ∀ key, call ≠ .destroyKey key) :
    call.Spares custody cached := by
  have apart := (serves.apart provider stranger).2
  refine ⟨fun held _ _ => keeps held.key.raw, fun entry member => ⟨?_, ?_⟩⟩
  · rintro rfl
    exact apart entry member (Option.some.inj names)
  · rintro name value rfl
    exact apart entry member (Option.some.inj names)

namespace Backend.Fronting.Serving

theorem reading {fact : Token → Prop} {decode : Bytes → α} (admits : Admits allowed knows)
    (handle : Handle) (name : String) (size : Nat) :
    (Action.ofCall (decode <$> backend.getExact handle name size)).Maintains
      (front.Holds allowed initial fact) := by
  intro state holds
  have read : front.Holds allowed initial fact
      (Action.ofCall (decode <$> backend.getExact handle name size) state).2 := by
    rw [Provider.state_of_reading]
    apply holds.step fun token _ => admits token (.getProperty handle name (Bytes.zeros size)) trivial
    intro token next known fronted _
    rwa [fronted.unchanged_of_reading rfl]
  cases ran : Action.ofCall (decode <$> backend.getExact handle name size) state with
  | mk result final =>
      rw [ran] at read
      cases result <;> exact read

theorem shrink {fewer : List Custody} {uncached : List (CacheKey × AesAlgorithm)}
    {others : List Provider} {state : σ}
    (serving : front.Serving allowed initial custody cached strangers state)
    (keys : fewer.Subperm custody) (entries : uncached ⊆ cached) (providers : others ⊆ strangers) :
    front.Serving allowed initial fewer uncached others state :=
  serving.mono fun _ serves => serves.shrink keys entries providers

theorem acquire (admits : Admits allowed knows) (algorithm : String) (flags : ProviderFlags) :
    (Provider.acquire backend algorithm flags).Establishes
      (front.Serving allowed initial custody cached strangers)
      (fun provider => front.Holds allowed initial fun token =>
        (∀ other ∈ strangers, other.raw ≠ provider.raw) ∧
          token.Serves custody cached (provider :: strangers))
      (front.Serving allowed initial custody cached strangers) := by
  intro state serving
  have harmless : Call.Harmless (.openProvider algorithm flags) := trivial
  have fits {token : Token} : token.Fits knows (.openProvider algorithm flags) := trivial
  cases replied : (backend.answer (.openProvider algorithm flags) state).1.result with
  | error error =>
      simp only [Provider.acquire, replied]
      exact serving.answer (fun token _ => admits token _ fits) fun _ _ => harmless.spares ..
  | ok raw =>
      simp only [Provider.acquire, replied]
      apply serving.step fun token _ => admits token _ fits
      intro token next serves fronted lasts
      obtain ⟨success, rfl⟩ := fronted.of_ok replied (by intro reads; cases reads)
      exact serves.opened success lasts

theorem release {provider : Provider} {state : σ} (admits : Admits allowed knows)
    (serving : front.Serving allowed initial custody cached (provider :: strangers) state) :
    front.Serving allowed initial custody cached strangers
      (provider.release backend state).2 := by
  have closed := serving.answer (fun token _ => admits token (.closeProvider provider.raw) trivial)
    fun _ serves => serves.spares_of_stranger (.head _) rfl nofun
  exact closed.shrink (.refl _) (List.Subset.refl _) (List.subset_cons_self ..)

theorem setText {handle : Handle} {name text : String} (admits : Admits allowed knows)
    (spares : ∀ token : Token, token.Serves custody cached strangers →
      (Call.setProperty handle name (encodeWide text)).Spares custody cached) :
    (Action.ofCall (backend.setText handle name text)).Maintains
      (front.Serving allowed initial custody cached strangers) := by
  intro state serving
  have set := serving.answer
    (fun token _ => admits token (.setProperty handle name (encodeWide text)) trivial) spares
  simp only [Action.ofCall, Backend.setText]
  cases (backend.answer (.setProperty handle name (encodeWide text)) state).1.result <;> exact set

theorem setText_of_stranger {provider : Provider} (admits : Admits allowed knows)
    (stranger : provider ∈ strangers) (name text : String) :
    (provider.setText backend name text).Maintains
      (front.Serving allowed initial custody cached strangers) :=
  setText admits fun _ serves => serves.spares_of_stranger stranger rfl nofun

theorem inserted {used others : List Provider} {cache : ProviderCache α} {key : CacheKey}
    {value : α} {owned : α → Provider} {state : σ}
    (serving : front.Serving allowed initial custody cached
      (owned value :: used ++ (cache.values.map owned ++ others)) state) :
    front.Serving allowed initial custody cached
      (used ++ ((cache.insert key value).values.map owned ++ others)) state := by
  apply serving.shrink (.refl _) (List.Subset.refl _)
  intro provider member
  simp only [ProviderCache.values, ProviderCache.insert, List.map_append, List.map_cons,
    List.map_nil, List.mem_append, List.mem_cons, List.not_mem_nil, or_false] at member ⊢
  grind

end Backend.Fronting.Serving

open Backend.Fronting (Admits Serving)

/-- A key that was imported is used in a mode in which its provider is, or not at all. -/
theorem Backend.Fronting.Serving.acquireKey {mode : Option ChainingMode} {provider : Provider}
    {secret : Bytes}
    (fits : ∀ token, token.Serves custody cached strangers →
      allowed token (.importKey provider.raw secret))
    (known : ∀ token : Token, token.Serves custody cached strangers →
      provider.algorithm = aesAlgorithm ∧
        ∀ used ∈ mode, token.providers.get? provider.raw = some used) :
    (ImportedKey.acquire backend provider secret).Establishes
      (front.Serving allowed initial custody cached strangers)
      (fun key => front.Serving allowed initial (⟨key, mode⟩ :: custody) cached strangers)
      (front.Serving allowed initial custody cached strangers) := by
  intro state serving
  have harmless : Call.Harmless (.importKey provider.raw secret) := trivial
  cases replied : (backend.answer (.importKey provider.raw secret) state).1.result with
  | error error =>
      simp only [ImportedKey.acquire, replied]
      exact serving.answer fits fun _ _ => harmless.spares ..
  | ok raw =>
      simp only [ImportedKey.acquire, replied]
      apply serving.step fits
      intro token next serves fronted lasts
      obtain ⟨success, rfl⟩ := fronted.of_ok replied (by intro reads; cases reads)
      obtain ⟨algorithm, inMode⟩ := known token serves
      exact serves.imported success lasts algorithm inMode

/-! ## Modes -/

theorem Token.mode_of_setProperty {token : Token} {handle : Handle} {mode : ChainingMode}
    (success : (token.answer
      (.setProperty handle PropertyName.chainingMode (encodeWide mode.text))).1.result = .ok ()) :
    (token.answer (.setProperty handle PropertyName.chainingMode
      (encodeWide mode.text))).2.providers.get? handle = some mode := by
  have set : Provider.setText Token.backend ⟨handle, aesAlgorithm⟩ PropertyName.chainingMode
      mode.text token = (.ok (), (token.answer (.setProperty handle PropertyName.chainingMode
        (encodeWide mode.text))).2) := by
    simp only [Provider.setText, Action.ofCall, Backend.setText, Token.backend, success]
    rfl
  exact Provider.mode_of_setText set

theorem Backend.Fronting.Serving.setMode {frame : Prop} (admits : Admits allowed knows)
    (provider : Provider) (mode : ChainingMode) :
    (provider.setText backend PropertyName.chainingMode mode.text).Establishes
      (front.Holds allowed initial fun token =>
        frame ∧ token.Serves custody cached (provider :: strangers))
      (fun _ => front.Holds allowed initial fun token =>
        frame ∧ token.Serves custody cached (provider :: strangers) ∧
          token.providers.get? provider.raw = some mode)
      (front.Serving allowed initial custody cached (provider :: strangers)) := by
  intro state holds
  cases replied : (backend.answer (.setProperty provider.raw PropertyName.chainingMode
      (encodeWide mode.text)) state).1.result with
  | error error =>
      have unset := Serving.setText_of_stranger admits (.head strangers)
        PropertyName.chainingMode mode.text state (holds.mono fun _ known => known.2)
      simp only [Provider.setText, Action.ofCall, Backend.setText, replied] at unset ⊢
      exact unset
  | ok value =>
      simp only [Provider.setText, Action.ofCall, Backend.setText, replied]
      apply holds.step fun token _ => admits token (.setProperty ..) trivial
      rintro token next ⟨framed, serves⟩ fronted lasts
      obtain ⟨success, rfl⟩ := fronted.of_ok replied (by intro reads; cases reads)
      have kept := serves.spared fronted.effect lasts
        (serves.spares_of_stranger (.head _) rfl (by intro _ same; cases same))
      exact ⟨framed, kept, Token.mode_of_setProperty success⟩

/-! ## Scripts -/

/-- The token keeps everyone what it kept while initialisers open providers and close them. -/
def Backend.Fronting.keeping (front : backend.Fronting) (admits : Admits allowed knows)
    (initial : σ) (custody : List Custody) (cached : List (CacheKey × AesAlgorithm))
    (others : List Provider) (owned : α → Provider) : ProviderCache.Keeping backend owned where
  Keeps used state := front.Serving allowed initial custody cached
    (used ++ (state.cache.values.map owned ++ others)) state.backend
  refused serving failed := (Serving.acquire admits _ _).error_of_eq serving failed
  opened serving acquired :=
    ((Serving.acquire admits _ _).ok_of_eq serving acquired).mono fun _ => And.right
  released serving := serving.release admits
  inserted serving := serving.inserted

theorem Script.acquireValue_serving (admits : Admits allowed knows) (key : CacheKey)
    (script : Script) :
    (acquireValue backend key script).Establishes
      ((front.keeping admits initial custody cached strangers ScriptedValue.provider).Keeps [])
      (fun value next => next.cache.find? key = some value ∧
        (front.keeping admits initial custody cached strangers ScriptedValue.provider).Keeps []
          next)
      ((front.keeping admits initial custody cached strangers ScriptedValue.provider).Keeps []) := by
  apply acquireValue_keeps
  constructor
  case setText =>
    intro used provider name text
    exact .tryBackend fun cache state serving =>
      Serving.setText_of_stranger admits (.head _) _ _ _ serving
  case getWord =>
    intro used provider name
    exact .tryBackend fun cache state serving => Serving.reading admits _ _ _ _ serving
  case getKeyLengths =>
    intro used provider
    exact .tryBackend fun cache state serving => Serving.reading admits _ _ _ _ serving

end CipherModes
