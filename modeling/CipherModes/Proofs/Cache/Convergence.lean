import CipherModes.Proofs.Cache.Balance
import CipherModes.Token.Lengths

/-!
# Nested asking converges

However initialisers ask the cache that they make a value for, all who ask for
one key get one value, and in the end there are as many open providers as cached
values.
-/

set_option autoImplicit false

namespace CipherModes

variable {α σ : Type}

/-- What asking a cache in one state comes to, in view of the cache at the end. -/
structure ProviderCache.Converges (backend : Backend σ) (owned : α → Provider) (key : CacheKey)
    (inner : Nat → Provider → Course α) (before : Caching α σ) (final : ProviderCache α) :
    Prop where
  /-- Nothing that is cached is ever replaced or removed. -/
  kept : before.cache.entries <+:
      (acquire backend owned key (Course.initialiser backend owned inner) before).2.cache.entries ∧
    (acquire backend owned key (Course.initialiser backend owned inner) before).2.cache.entries <+:
      final.entries
  /-- Whoever asks gets the one value that is cached. -/
  answers : ∀ value,
    (acquire backend owned key (Course.initialiser backend owned inner) before).1 = .ok value →
      final.find? key = some value
  /-- A cached value is answered without a call and without an initialiser. -/
  hits : ∀ value, before.cache.find? key = some value →
    acquire backend owned key (Course.initialiser backend owned inner) before = (.ok value, before)
  /-- An error is that of opening or that of the initialiser, and nothing is cached for it. -/
  fails : ∀ error after,
    acquire backend owned key (Course.initialiser backend owned inner) before =
      (.error error, after) →
      (Provider.acquire backend key.algorithm key.flags before.backend =
          (.error error, after.backend) ∧ after.cache = before.cache) ∨
      ∃ provider opened last,
        Provider.acquire backend key.algorithm key.flags before.backend = (.ok provider, opened) ∧
        (inner (before.cache.started + 1) provider).run backend owned
          ⟨before.cache.start, opened⟩ = (.error error, last) ∧
        after = { last with backend := (provider.release backend last.backend).2 }

theorem Course.Asks.converges {backend : Backend σ} {owned : α → Provider} {course : Course α}
    {state before : Caching α σ} {key : CacheKey} {inner : Nat → Provider → Course α}
    (asks : Asks backend owned course state key inner before) :
    ProviderCache.Converges backend owned key inner before
      (course.run backend owned state).2.cache := by
  obtain ⟨-, remaining⟩ := asks.grows
  have ending := ProviderCache.acquire_ending backend owned key
    (initialiser backend owned inner) before
  constructor
  case kept =>
    exact ⟨(acquire_grows backend owned key inner before).entries_kept,
      remaining.entries_kept⟩
  case answers =>
    intro value success
    have answered : ProviderCache.Ending backend owned key (initialiser backend owned inner) before
        (.ok value, (ProviderCache.acquire backend owned key (initialiser backend owned inner)
          before).2) := success ▸ ending
    exact ProviderCache.find?_of_grown remaining.entries_kept answered.find?_of_ok
  case hits =>
    intro value found
    simp only [ProviderCache.acquire, found]
  case fails =>
    intro error after failed
    rw [failed] at ending
    cases ending with
    | unopened missing refused => exact .inl ⟨refused, rfl⟩
    | failed missing acquired ran => exact .inr ⟨_, _, _, acquired, ran, rfl⟩

/-! ## Scripts -/

namespace Script

/-- The course of a script on a provider, with what it has read so far. -/
def course (serial : Nat) (provider : Provider) : Script → List LogEntry → Course ScriptedValue
  | finish, log => .finish (.ok { provider, serial, log })
  | setText name text next, log =>
      .call (.setProperty provider.raw name (encodeWide text)) fun reply =>
        match reply.result with
        | .error error => .finish (.error (.backend error))
        | .ok _ => course serial provider next log
  | getWord name next, log =>
      read provider.raw name 4 fun bytes =>
        course serial provider next (log ++ [.number (decodeWord bytes).toNat])
  | getKeyLengths next, log =>
      read provider.raw PropertyName.keyLengths KeyLengths.size fun bytes =>
        course serial provider next (log ++ [.lengths (.decode bytes)])
  | checkKeyLengths next, log =>
      read provider.raw PropertyName.keyLengths KeyLengths.size fun bytes =>
        match AllowedKeyLengths.check (.decode bytes) with
        | .error error => .finish (.error error)
        | .ok allowed => course serial provider next (log ++ [.lengths allowed.lengths])
  | cacheSize next, log =>
      .look fun cache => course serial provider next (log ++ [.number cache.size])
  | acquire key inner next, log =>
      .acquire key (fun innerSerial innerProvider => course innerSerial innerProvider inner [])
        fun
        | .error error => .finish (.error error)
        | .ok value => course serial provider next (log ++ [.number value.serial])
  | fail, _ => .finish (.error (.malformedProperty PropertyName.chainingMode))
where
  /-- Reads a property of a given size. -/
  read (handle : Handle) (name : String) (size : Nat) (next : Bytes → Course ScriptedValue) :
      Course ScriptedValue :=
    .call (.getProperty handle name (Bytes.zeros size)) fun reply =>
      match reply.result with
      | .error error => .finish (.error (.backend error))
      | .ok written =>
          if written = size then next reply.output
          else .finish (.error (.backend ⟨Operation.getProperty.name, .invalidBufferSize⟩))

/-- Reading a property and going on with what was made of it. -/
theorem run_read {β : Type} (backend : Backend σ) (handle : Handle) (name : String) (size : Nat)
    (decode : Bytes → β) {next : Bytes → Course ScriptedValue}
    {rest : β → Action (Caching ScriptedValue σ) ScriptedValue}
    (same : ∀ bytes, (next bytes).run backend ScriptedValue.provider = rest (decode bytes)) :
    (course.read handle name size next).run backend ScriptedValue.provider =
      (Caching.tryBackend (Action.ofCall (decode <$> backend.getExact handle name size)) >>=
        rest) := by
  funext state
  rw [Action.bind_apply, course.read, Course.run_call]
  cases answered : backend.answer (.getProperty handle name (Bytes.zeros size)) state.backend with
  | mk reply later =>
      cases replied : reply.result with
      | error error =>
          simp only [Caching.tryBackend, Action.ofCall, Backend.reading_of_error answered replied]
          rfl
      | ok written =>
          by_cases exact : written = size
          · rw [exact] at replied
            simp only [Caching.tryBackend, Action.ofCall,
              Backend.reading_of_whole answered replied, if_pos exact, same]
            rfl
          · simp only [Caching.tryBackend, Action.ofCall,
              Backend.reading_of_other answered replied exact, if_neg exact]
            rfl

theorem run_course (backend : Backend σ) (serial : Nat) (provider : Provider) (script : Script)
    (log : List LogEntry) :
    (script.course serial provider log).run backend ScriptedValue.provider =
      script.run backend serial provider log := by
  induction script generalizing serial provider log with
  | finish => rfl
  | setText name text next ih =>
      funext state
      rw [Script.run, Action.bind_apply, Script.course, Course.run_call]
      cases answered : backend.answer (.setProperty provider.raw name (encodeWide text))
          state.backend with
      | mk reply later =>
          have set : Caching.tryBackend (provider.setText backend name text) state =
              (reply.result.mapError .backend, { state with backend := later }) := by
            simp only [Caching.tryBackend, Provider.setText, Action.ofCall, Backend.setText,
              answered]
          rw [set]
          cases replied : reply.result with
          | error error => rfl
          | ok done => exact congrFun (ih serial provider log) _
  | getWord name next ih =>
      exact run_read backend _ _ _ decodeWord fun bytes => ih serial provider _
  | getKeyLengths next ih =>
      exact run_read backend _ _ _ KeyLengths.decode fun bytes => ih serial provider _
  | checkKeyLengths next ih =>
      apply run_read backend _ _ _ KeyLengths.decode
      intro bytes
      funext state
      rw [Action.bind_apply]
      cases checked : AllowedKeyLengths.check (.decode bytes) with
      | error error => rfl
      | ok allowed => exact congrFun (ih serial provider _) state
  | cacheSize next ih =>
      funext state
      exact congrFun (ih serial provider _) state
  | acquire key inner next innerIH nextIH =>
      funext state
      rw [Script.run, Action.bind_apply, Script.course, Course.run]
      simp only [innerIH]
      cases asked : ProviderCache.acquire backend ScriptedValue.provider key
          (fun innerSerial innerProvider => inner.run backend innerSerial innerProvider []) state with
      | mk result later =>
          cases result with
          | error error => rfl
          | ok value => exact congrFun (nextIH serial provider _) later
  | fail => rfl

theorem tame_read {handle : Handle} {name : String} {size : Nat}
    {next : Bytes → Course ScriptedValue} {accepts : ScriptedValue → Prop}
    (tame : ∀ bytes, (next bytes).Tame ScriptedValue.provider accepts) :
    (course.read handle name size next).Tame ScriptedValue.provider accepts := by
  refine ⟨⟨nofun, nofun⟩, ?_⟩
  intro reply
  dsimp only
  split
  · exact nofun
  · split
    · exact tame _
    · exact nofun

/-- What a script makes is made of its own provider, and so is what scripts within it make. -/
theorem tame_course (serial : Nat) (provider : Provider) (script : Script) (log : List LogEntry) :
    (script.course serial provider log).Tame ScriptedValue.provider fun value =>
      value.provider = provider := by
  induction script generalizing serial provider log with
  | finish =>
      rintro value made
      cases made
      rfl
  | setText name text next ih =>
      refine ⟨⟨nofun, nofun⟩, ?_⟩
      intro reply
      dsimp only
      split
      · exact nofun
      · exact ih serial provider log
  | getWord name next ih => exact tame_read fun bytes => ih serial provider _
  | getKeyLengths next ih => exact tame_read fun bytes => ih serial provider _
  | checkKeyLengths next ih =>
      apply tame_read
      intro bytes
      cases AllowedKeyLengths.check (.decode bytes) with
      | error error => exact nofun
      | ok allowed => exact ih serial provider _
  | cacheSize next ih => exact fun cache => ih serial provider _
  | acquire key inner next innerIH nextIH =>
      refine ⟨fun innerSerial innerProvider => innerIH innerSerial innerProvider [], ?_⟩
      intro result
      cases result with
      | error error => exact nofun
      | ok value => exact nextIH serial provider _
  | fail => exact nofun

/-- Asking for the value of a script is asking for that of its course. -/
theorem run_acquire_course (backend : Backend σ) (key : CacheKey) (script : Script) :
    (Course.acquire key (fun serial provider => script.course serial provider []) .finish).run
      backend ScriptedValue.provider = acquireValue backend key script := by
  funext state
  rw [Course.run, acquireValue]
  simp only [run_course]
  rfl

end Script

/-! ## Convergence -/

/-- Whatever is done with a cache, by initialisers nested to any depth and over any backend: there
is one value under each key, everyone gets it, and if providers are closed well, those that stay
open are as many as the cached values. -/
theorem Course.asking_converges (course : Course α) (owned : α → Provider) (backend : Backend σ)
    (initial : σ) :
    (course.run backend owned ⟨.empty, initial⟩).2.cache.keys.Nodup ∧
    (∀ key inner before, Asks backend owned course ⟨.empty, initial⟩ key inner before →
      ProviderCache.Converges backend owned key inner before
        (course.run backend owned ⟨.empty, initial⟩).2.cache) ∧
    ∀ final, (course.run backend.recorded owned ⟨.empty, { inner := initial }⟩).2 = final →
      course.Tame owned (fun _ => True) →
      (∀ event ∈ final.backend.events, event.ClosesWell) →
        (openedProviders final.backend.events).length = final.cache.size := by
  refine ⟨(run_grows backend owned course _).nodup List.nodup_nil, ?_, ?_⟩
  · intro key inner before asks
    exact asks.converges
  · rintro _ rfl tame closed
    have fresh : Balanced owned [] ⟨.empty, ({ inner := initial } : Recorded σ)⟩ :=
      fun _ => List.Perm.refl _
    have balanced : Balanced owned [] (course.run backend.recorded owned
        ⟨.empty, { inner := initial }⟩).2 := (run_balanced tame fresh).1
    rw [(balanced closed).length_eq, List.nil_append, List.length_map]
    exact List.length_map ..

/-- An initialiser that asks for its own key comes too late with its own value. -/
theorem Course.asking_converges_after_lost_race :
    ∃ value final, Script.acquireValue Token.backend.recorded ⟨aesAlgorithm, .none, ""⟩
        (.acquire ⟨aesAlgorithm, .none, ""⟩ .finish .finish)
        ⟨.empty, { inner := .fresh .default }⟩ = (.ok value, final) ∧
      value.serial = 2 ∧ final.backend.inner.providersOpened = 2 ∧ final.cache.size = 1 ∧
      final.cache.find? ⟨aesAlgorithm, .none, ""⟩ = some value ∧
      (openedProviders final.backend.events).length = final.cache.size := by
  let script : Script := .acquire ⟨aesAlgorithm, .none, ""⟩ .finish .finish
  let course : Course ScriptedValue := .acquire ⟨aesAlgorithm, .none, ""⟩
    (fun serial provider => script.course serial provider []) .finish
  have tame := (Script.tame_course · · script [])
  obtain ⟨-, converges, -⟩ := course.asking_converges ScriptedValue.provider
    Token.backend.recorded { inner := .fresh .default }
  obtain ⟨-, -, balanced⟩ := course.asking_converges ScriptedValue.provider Token.backend
    (.fresh .default)
  refine ⟨_, _, rfl, rfl, rfl, rfl, ?_, ?_⟩
  · exact (converges _ _ _ .here).answers _ rfl
  · exact balanced _ rfl ⟨tame, fun _ _ _ => trivial⟩ (by decide +kernel)

end CipherModes
