import CipherModes.Proofs.Attempts.Planned
import CipherModes.Proofs.Usage.Fronting

/-!
# Setting up a provider behind a plan

The calls by which an engine opens a provider, sets its mode and reads its
limits, each as the token answers it or as the plan lets it fail.
-/

set_option autoImplicit false

namespace CipherModes

/-! ## Calls -/

namespace Plan

variable {plan : Plan} {call : Call} {state : Interposed Token}

theorem answer?_of_calm (calm : plan.Calm)
    (other : ∀ handle name output, call ≠ .getProperty handle name output)
    (made : List Operation) : plan.answer? made call = none := by
  unfold answer?
  rw [calm]
  cases call with
  | getProperty => exact absurd rfl (other _ _ _)
  | _ => rfl

/-- A call is answered by the token, or it is made to fail and does not get there. -/
inductive Behind (plan : Plan) (call : Call) (state : Interposed Token) :
    Reply call × Interposed Token → Prop where
  | passed {made : List Operation} :
      Behind plan call state ((state.inner.answer call).1, ⟨(state.inner.answer call).2, made⟩)
  | failed {reply : Reply call} {error : BackendError} {made : List Operation}
      (refused : reply.result = .error error) (faulty : ¬ plan.Calm) :
      Behind plan call state (reply, ⟨state.inner, made⟩)

theorem answer_behind (other : ∀ handle name output, call ≠ .getProperty handle name output) :
    plan.Behind call state ((Token.backend.interposed plan).answer call state) := by
  cases planned : plan.answer? state.made call with
  | none =>
      rw [Backend.Accounting.answer_of_unplanned planned]
      exact .passed
  | some reply =>
      obtain ⟨error, refused⟩ := error_of_answer? planned other
      rw [Backend.Accounting.answer_of_planned planned]
      refine .failed refused fun calm => ?_
      rw [answer?_of_calm calm other] at planned
      cases planned

theorem inner_of_release (spares : plan.SparesReleases) (release : call.operation.isRelease = true)
    (state : Interposed Token) :
    ((Token.backend.interposed plan).answer call state).2.inner = (state.inner.answer call).2 := by
  rw [Backend.Accounting.answer_of_unplanned (answer?_of_release spares release)]
  rfl

theorem follows_answer (plan : Plan) (call : Call) (state : Interposed Token) :
    state.inner.Follows ((Token.backend.interposed plan).answer call state).2.inner := by
  have fronted : state.inner.Fronted call ((Token.backend.interposed plan).answer call state).1
    ((Token.backend.interposed plan).answer call state).2.inner :=
      (Token.fronting.interposed plan).answered call state
  generalize (Token.backend.interposed plan).answer call state = answered at fronted ⊢
  obtain ⟨reply, next, made⟩ := answered
  cases fronted with
  | passed => exact .answer state.inner call
  | failed | told => exact .refl state.inner

end Plan

/-! ## Opening -/

namespace Token

variable {token : Token}

/-- One more provider is open, under the handle issued next. -/
def withProvider (token : Token) (mode : ChainingMode) : Token :=
  { token with
    issued := token.issued + 1
    providers := token.providers.insert (.issuedAfter token.issued) mode
    providersOpened := token.providersOpened + 1 }

theorem answer_open (token : Token) :
    token.answer (.openProvider aesAlgorithm .none) =
      if token.settings.disables aesAlgorithm then (.fail .notFound, token)
      else (.succeed (.issuedAfter token.issued), token.withProvider .cbc) := by
  have plain : ¬ ProviderFlags.none.contains .hmac := by decide
  by_cases disabled : token.settings.disables aesAlgorithm
  · simp only [answer, openProvider, if_pos disabled, if_pos (Or.inr disabled)]
  · have enabled : ¬ (aesAlgorithm ≠ aesAlgorithm ∨ token.settings.disables aesAlgorithm) :=
      fun missing => missing.elim (· rfl) disabled
    simp only [answer, openProvider, if_neg disabled, if_neg enabled, if_neg plain]
    rfl

theorem answer_setMode {provider : Handle} {old : ChainingMode} (mode : ChainingMode)
    (present : token.providers.get? provider = some old) :
    token.answer (.setProperty provider PropertyName.chainingMode (encodeWide mode.text)) =
      (.succeed (), { token with providers := token.providers.replace provider mode }) := by
  have decoded : (decodeWide? (encodeWide mode.text)).bind ChainingMode.ofText? = some mode := by
    cases mode <;> rfl
  simp only [answer, setProperty, present, if_true, decoded]

end Token

variable {plan : Plan} {state : Interposed Token}

namespace Provider

theorem acquire_meets (plan : Plan) (state : Interposed Token) :
    Meets plan state.inner.settings.opening
      (fun provider _ next =>
        provider = ⟨.issuedAfter state.inner.issued, aesAlgorithm⟩ ∧
          next.inner = state.inner.withProvider .cbc)
      (fun next => next.inner = state.inner)
      (acquire (Token.backend.interposed plan) aesAlgorithm .none state) := by
  have behind : plan.Behind (.openProvider aesAlgorithm .none) state _ := Plan.answer_behind nofun
  rw [acquire]
  generalize (Token.backend.interposed plan).answer _ state = answered at behind ⊢
  cases behind with
  | failed refused faulty =>
      simp only [refused]
      exact .error (fun calm => absurd calm faulty) rfl
  | passed =>
      rw [state.inner.answer_open]
      by_cases disabled : state.inner.settings.disables aesAlgorithm
      · simp only [if_pos disabled, Settings.opening]
        exact .error (fun _ => rfl) rfl
      · simp only [if_neg disabled, Settings.opening]
        exact .ok rfl ⟨rfl, rfl⟩

variable {provider : Provider} {old : ChainingMode}

theorem setText_meets (mode : ChainingMode)
    (present : state.inner.providers.get? provider.raw = some old) :
    Meets plan (.ok ())
      (fun _ _ next => next.inner =
        { state.inner with providers := state.inner.providers.replace provider.raw mode })
      (fun next => next.inner = state.inner)
      (provider.setText (Token.backend.interposed plan) PropertyName.chainingMode mode.text
        state) := by
  let request := Call.setProperty provider.raw PropertyName.chainingMode (encodeWide mode.text)
  have behind : plan.Behind request state _ := Plan.answer_behind nofun
  change Meets plan _ _ _
    (((Token.backend.interposed plan).answer request state).1.result.mapError .backend,
      ((Token.backend.interposed plan).answer request state).2)
  generalize (Token.backend.interposed plan).answer request state = answered at behind ⊢
  cases behind with
  | failed refused faulty =>
      simp only [refused]
      exact .error (fun calm => absurd calm faulty) rfl
  | passed =>
      rw [Token.answer_setMode mode present]
      exact .ok rfl rfl

/-! ## Reading -/

/-- A property is read as the plan or the provider has it, if the call is not made to fail. -/
theorem answer_reading (plan : Plan) {handle : Handle} {name : String} {own : Bytes} (size : Nat)
    (reported : state.inner.property handle name = .ok own) :
    ∃ reply, (Token.backend.interposed plan).answer
        (.getProperty handle name (Bytes.zeros size)) state =
          (reply, ⟨state.inner, .getProperty :: state.made⟩) ∧
      ((∃ error, reply.result = .error error ∧ ¬ plan.Calm) ∨
        reply = if ((plan.property name).getD own).length ≤ (Bytes.zeros size).length then
            { result := .ok ((plan.property name).getD own).length
              output := Bytes.overlay ((plan.property name).getD own) (Bytes.zeros size)
              tagOutput := [] }
          else .fail .bufferTooSmall) := by
  cases planned : plan.answer? state.made (.getProperty handle name (Bytes.zeros size)) with
  | some reply =>
      refine ⟨_, Backend.Accounting.answer_of_planned planned, ?_⟩
      unfold Plan.answer? at planned
      split at planned
      · rename_i status faulty
        cases planned
        refine .inl ⟨_, rfl, fun calm => ?_⟩
        rw [calm] at faulty
        cases faulty
      · dsimp only at planned
        obtain ⟨value, overridden, same⟩ := Option.map_eq_some_iff.mp planned
        rw [overridden]
        exact .inr same.symm
  | none =>
      have unchanged := getProperty_unchanged handle name (Bytes.zeros size) state.inner
      refine ⟨(state.inner.answer (.getProperty handle name (Bytes.zeros size))).1, ?_, .inr ?_⟩
      · rw [Backend.Accounting.answer_of_unplanned planned]
        simp only [Token.backend, unchanged]
        rfl
      · unfold Plan.answer? at planned
        split at planned
        · cases planned
        · dsimp only at planned
          rw [Option.map_eq_none_iff.mp planned]
          simp only [Token.answer, Token.getProperty, reported]
          split
          · rw [if_pos (by assumption)]
            rfl
          · rw [if_neg (by assumption)]

theorem reading_meets {α : Type} (decode : Bytes → α) {handle : Handle} {name : String}
    {own : Bytes} (size : Nat) (reported : state.inner.property handle name = .ok own) :
    Meets plan (plan.read name own size)
      (fun value told next => value = decode told ∧ next.inner = state.inner)
      (fun next => next.inner = state.inner)
      (Action.ofCall (decode <$> (Token.backend.interposed plan).getExact handle name size)
        state) := by
  obtain ⟨reply, answered, told⟩ := answer_reading plan size reported
  simp only [Action.ofCall, Backend.reading_apply, answered]
  obtain ⟨error, refused, faulty⟩ | rfl := told
  · simp only [refused]
    exact .error (fun calm => absurd calm faulty) rfl
  · rw [Plan.read, Bytes.length_zeros]
    generalize (plan.property name).getD own = value
    by_cases fits : value.length ≤ size
    · simp only [if_pos fits, if_neg (Nat.not_lt_of_le fits), Except.bind]
      by_cases whole : value.length = size
      · have rest : (Bytes.zeros size).drop value.length = [] :=
          List.drop_eq_nil_of_le (Nat.le_of_eq ((Bytes.length_zeros size).trans whole.symm))
        simp only [if_pos whole, Bytes.overlay, rest, List.append_nil]
        exact .ok rfl ⟨rfl, rfl⟩
      · simp only [if_neg whole]
        exact .error (fun _ => rfl) rfl
    · simp only [if_neg fits, if_pos (Nat.lt_of_not_le fits)]
      exact .error (fun _ => rfl) rfl

end Provider

theorem Action.ofExcept_meets {σ α : Type} (plan : Plan) (result : Except CipherError α)
    (state : σ) :
    Meets plan result (fun value told next => value = told ∧ next = state) (· = state)
      (Action.ofExcept result state) := by
  cases result with
  | error error => exact .error (fun _ => rfl) rfl
  | ok value => exact .ok rfl ⟨rfl, rfl⟩

namespace AesAlgorithm

/-- A provider is set to its mode and left so, whether its limits are any good or not. -/
theorem initialise_meets (plan : Plan) (mode : ChainingMode) (provider : Provider)
    {old : ChainingMode} (present : state.inner.providers.get? provider.raw = some old) :
    Meets plan (plan.limits state.inner.settings)
      (fun algorithm told next => algorithm = ⟨provider, told.1, told.2⟩ ∧ next.inner =
        { state.inner with providers := state.inner.providers.replace provider.raw mode })
      (fun next => next.inner = state.inner ∨ next.inner =
        { state.inner with providers := state.inner.providers.replace provider.raw mode })
      (initialise (Token.backend.interposed plan) mode provider state) := by
  let switched : Token :=
    { state.inner with providers := state.inner.providers.replace provider.raw mode }
  have property {next : Interposed Token} (name : String) (same : next.inner = switched) :
      next.inner.property provider.raw name =
        (state.inner.providerProperty mode name).elim (.error .notSupported) .ok := by
    rw [same]
    exact Token.property_of_provider (HandleTable.get?_replace_self present mode) name
  change Meets plan (Except.ok () >>= fun _ => plan.limits state.inner.settings) _ _ _
  apply Meets.bind fun _ _ next => next.inner = switched
  case first =>
    exact (Provider.setText_meets mode present).mono (fun _ _ _ _ holds => holds) fun _ => .inl
  intro _ _ next same
  apply Meets.bind fun lengths told next => lengths = KeyLengths.decode told ∧ next.inner = switched
  case first =>
    apply (Provider.reading_meets KeyLengths.decode KeyLengths.size (property _ same)).mono
    · exact fun _ _ _ _ holds => ⟨holds.1, holds.2.trans same⟩
    · exact fun _ unchanged => .inr (unchanged.trans same)
  intro lengths bytes next holds
  obtain ⟨rfl, same⟩ := holds
  apply Meets.bind fun allowed told next => allowed = told ∧ next.inner = switched
  case first =>
    apply (Action.ofExcept_meets plan _ next).mono
    · exact fun _ _ _ _ holds => ⟨holds.1, (congrArg _ holds.2).trans same⟩
    · exact fun _ unchanged => .inr ((congrArg _ unchanged).trans same)
  intro allowed told next holds
  obtain ⟨rfl, same⟩ := holds
  apply Meets.bind fun word told next => word = decodeWord told ∧ next.inner = switched
  case first =>
    apply (Provider.reading_meets decodeWord 4 (property _ same)).mono
    · exact fun _ _ _ _ holds => ⟨holds.1, holds.2.trans same⟩
    · exact fun _ unchanged => .inr (unchanged.trans same)
  intro word bytes next holds
  obtain ⟨rfl, same⟩ := holds
  by_cases zero : decodeWord bytes = 0
  · simp only [if_pos zero]
    exact .error (fun _ => rfl) (.inr same)
  · simp only [if_neg zero]
    exact .ok rfl ⟨rfl, same⟩

end AesAlgorithm

end CipherModes
