import CipherModes.Proofs.Usage.Commands

/-!
# Runs that never misuse a token

Commands follow one another on a workspace over something in front of a token,
which may let any calls fail and answer for any property. Whatever was made and
dropped before, and whatever failed, the calls of each command fit the token, as
long as nobody else does anything to the handles that the workspace owns.
-/

set_option autoImplicit false

namespace CipherModes

open Backend (Fronting)

variable {σ : Type} {backend : Backend σ} {front : backend.Fronting}

/-- From one state to another, these calls were made, each of which fitted the token that it came
to. So the token never missed the key or the provider, nor did it find a key of another kind. -/
structure Backend.Fronting.Respected (front : backend.Fronting)
    (knows : ChainingMode → Handle → Prop) (initial : σ) (events : List Event) (last : σ) :
    Prop where
  leads : backend.Leads initial events last
  fits : ∀ done event rest, events = done ++ event :: rest →
    (front.token (backend.replay initial done)).Fits knows event.call
  handle_found : ∀ done event rest, events = done ++ event :: rest →
    event.call.operation ∈ [.encrypt, .decrypt, .aeadEncrypt, .aeadDecrypt, .importKey] →
      ((front.token (backend.replay initial done)).answer event.call).1.status? ≠
        some .invalidHandle
  parameters_match : ∀ done event rest, events = done ++ event :: rest →
    event.call.operation ∈ [.encrypt, .decrypt, .aeadEncrypt, .aeadDecrypt] →
      ((front.token (backend.replay initial done)).answer event.call).1.status? ≠
        some .invalidParameter

theorem Backend.Fronting.respected_of_fits {knows : ChainingMode → Handle → Prop} {initial last : σ}
    {events : List Event} (leads : backend.Leads initial events last)
    (fits : ∀ done event rest, events = done ++ event :: rest →
      (front.token (backend.replay initial done)).Fits knows event.call) :
    front.Respected knows initial events last := by
  refine ⟨leads, fits, ?_, ?_⟩
  · intro done event rest whole uses
    have fitting := fits done event rest whole
    rcases List.mem_append.mp (show _ ∈ [.encrypt, .decrypt, .aeadEncrypt, .aeadDecrypt] ++
      [Operation.importKey] from uses) with withKey | imports
    · exact (Token.status?_of_fits fitting withKey).1
    · exact Token.status?_of_fits_import fitting (List.mem_singleton.mp imports)
  · intro done event rest whole uses
    exact (Token.status?_of_fits (fits done event rest whole) uses).2

namespace Workspace

variable {workspace : Workspace (Recorded σ)} {commands : List Command}

def forgetCalls (workspace : Workspace (Recorded σ)) : Workspace (Recorded σ) :=
  { workspace with backend := { workspace.backend with events := [] } }

/-- A workspace after commands, each of which was recorded alone. -/
def afterCommands (backend : Backend σ) (workspace : Workspace (Recorded σ))
    (commands : List Command) : Workspace (Recorded σ) :=
  commands.foldl (fun workspace command =>
    (perform backend.recorded command workspace.forgetCalls).2) workspace

/-- Whatever is done by hand, at the time it is not done to a handle that the workspace owns. -/
def Undisturbed (backend : Backend σ) : Workspace (Recorded σ) → List Command → Prop
  | _, [] => True
  | workspace, command :: rest =>
      (∀ handle ∈ command.bareHandle?, handle ∉ workspace.ownedHandles) ∧
        Undisturbed backend (perform backend.recorded command workspace.forgetCalls).2 rest

instance decidableUndisturbed (backend : Backend σ) :
    (workspace : Workspace (Recorded σ)) → (commands : List Command) →
      Decidable (Undisturbed backend workspace commands)
  | _, [] => isTrue trivial
  | workspace, command :: rest =>
      haveI := decidableUndisturbed backend
        (perform backend.recorded command workspace.forgetCalls).2 rest
      inferInstanceAs (Decidable (_ ∧ _))

def Respects (front : backend.Fronting) (workspace : Workspace (Recorded σ)) (command : Command) :
    Prop :=
  front.Respected (workspace.Knows backend.recorded command) workspace.backend.inner
    (perform backend.recorded command workspace).2.backend.events
    (perform backend.recorded command workspace).2.backend.inner

/-! ## From command to command -/

/-- The token keeps what the objects and the caches have, whatever is allowed next. -/
def Sound (front : backend.Fronting) (workspace : Workspace (Recorded σ)) : Prop :=
  ∀ allowed, Served front.recorded allowed workspace.forgetCalls.backend [] workspace.forgetCalls

theorem sound_fresh {initial : σ} {settings : Settings}
    (start : front.token initial = .fresh settings) : Sound front (fresh { inner := initial }) := by
  refine fun allowed => ⟨List.pairwise_singleton .., fun _ => ⟨.start, ?_⟩⟩
  have serves := Token.serves_fresh settings
  rw [← start] at serves
  exact serves

namespace Sound

variable {command : Command} {earlier later : List Command}

theorem performed (sound : Sound front workspace)
    (unowned : ∀ handle ∈ command.bareHandle?, handle ∉ workspace.ownedHandles) :
    Served front.recorded
      (fun token call => command.UsesEngines →
        token.Fits (workspace.forgetCalls.Knows backend.recorded command) call)
      workspace.forgetCalls.backend []
      (perform backend.recorded command workspace.forgetCalls).2 := by
  refine perform_served ?_ ?_ ?_ (sound _)
  · exact unowned
  · exact fun uses token call fits _ => fits
  · exact fun unused token call uses => absurd uses unused

theorem step (sound : Sound front workspace)
    (unowned : ∀ handle ∈ command.bareHandle?, handle ∉ workspace.ownedHandles) :
    Sound front (perform backend.recorded command workspace.forgetCalls).2 := by
  have served := sound.performed unowned
  -- A new record starts here, so what was allowed up to now does not bind the calls after it.
  exact fun allowed => ⟨served.names, fun lasts => ⟨.start, (served.serving lasts).2⟩⟩

theorem split (sound : Sound front workspace)
    (undisturbed : Undisturbed backend workspace (earlier ++ later)) :
    Sound front (workspace.afterCommands backend earlier) ∧
      Undisturbed backend (workspace.afterCommands backend earlier) later := by
  induction earlier generalizing workspace with
  | nil => exact ⟨sound, undisturbed⟩
  | cons command rest ih =>
      obtain ⟨unowned, remaining⟩ := undisturbed
      exact ih (sound.step unowned) remaining

theorem lasts_before (sound : Sound front workspace)
    (undisturbed : Undisturbed backend workspace commands)
    (lasts : (front.token (workspace.afterCommands backend commands).backend.inner).handlesIssued <
      Handle.limit) :
    (front.token workspace.backend.inner).handlesIssued < Handle.limit := by
  induction commands generalizing workspace with
  | nil => exact lasts
  | cons command rest ih =>
      obtain ⟨unowned, remaining⟩ := undisturbed
      have still := ih (sound.step unowned) remaining lasts
      obtain ⟨proceeds, -⟩ := (sound.performed unowned).serving still
      exact Nat.lt_of_le_of_lt proceeds.handlesIssued_le still

end Sound

/-- A run of commands on a fresh token never misuses it, whichever calls fail and whichever
properties are answered in its place: every block goes to a live key for blocks, every message with
a nonce and a tag of standard size to a live key for messages, and every secret to an open provider
in the mode by which an engine knows it. -/
theorem never_misuses_token {initial : σ} {settings : Settings}
    (start : front.token initial = .fresh settings)
    (undisturbed : Undisturbed backend (fresh { inner := initial }) commands)
    (lasts : (front.token ((fresh { inner := initial }).afterCommands backend
      commands).backend.inner).handlesIssued < Handle.limit)
    {earlier later : List Command} {command : Command}
    (whole : commands = earlier ++ command :: later) (uses : command.UsesEngines) :
    Respects front ((fresh { inner := initial }).afterCommands backend earlier).forgetCalls
      command := by
  subst whole
  obtain ⟨sound, now, later⟩ := (sound_fresh start).split undisturbed
  rw [afterCommands, List.foldl_append] at lasts
  have still := (sound.step now).lasts_before later lasts
  obtain ⟨proceeds, -⟩ := (sound.performed now).serving still
  obtain ⟨leads, fits⟩ := proceeds.of_recorded
  exact front.respected_of_fits leads fun done event rest split => fits done event rest split uses

/-- A provider and a key are left behind, a secret that is too short gets to the token, somebody
else has a provider, and the message is sealed when the engine and the cipher are gone. -/
theorem never_misuses_token_when_releases_fail :
    ∃ plan : Plan, plan.fault .setProperty 1 = some .notSupported ∧
      plan.fault .closeProvider 1 = some .invalidHandle ∧
      plan.fault .destroyKey 1 = some .invalidParameter ∧
      plan.property PropertyName.keyLengths = some (KeyLengths.encode ⟨8, 256, 8⟩) ∧
      let front := Token.fronting.interposed plan
      let earlier : List Command :=
        [.newCipher "engine" (Bytes.zeros 16) "cipher",
          .newCipher "engine" (Bytes.zeros 16) "cipher", .newCipher "engine" [0] "short",
          .call (.openProvider aesAlgorithm .none),
          .setText ⟨4, by decide⟩ PropertyName.chainingMode ChainingMode.gcm.text,
          .newGcm "cipher" 12 16 "gcm", .drop "cipher", .drop "engine"]
      let command : Command := .sealMessage "gcm" [] (Bytes.zeros 12) [1, 2, 3] [] false
      let before := ((fresh { inner := { inner := .fresh .default } }).afterCommands
        (Token.backend.interposed plan) earlier).forgetCalls
      let after := (perform (Token.backend.interposed plan).recorded command before).2
      command.UsesEngines ∧ Respects front before command ∧
        after.backend.events.map (·.call.handle?) = [some ⟨6, by decide⟩] ∧
        after.backend.inner.inner.counters = [4, 2, 4, 2] := by
  let plan : Plan :=
    { fault := fun
        | .setProperty, 1 => some .notSupported
        | .closeProvider, 1 => some .invalidHandle
        | .destroyKey, 1 => some .invalidParameter
        | _, _ => none
      property := fun name =>
        if name = PropertyName.keyLengths then some (KeyLengths.encode ⟨8, 256, 8⟩) else none }
  refine ⟨plan, rfl, rfl, rfl, rfl, ?_⟩
  intro front earlier command before after
  have undisturbed : Undisturbed (Token.backend.interposed plan)
      (fresh { inner := { inner := .fresh .default } }) (earlier ++ [command]) := by
    decide +kernel
  have lasts : (front.token ((fresh { inner := { inner := .fresh .default } }).afterCommands
      (Token.backend.interposed plan) (earlier ++ [command])).backend.inner).handlesIssued <
        Handle.limit := by
    decide +kernel
  have start : front.token { inner := .fresh .default } = .fresh .default := rfl
  have uses : command.UsesEngines := trivial
  have respected : Respects front before command :=
    never_misuses_token start undisturbed lasts rfl uses
  exact ⟨uses, respected, by decide +kernel, by decide +kernel⟩

end Workspace

end CipherModes
