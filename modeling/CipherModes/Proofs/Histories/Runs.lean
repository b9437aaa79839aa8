import CipherModes.Proofs.Histories.Agreement
import CipherModes.Proofs.Histories.Ledgers

/-!
# Runs that differ in everything else

Two runs over fresh tokens of the same settings may have made and dropped what
they like, and had any calls fail. A cipher or a GCM of the one run and one of the
other that were made of the same key bytes, with the same sizes, are alike in all
that they do.
-/

set_option autoImplicit false

namespace CipherModes

variable {σ : Type} {backend : Backend σ} {front : backend.Fronting} {settings : Settings}

namespace Workspace

/-! ## Ledgers of whole runs -/

/-- A ledger after commands on a workspace. -/
def ledgerAfter (backend : Backend σ) : Workspace (Recorded σ) → List Command → Ledger → Ledger
  | _, [], ledger => ledger
  | workspace, command :: rest, ledger =>
      let (response, next) := perform backend.recorded command workspace.forgetCalls
      ledgerAfter backend next rest (ledger.after command response)

theorem traced_fresh {initial : σ} (start : front.token initial = .fresh settings) :
    Traced front.recorded settings .blank (fresh { inner := initial }) :=
  ⟨congrArg Token.settings start, nofun, nofun⟩

/-- The ledger that is kept along a run is right in the end. -/
theorem Traced.afterCommands {workspace : Workspace (Recorded σ)} {commands : List Command}
    {ledger : Ledger} (fails : front.OnlyFails)
    (traced : Traced front.recorded settings ledger workspace) (sound : Sound front workspace)
    (undisturbed : Undisturbed backend workspace commands)
    (lasts : (front.token (workspace.afterCommands backend commands).backend.inner).handlesIssued <
      Handle.limit) :
    Traced front.recorded settings (workspace.ledgerAfter backend commands ledger)
      (workspace.afterCommands backend commands) := by
  induction commands generalizing workspace ledger with
  | nil => exact traced
  | cons command rest ih =>
      obtain ⟨unowned, remaining⟩ := undisturbed
      -- Handles that are left in the end were left after this command.
      have next := sound.step unowned
      have forgotten : Traced front.recorded settings ledger workspace.forgetCalls :=
        ⟨traced.settings_eq, traced.among.objects, traced.among.cached⟩
      have told : TracedBy front.recorded settings (ledger.after command)
          (perform backend.recorded command workspace.forgetCalls) :=
        perform_traced fails.recorded unowned (sound _) forgotten
      exact ih (told (next.lasts_before remaining lasts)) next remaining lasts

end Workspace

/-! ## Answers to a use -/

/-- The result and the destination, where a block or a message was asked for. -/
def Response.outcome? : Response → Option (Except Fault Unit × Bytes)
  | block result destination | sealed result destination _ => some (result, destination)
  | _ => none

/-- To command a use is to use the object itself. -/
theorem Use.perform_command (backend : Backend σ) {name : String} {item object : Item}
    {workspace : Workspace σ} (use : Use) (present : workspace.item? name = some item)
    (asMade : item.asMade? = some object) :
    (Workspace.perform backend (use.command name) workspace).1.outcome? =
        (use.run backend item workspace.backend).1 ∧
      (Workspace.perform backend (use.command name) workspace).2.backend =
        (use.run backend item workspace.backend).2 := by
  cases use with
  | cryptBlock =>
      simp only [command, Workspace.perform, Workspace.withCipher, Workspace.withItem, present]
      cases item <;> exact ⟨rfl, rfl⟩
  | sealMessage =>
      simp only [command, Workspace.perform, Workspace.sealMessage, Workspace.withItem, present]
      cases item with
      | rotatingGcm => cases asMade
      | _ => exact ⟨rfl, rfl⟩
  | openMessage =>
      simp only [command, Workspace.perform, Workspace.openMessage, Workspace.withItem, present]
      cases item with
      | rotatingGcm => cases asMade
      | _ => exact ⟨rfl, rfl⟩

theorem Use.isSome_of_suits {blockLength : Nat} {token : Token} {recipe : Recipe} {item : Item}
    {use : Use} (made : item.MadeBy blockLength token recipe) (suits : use.Suits recipe)
    (state : σ) : (use.run backend item state).1.isSome = true := by
  cases use with
  | cryptBlock =>
      cases made with
      | cipher => rfl
      | _ => cases suits
  | sealMessage | openMessage =>
      cases made with
      | cipher => cases suits
      | _ => rfl

theorem Item.MadeBy.of_asMade? {blockLength : Nat} {token : Token} {recipe : Recipe}
    {item object : Item} (found : item.asMade? = some object)
    (made : object.MadeBy blockLength token recipe) : item.MadeBy blockLength token recipe := by
  cases item with
  | cipher | gcm | blockwise =>
      cases found
      exact made
  | ordered mode =>
      cases found
      cases made with
      | ordered expanded native keyed => exact .ordered expanded native keyed
  | _ => cases found

/-! ## Runs -/

/-- Commands on a fresh token of these settings, in front of which any calls may fail. Nobody does
anything else to the handles of the run, and there are handles left. -/
structure Run (settings : Settings) where
  {σ : Type}
  backend : Backend σ
  front : backend.Fronting
  fails : front.OnlyFails
  initial : σ
  start : front.token initial = .fresh settings
  commands : List Command
  undisturbed : Workspace.Undisturbed backend (.fresh { inner := initial }) commands
  lasts : (front.token ((Workspace.fresh { inner := initial }).afterCommands backend
    commands).backend.inner).handlesIssued < Handle.limit

namespace Run

/-- What the run leads to. -/
def workspace (run : Run settings) : Workspace (Recorded run.σ) :=
  ((Workspace.fresh { inner := run.initial }).afterCommands run.backend run.commands).forgetCalls

def token (run : Run settings) : Token := run.front.token run.workspace.backend.inner

/-- Of what a cipher or a GCM was made that is alive after the run. -/
def recipe? (run : Run settings) (name : String) : Option Recipe := do
  let item ← run.workspace.item? name
  let _ ← item.asMade?
  (Workspace.fresh { inner := run.initial }).ledgerAfter run.backend run.commands .blank name

/-- The least nonce that it may still use. -/
def minNext? (run : Run settings) (name : String) : Option Nat := do
  let item ← run.workspace.item? name
  item.minNext?

/-- Uses an object after the run. -/
def asks (run : Run settings) (name : String) (use : Use) :
    Response × Workspace (Recorded run.σ) :=
  Workspace.perform run.backend.recorded (use.command name) run.workspace

/-- No call of this use fails, but for what the token itself refuses. -/
def Unhindered (run : Run settings) (name : String) (use : Use) : Prop :=
  ∀ event ∈ (run.asks name use).2.backend.events, event.Unhindered run.token

theorem item_of_recipe? {run : Run settings} {name : String} {recipe : Recipe}
    (found : run.recipe? name = some recipe) :
    ∃ item object, run.workspace.item? name = some item ∧ item.asMade? = some object ∧
      item.MadeBy settings.blockLength.toNat run.token recipe := by
  obtain ⟨item, present, rest⟩ := Option.bind_eq_some_iff.mp found
  obtain ⟨object, asMade, noted⟩ := Option.bind_eq_some_iff.mp rest
  refine ⟨item, object, present, asMade, ?_⟩
  have traced := (Workspace.traced_fresh run.start).afterCommands run.fails
    (Workspace.sound_fresh run.start) run.undisturbed run.lasts
  obtain ⟨other, told, made⟩ :=
    traced.among.objects _ (Workspace.mem_made_of_item? present asMade)
  cases noted.symm.trans told
  exact made.of_asMade? asMade

/-- Whatever two runs on tokens of the same settings did before, their ciphers and GCMs of the same
recipe answer the same use by the same result and the same bytes, unless a call fails in it that the
token would have answered. Where nonces are ordered, sealing is the same from the same least
nonce. -/
theorem outcome_eq_of_same_recipe (first second : Run settings) {name other : String}
    {recipe : Recipe} (made : first.recipe? name = some recipe)
    (twin : second.recipe? other = some recipe) (use : Use)
    (bound : use.IsSeal → first.minNext? name = second.minNext? other)
    (calm : first.Unhindered name use) (quiet : second.Unhindered other use) :
    (first.asks name use).1.outcome? = (second.asks other use).1.outcome? ∧
      (use.Suits recipe → (first.asks name use).1.outcome?.isSome = true) := by
  obtain ⟨item, object, present, asMade, made⟩ := item_of_recipe? made
  obtain ⟨peer, copy, twinPresent, twinAsMade, twinMade⟩ := item_of_recipe? twin
  obtain ⟨outcome, last⟩ := use.perform_command first.backend.recorded present asMade
  obtain ⟨answer, final⟩ := use.perform_command second.backend.recorded twinPresent twinAsMade
  have sealsAlike : use.IsSeal → item.minNext? = peer.minNext? := by
    intro isSeal
    have least := bound isSeal
    rw [minNext?, minNext?, present, twinPresent] at least
    exact least
  have agrees := Item.MadeBy.agrees first.fails second.fails made twinMade use sealsAlike
  have same := agrees.agree first.workspace.backend second.workspace.backend rfl rfl (last ▸ calm)
    (final ▸ quiet)
  rw [asks, asks, outcome, answer]
  exact ⟨same.1, fun suits => use.isSome_of_suits made suits _⟩

/-- The one run has ciphers that fail to be made, keys and providers that stay behind, and no engine
and no cipher in the end; the other has an engine of its own. They seal with different keys. -/
theorem outcome_eq_of_same_recipe_when_makers_are_gone :
    ∃ (plan : Plan) (first second : Run .default) (use : Use),
      plan.fault .setProperty 1 = some .notSupported ∧
      plan.fault .closeProvider 1 = some .invalidHandle ∧
      plan.fault .destroyKey 1 = some .invalidParameter ∧
      first.commands =
        [.newCipher "engine" (Bytes.zeros 16) "cipher",
          .newCipher "engine" (Bytes.zeros 32) "cipher",
          .newCipher "engine" (Bytes.zeros 16) "cipher", .newOrdered "cipher" "gcm",
          .sealMessage "gcm" [] (Bytes.zeros 11 ++ [1]) [7] [] false,
          .sealMessage "gcm" [] (Bytes.zeros 11 ++ [4]) [] [8] false, .drop "cipher",
          .drop "engine"] ∧
      second.commands =
        [.newEngine "another", .newCipher "another" (Bytes.zeros 16) "aes",
          .newGcm "aes" 12 16 "whole", .orderGcm "whole" "ordered",
          .sealMessage "ordered" [] (Bytes.zeros 11 ++ [4]) [7] [] true] ∧
      use = .sealMessage [] (Bytes.zeros 11 ++ [5]) [1, 2, 3] [9] false ∧
      first.recipe? "gcm" = some (.ordered (Bytes.zeros 16)) ∧
      second.recipe? "ordered" = some (.ordered (Bytes.zeros 16)) ∧
      (first.asks "gcm" use).1.outcome? = (second.asks "ordered" use).1.outcome? ∧
      ((first.asks "gcm" use).1.outcome?.any fun outcome => outcome.1.isOk) = true ∧
      (first.asks "gcm" use).2.backend.events.map (·.call.handle?) = [some ⟨6, by decide⟩] ∧
      (second.asks "ordered" use).2.backend.events.map (·.call.handle?) =
        [some ⟨4, by decide⟩] := by
  let plan : Plan :=
    { fault := fun
        | .setProperty, 1 => some .notSupported
        | .closeProvider, 1 => some .invalidHandle
        | .destroyKey, 1 => some .invalidParameter
        | _, _ => none
      property := fun _ => none }
  let first : Run .default :=
    { backend := Token.backend.interposed plan
      front := Token.fronting.interposed plan
      fails := Token.onlyFails_fronting.interposed fun _ => rfl
      initial := { inner := .fresh .default }
      start := rfl
      commands :=
        [.newCipher "engine" (Bytes.zeros 16) "cipher",
          .newCipher "engine" (Bytes.zeros 32) "cipher",
          .newCipher "engine" (Bytes.zeros 16) "cipher", .newOrdered "cipher" "gcm",
          .sealMessage "gcm" [] (Bytes.zeros 11 ++ [1]) [7] [] false,
          .sealMessage "gcm" [] (Bytes.zeros 11 ++ [4]) [] [8] false, .drop "cipher",
          .drop "engine"]
      undisturbed := by decide +kernel
      lasts := by decide +kernel }
  let second : Run .default :=
    { backend := Token.backend
      front := Token.fronting
      fails := Token.onlyFails_fronting
      initial := .fresh .default
      start := rfl
      commands :=
        [.newEngine "another", .newCipher "another" (Bytes.zeros 16) "aes",
          .newGcm "aes" 12 16 "whole", .orderGcm "whole" "ordered",
          .sealMessage "ordered" [] (Bytes.zeros 11 ++ [4]) [7] [] true]
      undisturbed := by decide +kernel
      lasts := by decide +kernel }
  let use : Use := .sealMessage [] (Bytes.zeros 11 ++ [5]) [1, 2, 3] [9] false
  refine ⟨plan, first, second, use, rfl, rfl, rfl, rfl, rfl, rfl, ?_⟩
  have made : first.recipe? "gcm" = some (.ordered (Bytes.zeros 16)) := by decide +kernel
  have twin : second.recipe? "ordered" = some (.ordered (Bytes.zeros 16)) := by decide +kernel
  have least : first.minNext? "gcm" = second.minNext? "ordered" := by decide +kernel
  have succeeds : ∀ event ∈ (first.asks "gcm" use).2.backend.events,
      event.reply.result.isOk = true := by decide +kernel
  have passes : ∀ event ∈ (second.asks "ordered" use).2.backend.events,
      event.reply.result.isOk = true := by decide +kernel
  obtain ⟨same, -⟩ := outcome_eq_of_same_recipe first second made twin use (fun _ => least)
    (fun event member => .inl (succeeds event member))
    (fun event member => .inl (passes event member))
  exact ⟨made, twin, same, by decide +kernel, by decide +kernel, by decide +kernel⟩

end Run

end CipherModes
