import CipherModes.Proofs.Accounts.Commands
import CipherModes.Proofs.Accounts.Emptying
import CipherModes.Proofs.Accounts.Record
import CipherModes.Session

/-!
# Accounts of a session

Whichever calls fail, as long as none fails that gives something back, a session
has as many open providers and live keys as its objects and caches hold, and
after each call as many as the record says. Each is given back once, and none is
left when the last object is gone.
-/

set_option autoImplicit false

namespace CipherModes.Session

variable {session : Session} {commands : List Command}

/-! ## Runs of commands -/

/-- What becomes of a session by commands, one after the other. -/
def run (session : Session) (commands : List Command) : Session :=
  commands.foldl (fun session command => (session.perform command).2) session

/-- All calls that commands make, one after the other. -/
def record (session : Session) : List Command → List Event
  | [] => []
  | command :: rest =>
      let next := (session.perform command).2
      next.workspace.backend.events ++ next.record rest

/-- The token after the calls of a record. -/
def tokenAfter (session : Session) (events : List Event) : Token :=
  ((Token.backend.interposed session.plan).replay session.workspace.backend.inner events).inner

/-- Handles have not run out. -/
def Lasts (session : Session) : Prop := session.token.handlesIssued < Handle.limit

instance (session : Session) : Decidable session.Lasts := inferInstanceAs (Decidable (_ < _))

/-- From a session to a later one, these calls were made on the token. -/
def Leads (session : Session) (events : List Event) (later : Session) : Prop :=
  later.plan = session.plan ∧
    (Token.backend.interposed session.plan).Leads session.workspace.backend.inner events
      later.workspace.backend.inner

theorem Leads.trans {middle last : Session} {events later : List Event}
    (first : session.Leads events middle) (second : middle.Leads later last) :
    session.Leads (events ++ later) last := by
  obtain ⟨plan, before⟩ := first
  obtain ⟨same, after⟩ := second
  rw [plan] at same after
  exact ⟨same, before.trans after⟩

/-! ## Order -/

/-- The keys of the objects. -/
def heldKeys (session : Session) : List ImportedKey :=
  session.workspace.items.filterMap Item.key?

/-- Neither a provider nor a key is left. -/
def NothingOpen (session : Session) : Prop :=
  session.token.providers.size = 0 ∧ session.token.keys.size = 0

/-- On the token is what objects and caches hold, all that was given back last had been there, and
without objects and without a cache nothing is left. -/
structure InOrder (session : Session) : Prop where
  tallies : session.token.Tallies (session.workspace.heldProviders.map Provider.raw)
    (session.heldKeys.map fun key => (key.raw, key.provider.raw))
  released : ∀ event ∈ session.workspace.backend.events, event.ReleasesWell
  emptied : session.workspace.slots = [] → session.workspace.cache = none → session.NothingOpen

/-- How commands keep a session in order, call by call and command by command. -/
structure Orderly (session : Session) (commands : List Command) : Prop where
  at_calls : ∀ done rest, session.record commands = done ++ rest →
    (session.tokenAfter done).Tallies (openedProviders done) (importedKeys done)
  at_commands : ∀ earlier later, commands = earlier ++ later →
    (session.run earlier).InOrder ∧
      (session.run earlier).token = session.tokenAfter (session.record earlier)
  finished : ∀ earlier later, commands = earlier ++ later →
    (session.run earlier).finish.InOrder ∧ (session.run earlier).finish.NothingOpen

/-! ## Accounts -/

/-- The accounts that a session keeps. -/
def accounting {session : Session} (spares : session.plan.SparesReleases) :
    session.backend.Accounting :=
  (Token.accounting.interposed spares).recorded

/-- The accounts of a session have been kept. -/
structure Kept (session : Session) : Prop where
  spares : session.plan.SparesReleases
  workspace : session.workspace.Kept (accounting spares) []

theorem kept_start {plan : Plan} (spares : plan.SparesReleases) (settings : Settings) :
    Kept (start plan (.fresh settings)) :=
  ⟨spares, Workspace.kept_fresh fun _ => ⟨Token.exact_fresh settings, nofun⟩⟩

theorem handlesIssued_of_givesBack {state last : SessionState}
    (spares : session.plan.SparesReleases) (releases : session.backend.GivesBack state last) :
    last.inner.inner.handlesIssued = state.inner.inner.handlesIssued := by
  induction releases with
  | nothing => rfl
  | release before call release ih =>
      rename_i middle
      have unplanned : session.plan.answer? middle.inner.made call = none :=
        Plan.answer?_of_release spares release
      have answered := @Backend.Accounting.answer_of_unplanned _ Token.backend _ _ _ unplanned
      have reached : (session.backend.answer call middle).2.inner.inner =
          (middle.inner.inner.answer call).2 := congrArg (·.2.inner) answered
      rw [reached, Token.handlesIssued_of_release release, ih]

namespace Kept

theorem forgetCalls (kept : session.Kept) : session.forgetCalls.Kept := by
  obtain ⟨spares, tidy, holds⟩ := kept
  refine ⟨spares, tidy.onBackend _, fun lasts => ?_⟩
  obtain ⟨distinct, exact, -⟩ := holds lasts
  exact ⟨distinct, exact, nofun⟩

theorem perform {command : Command} (kept : session.Kept) (uses : command.UsesObjects) :
    (session.perform command).2.Kept :=
  ⟨kept.spares, Workspace.perform_kept uses kept.forgetCalls.workspace⟩

/-- The record of a command leads from the session before to the one after. -/
theorem leads {command : Command} (kept : session.Kept) (uses : command.UsesObjects)
    (lasts : (session.perform command).2.Lasts) :
    session.Leads (session.perform command).2.workspace.backend.events
      (session.perform command).2 := by
  obtain ⟨spares, tidy, holds⟩ := kept.forgetCalls
  let traced := (accounting spares).alongside
    (fun state => (Token.backend.interposed session.plan).Leads session.workspace.backend.inner
      state.events state.inner) fun call _ before => before.answer call
  have started : session.forgetCalls.workspace.Kept traced [] :=
    ⟨⟨tidy.names, tidy.ids, tidy.numbered, tidy.alive⟩, fun before =>
      ⟨(holds before).1, .nothing, (holds before).2⟩⟩
  exact ⟨rfl, ((Workspace.perform_kept uses started).holds lasts).2.1⟩

theorem lasts_before {later : Session} {events : List Event} (kept : session.Kept)
    (leads : session.Leads events later) (lasts : later.Lasts) : session.Lasts :=
  leads.2.lasts_before (Token.accounting.interposed kept.spares) lasts

theorem run (kept : session.Kept) (uses : ∀ command ∈ commands, command.UsesObjects) :
    (session.run commands).Kept ∧ ((session.run commands).Lasts →
      session.Leads (session.record commands) (session.run commands)) := by
  induction commands generalizing session with
  | nil => exact ⟨kept, fun _ => ⟨rfl, .nothing⟩⟩
  | cons command rest ih =>
      obtain ⟨first, later⟩ := List.forall_mem_cons.mp uses
      obtain ⟨last, leads⟩ := ih (kept.perform first) later
      refine ⟨last, fun lasts => ?_⟩
      have before := (kept.perform first).lasts_before (leads lasts) lasts
      exact (kept.leads first before).trans (leads lasts)

/-- What is so of a run is so of each front of it. -/
theorem front {earlier later : List Command} (kept : session.Kept)
    (uses : ∀ command ∈ earlier ++ later, command.UsesObjects)
    (lasts : (session.run (earlier ++ later)).Lasts) :
    (session.run earlier).Kept ∧ (session.run earlier).Lasts ∧
      session.Leads (session.record earlier) (session.run earlier) := by
  obtain ⟨first, second⟩ := List.forall_mem_append.mp uses
  obtain ⟨reached, leads⟩ := kept.run first
  rw [Session.run, List.foldl_append] at lasts
  have remaining := reached.lasts_before ((reached.run second).2 lasts) lasts
  exact ⟨reached, remaining, leads remaining⟩

/-- Dropping everything issues no handle. -/
theorem finish (kept : session.Kept) :
    session.finish.Kept ∧ (session.Lasts → session.finish.Lasts) := by
  refine ⟨⟨kept.spares, kept.forgetCalls.workspace.allDropped⟩, fun lasts => ?_⟩
  obtain ⟨-, releases⟩ := Workspace.dropAll_givesBack session.backend session.forgetCalls.workspace
  have issued : session.finish.token.handlesIssued = session.forgetCalls.token.handlesIssued :=
    handlesIssued_of_givesBack kept.forgetCalls.spares releases
  rw [Lasts, issued]
  exact lasts

/-- A session that has kept its accounts is in order. -/
theorem inOrder (kept : session.Kept) (lasts : session.Lasts) : session.InOrder := by
  obtain ⟨-, exact, released⟩ := kept.workspace.holds lasts
  replace exact : Token.Exact session.workspace.heldProviders session.heldKeys session.token := by
    rw [Workspace.heldProviders_eq]
    exact exact
  have covered : ∀ key ∈ session.heldKeys, key.provider ∈ session.workspace.heldProviders := by
    intro key member
    rw [Workspace.heldProviders_eq]
    exact List.mem_append_left _ (Workspace.provider_mem_of_key member)
  have tallies := exact.tallies covered
  refine ⟨tallies, released, fun slots cache => ?_⟩
  have items : session.workspace.items = [] := congrArg (List.map Prod.snd) slots
  have keys : session.heldKeys = [] := congrArg (List.filterMap Item.key?) items
  rw [kept.workspace.nothing_held slots cache, keys] at tallies
  exact ⟨tallies.open_providers, tallies.live_keys⟩

theorem finished (kept : session.Kept) (lasts : session.Lasts) :
    session.finish.InOrder ∧ session.finish.NothingOpen := by
  obtain ⟨finished, still⟩ := kept.finish
  obtain ⟨⟨slots, cache⟩, -⟩ :=
    Workspace.dropAll_givesBack session.backend session.forgetCalls.workspace
  have order := finished.inOrder (still lasts)
  exact ⟨order, order.emptied slots cache⟩

end Kept

/-- As long as nothing fails that gives something back and handles last, a session stays in order
whatever is made of it and dropped, and whatever else fails. -/
theorem stays_in_order {plan : Plan} (spares : plan.SparesReleases) (settings : Settings)
    {commands : List Command} (uses : ∀ command ∈ commands, command.UsesObjects)
    (lasts : ((start plan (.fresh settings)).run commands).Lasts) :
    (start plan (.fresh settings)).Orderly commands := by
  have started := kept_start spares settings
  have fresh : Token.Bears [] [] (.fresh settings) := ⟨Token.exact_fresh settings, .nil, nofun⟩
  obtain ⟨-, traced⟩ := started.run uses
  constructor
  case at_calls =>
    intro done rest whole
    have leads := (traced lasts).2
    rw [whole] at leads
    exact Token.tallies_replay spares fresh leads lasts
  case at_commands =>
    rintro earlier later rfl
    obtain ⟨kept, remaining, -, leads⟩ := started.front uses lasts
    exact ⟨kept.inOrder remaining, congrArg Interposed.inner leads.replay_eq.symm⟩
  case finished =>
    rintro earlier later rfl
    obtain ⟨kept, remaining, -⟩ := started.front uses lasts
    exact kept.finished remaining

/-- Two creations of a blockwise mode and a nested script fail. The cipher outlives all names of
its engine and the cache. -/
theorem stays_in_order_when_cipher_dies_last :
    ∃ plan : Plan, plan.fault .importKey 3 = some .invalidParameter ∧
      plan.fault .encrypt 1 = some .invalidHandle ∧ plan.SparesReleases ∧
      let commands : List Command :=
        [.newCipher "engine" (Bytes.zeros 16) "cipher", .cloneEngine "engine" "clone",
          .newBlockwise "clone" (Bytes.zeros 16) 12 16 "mode",
          .newBlockwise "clone" (Bytes.zeros 16) 12 16 "mode", .newGcm "cipher" 12 16 "gcm",
          .acquire ⟨aesAlgorithm, .none, ""⟩ (.acquire ⟨aesAlgorithm, .none, ""⟩ .finish .fail)
            (some "value"),
          .drop "engine", .drop "gcm", .dropCache, .drop "clone", .drop "cipher"]
      let initial := start plan (.fresh .default)
      initial.Orderly commands ∧ (initial.run commands).token.counters = [0, 0, 4, 3] ∧
        (initial.run commands).NothingOpen := by
  let plan : Plan :=
    { fault := fun
        | .importKey, 3 => some .invalidParameter
        | .encrypt, 1 => some .invalidHandle
        | _, _ => none }
  have spares : plan.SparesReleases := by
    intro operation number release
    cases operation <;> first | rfl | cases release
  refine ⟨plan, rfl, rfl, spares, ?_⟩
  intro commands initial
  have uses : ∀ command ∈ commands, command.UsesObjects := by simp [commands, Command.UsesObjects]
  have lasts : (initial.run commands).Lasts := by decide +kernel
  have orderly : initial.Orderly commands := stays_in_order spares .default uses lasts
  obtain ⟨order, -⟩ := orderly.at_commands commands [] (List.append_nil _).symm
  exact ⟨orderly, by decide +kernel, order.emptied (by decide +kernel) (by decide +kernel)⟩

end CipherModes.Session
