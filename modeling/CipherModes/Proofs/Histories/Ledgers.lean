import CipherModes.Proofs.Histories.Objects
import CipherModes.Proofs.Histories.Recipes
import CipherModes.Proofs.Usage.Runs

/-!
# Ledgers of what was made

A ledger tells of what the object of each name was made last. It is kept by what
commands are told and what they answer, and never by what they do. Whatever fails
on the way and whatever is dropped, it is right about every cipher and GCM that
is alive.
-/

set_option autoImplicit false

namespace CipherModes

open Backend (Fronting)
open Backend.Fronting (Admits)

/-- Of what the object of a name was made last. -/
abbrev Ledger := String → Option Recipe

namespace Ledger

def blank : Ledger := fun _ => none

def note (ledger : Ledger) (target : String) (recipe : Recipe) : Ledger :=
  Function.update ledger target (some recipe)

/-- Notes what was made of the key bytes of another object. -/
def derive (ledger : Ledger) (source target : String) (make : Bytes → Recipe) : Ledger :=
  match ledger source with
  | none => ledger
  | some recipe => ledger.note target (make recipe.secret)

/-- A ledger after a command that was answered so. -/
def after (ledger : Ledger) (command : Command) (response : Response) : Ledger :=
  match command, response with
  | .newCipher _ secret target, .cipher _ => ledger.note target (.cipher secret)
  | .newGcm cipher nonceSize tagSize target, .gcm _ =>
      ledger.derive cipher target (.gcm · nonceSize tagSize)
  | .newBlockwise _ secret nonceSize tagSize target, .sizes .. =>
      ledger.note target (.blockwise secret nonceSize tagSize)
  | .newOrdered cipher target, .ordered _ => ledger.derive cipher target .ordered
  | .orderGcm gcm target, .done => ledger.derive gcm target .ordered
  | _, _ => ledger

variable {ledger : Ledger}

theorem after_of_not_makes {command : Command} (makesNothing : ¬ command.Makes)
    (response : Response) : ledger.after command response = ledger := by
  cases command with
  | newCipher | newGcm | newBlockwise | newOrdered | orderGcm => exact absurd trivial makesNothing
  | _ => rfl

theorem derive_of_eq {source : String} {recipe : Recipe} (found : ledger source = some recipe)
    (target : String) (make : Bytes → Recipe) :
    ledger.derive source target make = ledger.note target (make recipe.secret) := by
  rw [derive, found]

/-- The ledger is right about an object of this name. -/
def Tells (ledger : Ledger) (blockLength : Nat) (token : Token) (entry : String × Item) : Prop :=
  ∃ recipe, ledger entry.1 = some recipe ∧ entry.2.MadeBy blockLength token recipe

theorem Tells.note {blockLength : Nat} {token : Token} {entry : String × Item}
    (tells : ledger.Tells blockLength token entry) {target : String} (other : entry.1 ≠ target)
    (recipe : Recipe) : (ledger.note target recipe).Tells blockLength token entry := by
  obtain ⟨former, found, made⟩ := tells
  exact ⟨former, (Function.update_of_ne other _ _).trans found, made⟩

theorem tells_note {blockLength : Nat} {token : Token} {target : String} {item : Item}
    {recipe : Recipe} (made : item.MadeBy blockLength token recipe) :
    (ledger.note target recipe).Tells blockLength token (target, item) :=
  ⟨recipe, Function.update_self .., made⟩

end Ledger

namespace Workspace

variable {α σ : Type} {backend : Backend σ} {front : backend.Fronting} {settings : Settings}
  {ledger : Ledger} {workspace : Workspace σ} {allowed : Token → Call → Prop} {initial : σ}
  {loose : List Item}

/-- The ledger is right about the ciphers and GCMs of a workspace, and engines have cached
providers as the token reports them. -/
structure Traced (front : backend.Fronting) (settings : Settings) (ledger : Ledger)
    (workspace : Workspace σ) : Prop where
  settings_eq : (front.token workspace.backend).settings = settings
  among : workspace.Among
    (ledger.Tells settings.blockLength.toNat (front.token workspace.backend))
    (·.2.blockSize = settings.blockLength.toNat)

/-- As long as there are handles left, the ledger that is made of an answer is right. -/
def TracedBy (front : backend.Fronting) (settings : Settings) (told : Response → Ledger)
    (outcome : Response × Workspace σ) : Prop :=
  (front.token outcome.2.backend).handlesIssued < Handle.limit →
    Traced front settings (told outcome.1) outcome.2

/-! ## From one state to another -/

/-- What was allowed so far does not bind the calls after it. -/
theorem Served.rebased (served : Served front allowed initial loose workspace) :
    Served front (fun _ _ => True) workspace.backend loose workspace :=
  ⟨served.names, fun lasts => ⟨.start, (served.serving lasts).2⟩⟩

theorem Served.handlesIssued_le (served : Served front allowed initial loose workspace)
    (lasts : (front.token workspace.backend).handlesIssued < Handle.limit) :
    (front.token initial).handlesIssued < Handle.limit :=
  Nat.lt_of_le_of_lt (served.serving lasts).1.handlesIssued_le lasts

/-- What was made before and is alive is still what it was. -/
theorem Served.traced (served : Served front allowed initial loose workspace)
    (lasts : (front.token workspace.backend).handlesIssued < Handle.limit)
    (accounted : (front.token initial).Accounted)
    (same : (front.token initial).settings = settings)
    (among : workspace.Among (ledger.Tells settings.blockLength.toNat (front.token initial))
      (·.2.blockSize = settings.blockLength.toNat)) :
    Traced front settings ledger workspace := by
  obtain ⟨proceeds, serves⟩ := served.serving lasts
  refine ⟨proceeds.settings_eq.trans same, ?_, among.cached⟩
  intro entry member
  obtain ⟨recipe, found, made⟩ := among.objects entry member
  refine ⟨recipe, found, made.of_same fun held holds => ?_⟩
  obtain ⟨material, live⟩ := made.live held holds
  -- Handles are not issued again, so a key that lives now is the one that lived before. It lives
  -- because the object has it in custody.
  apply proceeds.material?_eq accounted lasts live
  obtain ⟨item, present, asMade⟩ := mem_made_iff.mp member
  obtain ⟨alike, owned, mode, owns, used⟩ := Item.custody?_of_asMade? asMade
  obtain rfl : held = owned := Option.some.inj (holds.symm.trans (alike.trans owns))
  have inCustody : held ∈ (loose ++ workspace.items).filterMap Item.custody? := by
    apply List.mem_filterMap.mpr
    exact ⟨item, List.mem_append_right _ (List.mem_map_of_mem present), owns⟩
  obtain ⟨object, secret, lives, -⟩ := serves.live held inCustody mode used
  rw [Token.material?, lives]
  rfl

/-- A new object gets its name with the calls that this takes. -/
theorem Served.named {target : String} {item : Item}
    (served : Served front allowed initial [item] workspace) :
    Served front (fun _ _ => True) workspace.backend []
      (store backend target item workspace).2 := by
  have admits : Admits (fun _ _ => True) fun _ _ => True := fun _ _ _ => trivial
  exact served.rebased.stored admits

namespace Traced

variable {target : String} {item : Item} {recipe : Recipe}

/-- A new object gets its name, and is noted. -/
theorem stored (traced : Traced front settings ledger workspace)
    (served : Served front allowed initial [item] workspace)
    (lasts : (front.token (store backend target item workspace).2.backend).handlesIssued <
      Handle.limit)
    (asMade : item.asMade? = some item)
    (made : item.MadeBy settings.blockLength.toNat (front.token workspace.backend) recipe) :
    Traced front settings (ledger.note target recipe) (store backend target item workspace).2 := by
  have before := served.named.handlesIssued_le lasts
  apply served.named.traced lasts (served.serving before).2.accounted traced.settings_eq
  apply Among.stored
  · exact fun entry member other => (traced.among.objects entry member).note other recipe
  · exact traced.among.cached
  · intro object found
    rw [asMade] at found
    cases found
    exact Ledger.tells_note made

/-- An engine makes a new object, or fails to; what is told of it is noted. -/
theorem attemptEngine {id : EngineId} {action : Action (Driven σ) α} {entrusted : α → Custody}
    {told : Response → Ledger} {respond : α → StateM (Workspace σ) Response}
    (traced : Traced front settings ledger workspace) (object : α → Item) (response : α → Response)
    (recipe : Recipe) (served : Served front (fun _ _ => True) workspace.backend [] workspace)
    (entrusts : action.Entrusts front entrusted)
    (holds : ∀ value, (object value).custody? = some (entrusted value))
    (keeps : action.KeepsReports front settings)
    (makes : ∀ ⦃start value next⦄, (Driven.seen front start).Coherent →
      (Driven.seen front start).Reports settings → action start = (.ok value, next) →
        (object value).asMade? = some (object value) ∧
          (object value).MadeBy settings.blockLength.toNat (front.token next.backend) recipe)
    (unmade : told .noSuchItem = ledger) (failed : ∀ error, told (.failed (.error error)) = ledger)
    (done : ∀ value, told (response value) = ledger.note target recipe)
    (responds : ∀ value next, respond value next =
      (response value, (store backend target (object value) next).2)) :
    TracedBy front settings told (Workspace.attemptEngine id action respond workspace) := by
  intro lasts
  cases found : workspace.engineCache? id with
  | none =>
      simp only [Workspace.attemptEngine, bind, StateT.bind, onEngine, found]
      exact unmade.symm ▸ traced
  | some cache =>
      have asked := served.asked object entrusts found (fun _ _ _ _ _ => trivial) holds
      have reports : (Driven.seen front ⟨cache, workspace.backend⟩).Reports settings :=
        ⟨traced.settings_eq, fun entry member =>
          traced.among.cached entry (entries_of_engineCache? found member)⟩
      have cached := keeps ⟨cache, workspace.backend⟩ reports
      simp only [Workspace.attemptEngine, bind, StateT.bind, onEngine, found] at lasts ⊢
      cases ran : action ⟨cache, workspace.backend⟩ with
      | mk result driven =>
          rw [ran] at cached lasts
          have among := traced.among.afterEngine id cached
          cases result with
          | error error =>
              have kept := asked.error_of_eq rfl ran
              have accounted := (served.serving (kept.handlesIssued_le lasts)).2.accounted
              exact (failed error).symm ▸ kept.traced lasts accounted traced.settings_eq among
          | ok value =>
              have loose := asked.ok_of_eq rfl ran
              simp only [responds] at lasts ⊢
              -- The name may have been another object's, which is given back after this one is made.
              have halfway := loose.named.handlesIssued_le lasts
              have serves := (served.serving (loose.handlesIssued_le halfway)).2
              have coherent : (Driven.seen front ⟨cache, workspace.backend⟩).Coherent :=
                serves.coherent (entries_of_engineCache? found)
              obtain ⟨asMade, made⟩ := makes coherent reports ran
              have still := loose.traced halfway serves.accounted traced.settings_eq among
              rw [done]
              exact still.stored loose lasts asMade made

/-- The ledger knows the key bytes of a cipher by its name. -/
theorem ledger_of_cipher {name : String} {cipher : AesCipher}
    (traced : Traced front settings ledger workspace)
    (present : workspace.item? name = some (.cipher cipher)) :
    ledger name = some (.cipher cipher.secret) := by
  obtain ⟨recipe, found, made⟩ := traced.among.objects _ (mem_made_of_item? present rfl)
  cases made with
  | cipher expanded keeps size live => rw [found, keeps]

/-- A GCM of the standard sizes is one for whole messages. -/
theorem orderGcm {name : String} (traced : Traced front settings ledger workspace)
    (served : Served front (fun _ _ => True) workspace.backend [] workspace) :
    TracedBy front settings (ledger.after (.orderGcm name target))
      (Workspace.orderGcm backend name target workspace) := by
  apply withItem_answers fun _ => traced
  intro item present
  cases item with
  | gcm gcm =>
      intro lasts
      have admits : Admits (fun _ _ => True) fun _ _ => True := fun _ _ _ => trivial
      have loose := served.taken present
      have fewer : Traced front settings ledger
          { workspace with slots := workspace.slotsWithout name } :=
        ⟨traced.settings_eq, traced.among.of_slots fun slot member =>
          traced.among.slot (List.mem_of_mem_filter member)⟩
      simp only [bind, StateT.bind, take_of_item present] at lasts ⊢
      cases accepted : Gcm.Ordered.ofGcm gcm with
      | error error =>
          rw [accepted] at lasts
          have kept := loose.rebased.itemReleased admits
          have accounted := (loose.serving (kept.handlesIssued_le lasts)).2.accounted
          exact kept.traced lasts accounted fewer.settings_eq (fewer.among.itemReleased _)
      | ok ordered =>
          rw [accepted] at lasts
          obtain ⟨nonces, tags, rfl⟩ := Gcm.Ordered.ofGcm_eq_ok_iff.mp accepted
          have dressed : Served front (fun _ _ => True) workspace.backend
              [.ordered { gcm, minNext := 0 }] _ := ⟨loose.names, loose.serving⟩
          obtain ⟨recipe, found, made⟩ := traced.among.objects _ (mem_made_of_item? present rfl)
          cases made with
          | gcm expanded nonceSize tagSize native keyed =>
              have standard := native.mpr ⟨nonceSize.symm.trans nonces, tagSize.symm.trans tags⟩
              have named := fewer.stored dressed lasts rfl (.ordered expanded standard keyed)
              have noted := Ledger.derive_of_eq found target .ordered
              rw [Recipe.secret] at noted
              rw [← noted] at named
              exact named
  | _ => exact fun _ => traced

end Traced

/-! ## Commands and runs -/

theorem perform_traced {command : Command} (fails : front.OnlyFails)
    (unowned : ∀ handle ∈ command.bareHandle?, handle ∉ workspace.ownedHandles)
    (served : Served front (fun _ _ => True) workspace.backend [] workspace)
    (traced : Traced front settings ledger workspace) :
    TracedBy front settings (ledger.after command) (perform backend command workspace) := by
  by_cases makes : command.Makes
  · cases command with
    | newCipher engine secret target =>
        apply withEngine_answers fun _ => traced
        intro id _
        apply traced.attemptEngine .cipher .cipher (.cipher secret) served
          (AesCipher.create_entrusts id secret) (fun _ => rfl) (.createCipher fails id secret) _
          rfl (fun _ => rfl) (fun _ => rfl) fun _ _ => rfl
        exact fun _ _ _ coherent reports made =>
          ⟨rfl, AesCipher.madeBy_of_create fails coherent reports made⟩
    | newGcm cipher nonceSize tagSize target =>
        apply withCipher_answers fun _ => traced
        intro cipher present
        have noted := Ledger.derive_of_eq (traced.ledger_of_cipher present) target
          (.gcm · nonceSize tagSize)
        apply traced.attemptEngine .gcm .gcm (.gcm cipher.secret nonceSize tagSize) served
          (Gcm.create_entrusts cipher nonceSize tagSize) (fun _ => rfl)
          (.createGcm fails cipher nonceSize tagSize) _ rfl (fun _ => rfl) (fun _ => noted)
          fun _ _ => rfl
        exact fun _ _ _ coherent _ made => ⟨rfl, Gcm.madeBy_of_create fails coherent _ made⟩
    | newBlockwise engine secret nonceSize tagSize target =>
        apply withEngine_answers fun _ => traced
        intro id _
        apply traced.attemptEngine (fun made => .blockwise made.1 made.2)
          (fun made => .sizes made.2.nonceSize made.2.tagSize)
          (.blockwise secret nonceSize tagSize) served
          (Gcm.createBlockwise_entrusts id secret nonceSize tagSize) (fun _ => rfl)
          (.createBlockwise fails id secret nonceSize tagSize) _ rfl (fun _ => rfl) (fun _ => rfl)
          fun _ _ => rfl
        exact fun _ _ _ coherent _ made =>
          ⟨rfl, Gcm.Blockwise.madeBy_of_create fails coherent _ made⟩
    | newOrdered cipher target =>
        apply withCipher_answers fun _ => traced
        intro cipher present
        have noted := Ledger.derive_of_eq (traced.ledger_of_cipher present) target .ordered
        apply traced.attemptEngine .ordered .ordered (.ordered cipher.secret) served
          (Gcm.Ordered.create_entrusts cipher) (fun _ => rfl) (.createOrdered fails cipher) _ rfl
          (fun _ => rfl) (fun _ => noted) fun _ _ => rfl
        intro _ ordered _ coherent _ made
        obtain ⟨least, whole⟩ := Gcm.Ordered.madeBy_of_create fails coherent _ made
        obtain ⟨gcm, bound⟩ := ordered
        cases least
        exact ⟨rfl, whole⟩
    | orderGcm gcm target => exact traced.orderGcm served
    | _ => cases makes
  · intro lasts
    have after : Served front (fun _ _ => True) workspace.backend []
        (perform backend command workspace).2 :=
      perform_served unowned (fun _ _ _ _ => trivial) (fun _ _ _ => trivial) served
    have accounted := (served.serving (after.handlesIssued_le lasts)).2.accounted
    rw [Ledger.after_of_not_makes makes]
    exact after.traced lasts accounted traced.settings_eq (perform_among makes traced.among)

end Workspace

end CipherModes
