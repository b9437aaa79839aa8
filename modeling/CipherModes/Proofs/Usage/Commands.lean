import CipherModes.Proofs.Accounts.Commands
import CipherModes.Proofs.Usage.Making

/-!
# Commands that make fitting calls

Every command on objects makes fitting calls only and takes nothing from other
objects. A key that is imported by hand need not fit, and calls on a handle that
is given as a number are left out, as long as the handle is not owned.
-/

set_option autoImplicit false

namespace CipherModes

open Backend (Fronting)
open Backend.Fronting (Admits Serving Keeps)

namespace Command

/-- The handle that a command is given as a number. -/
def bareHandle? : Command → Option Handle
  | .call request => request.handle?
  | setText handle .. | getWord handle _ | getKeyLengths handle => some handle
  | _ => none

/-- The command works through the objects of a workspace and has keys imported by engines. -/
def UsesEngines : Command → Prop
  | newKey .. => False
  | command => command.UsesObjects

end Command

variable {α σ : Type} {backend : Backend σ} {front : backend.Fronting}
  {allowed : Token → Call → Prop} {initial : σ} {knows : ChainingMode → Handle → Prop}

namespace Workspace

variable {workspace : Workspace σ} {name : String}

/-- The providers that engines have cached and the keys that are used. -/
def ownedHandles (workspace : Workspace σ) : List Handle :=
  workspace.engineEntries.map (·.2.provider.raw) ++
    ((workspace.items.filterMap Item.custody?).filter (·.mode.isSome)).map (·.key.raw)

/-- What the engine that a command asks for a provider has cached afterwards. -/
def askedCache? (backend : Backend σ) (workspace : Workspace σ) :
    Command → Option (ProviderCache AesAlgorithm)
  | .newCipher engine secret _ => do
      let .engine id ← workspace.item? engine | none
      workspace.cacheAfter? id (AesCipher.create backend id secret)
  | .newGcm cipher nonceSize tagSize _ => do
      let .cipher cipher ← workspace.item? cipher | none
      workspace.cacheAfter? cipher.engine (Gcm.create backend cipher nonceSize tagSize)
  | .newBlockwise engine secret nonceSize tagSize _ => do
      let .engine id ← workspace.item? engine | none
      workspace.cacheAfter? id (Gcm.createBlockwise backend id secret nonceSize tagSize)
  | .newOrdered cipher _ => do
      let .cipher cipher ← workspace.item? cipher | none
      workspace.cacheAfter? cipher.engine (Gcm.Ordered.create backend cipher)
  | _ => none

/-- The engine that a command asks knows a provider by a mode. -/
def Knows (backend : Backend σ) (workspace : Workspace σ) (command : Command)
    (mode : ChainingMode) (provider : Handle) : Prop :=
  ∃ cache ∈ workspace.askedCache? backend command, cache.Knows mode provider

theorem spares_of_unowned {call : Call}
    (unowned : ∀ handle ∈ call.handle?, handle ∉ workspace.ownedHandles) :
    call.Spares (workspace.items.filterMap Item.custody?) workspace.engineEntries := by
  constructor
  case keys =>
    rintro held member used rfl
    apply unowned _ rfl
    apply List.mem_append_right
    exact List.mem_map_of_mem (List.mem_filter.mpr ⟨member, used⟩)
  case providers =>
    intro entry member
    have owned : entry.2.provider.raw ∈ workspace.ownedHandles :=
      List.mem_append_left _ (List.mem_map_of_mem member)
    constructor
    · rintro rfl
      exact unowned _ rfl owned
    · rintro property value rfl
      exact unowned _ rfl owned

theorem admits_of_asked {command : Command} {cache : ProviderCache AesAlgorithm}
    (fits : Admits allowed (workspace.Knows backend command))
    (asked : workspace.askedCache? backend command = some cache) : Admits allowed cache.Knows :=
  fun token call known => fits token call (known.mono fun _ _ knows => ⟨cache, asked, knows⟩)

theorem mem_strangers {item : Item} {provider : Provider} (member : item ∈ workspace.items)
    (opened : provider ∈ item.provider?) :
    provider ∈ workspace.items.filterMap Item.provider? :=
  List.mem_filterMap.mpr ⟨item, member, opened⟩

theorem mem_custody {item : Item} {held : Custody} (present : workspace.item? name = some item)
    (holds : item.custody? = some held) :
    held ∈ workspace.items.filterMap Item.custody? :=
  List.mem_filterMap.mpr ⟨item, mem_items_of_item? present, holds⟩

theorem Served.nothingStored {item : Item} (served : Served front allowed initial [] workspace)
    (admits : Admits allowed knows) (keyless : item.custody? = none)
    (providerless : item.provider? = none) :
    Served front allowed initial [] (store backend name item workspace).2 := by
  have loose : Served front allowed initial [item] workspace :=
    served.passed served.names (.of_nothing keyless providerless workspace.items)
  exact loose.stored admits

/-! ## Streams -/

section

variable (admits : Admits allowed knows) (served : Served front allowed initial [] workspace)
include admits served

theorem overCipher_served {source : String} {operation : CipherOperation α}
    (sequential : ∀ {property : {α : Type} → StateM σ α → Prop}, Sequential property →
      ∀ {cipher : BlockCipher σ}, (∀ direction source destination,
        property (cipher.transform direction source destination)) →
          property (operation σ cipher)) :
    Served front allowed initial [] (overCipher backend source operation workspace).2 := by
  simp only [overCipher, bind, StateT.bind, get, getThe, MonadStateOf.get, StateT.get, pure]
  cases present : workspace.item? source with
  | none => exact served
  | some item =>
      cases item with
      | cipher cipher =>
          have held := mem_custody present rfl
          exact served.keeping (sequential Keeps.sequential (Keeps.blockCipher admits held))
      | rotating cipher made => exact served.bareUpdated rfl rfl
      | _ => exact served

theorem onStream_served {operation : Cbc → CipherOperation (Except Fault Unit × Bytes × Cbc)}
    (sequential : ∀ {property : {α : Type} → StateM σ α → Prop}, Sequential property →
      ∀ stream {cipher : BlockCipher σ}, (∀ direction source destination,
        property (cipher.transform direction source destination)) →
          property (operation stream σ cipher)) :
    Served front allowed initial [] (onStream backend name operation workspace).2 := by
  apply withStream_ends served
  intro source stream _
  have transformed : Served front allowed initial []
      (overCipher backend source (operation stream) workspace).2 :=
    overCipher_served admits served fun has _ transforms => sequential has stream transforms
  simp only [bind, StateT.bind]
  cases ran : overCipher backend source (operation stream) workspace with
  | mk outcome next =>
      rw [ran] at transformed
      cases outcome with
      | none => exact transformed
      | some reply =>
          obtain ⟨result, buffer, last⟩ := reply
          exact transformed.bareUpdated rfl rfl

omit admits in
theorem restartStream_served (iv : Bytes) :
    Served front allowed initial [] (restartStream name iv workspace).2 := by
  apply withStream_ends served
  intro source stream _
  cases stream.restart iv with
  | error precondition => exact served
  | ok next => exact served.bareUpdated rfl rfl

theorem newStream_served (direction : Direction) (iv : Bytes) (target : String) :
    Served front allowed initial [] (newStream backend name direction iv target workspace).2 := by
  apply withItem_ends served
  intro item _
  cases item with
  | cipher cipher =>
      dsimp only
      cases Cbc.start cipher.blockSize direction iv with
      | error precondition => exact served
      | ok stream => exact served.nothingStored admits rfl rfl
  | rotating cipher made =>
      dsimp only
      cases Cbc.start cipher.blockSize direction iv with
      | error precondition => exact served
      | ok stream => exact served.nothingStored admits rfl rfl
  | _ => exact served

/-! ## Messages -/

theorem sealMessage_served (destination nonce plaintext aad : Bytes) (replaces : Bool) :
    Served front allowed initial []
      (sealMessage backend name destination nonce plaintext aad replaces workspace).2 := by
  apply withItem_ends served
  intro item present
  cases item with
  | gcm gcm =>
      have spares : Spares front allowed initial workspace (throughBuffer replaces destination
          fun buffer => plain (gcm.sealInto backend buffer nonce plaintext aad)) :=
        Keeps.sequential.throughBuffer fun _ => Keeps.sequential.plain
          (Keeps.sequential.sealMessage (Keeps.gcmCalls admits (mem_custody present rfl)) _ _ _ _)
      exact served.keeping spares
  | blockwise cipher mode =>
      exact served.keeping (Keeps.sequential.sealInto
        (Keeps.blockCipher admits (mem_custody present rfl)) mode _ _ _ _)
  | rotatingGcm cipher made mode => exact served.bareUpdated rfl rfl
  | ordered ordered =>
      have spares : Spares front allowed initial workspace (throughBuffer replaces destination
          fun buffer => ordered.sealInto backend buffer nonce plaintext aad) :=
        Keeps.sequential.throughBuffer fun _ =>
          Keeps.sequential.sealOrdered (Keeps.gcmCalls admits (mem_custody present rfl)) _ _ _ _
      -- The next nonce is another one, but the object stores the same GCM and so the same key.
      have alike (next : Gcm.Ordered) (same : next.gcm = ordered.gcm) :
          (Item.ordered next).Within (.ordered ordered) :=
        ⟨.inr (congrArg (fun gcm : Gcm => some gcm.custody) same), .inl rfl⟩
      apply (served.keeping spares).updated
      intro slot member named
      rw [item_of_slot served.names present member named]
      exact alike _ (gcm_of_sealInto ..)
  | _ => exact served

theorem openMessage_served (destination nonce sealedText aad : Bytes) (replaces : Bool) :
    Served front allowed initial []
      (openMessage backend name destination nonce sealedText aad replaces workspace).2 := by
  apply withItem_ends served
  intro item present
  cases item with
  | gcm gcm =>
      have spares : Spares front allowed initial workspace (throughBuffer replaces destination
          fun buffer => plain (gcm.openInto backend buffer nonce sealedText aad)) :=
        Keeps.sequential.throughBuffer fun _ => Keeps.sequential.plain
          (Keeps.sequential.openMessage (Keeps.gcmCalls admits (mem_custody present rfl)) _ _ _ _)
      exact served.keeping spares
  | blockwise cipher mode =>
      exact served.keeping (Keeps.sequential.openInto
        (Keeps.blockCipher admits (mem_custody present rfl)) mode _ _ _ _)
  | rotatingGcm cipher made mode => exact served.bareUpdated rfl rfl
  | ordered ordered =>
      have spares : Spares front allowed initial workspace (throughBuffer replaces destination
          fun buffer => plain (ordered.openInto backend buffer nonce sealedText aad)) :=
        Keeps.sequential.throughBuffer fun _ => Keeps.sequential.plain
          (Keeps.sequential.openMessage (Keeps.gcmCalls admits (mem_custody present rfl)) _ _ _ _)
      exact served.keeping spares
  | _ => exact served

theorem orderGcm_served (target : String) :
    Served front allowed initial [] (orderGcm backend name target workspace).2 := by
  apply withItem_ends served
  intro item present
  cases item with
  | gcm gcm =>
      have loose := served.taken present
      simp only [bind, StateT.bind, take_of_item present]
      cases made : Gcm.Ordered.ofGcm gcm with
      | error error => exact loose.itemReleased admits
      | ok ordered =>
          obtain ⟨-, -, rfl⟩ := Gcm.Ordered.ofGcm_eq_ok_iff.mp made
          have dressed : Served front allowed initial [.ordered { gcm, minNext := 0 }] _ :=
            ⟨loose.names, loose.serving⟩
          exact dressed.stored admits
  | _ => exact served

end

/-! ## All commands -/

theorem newEngine_served (served : Served front allowed initial [] workspace) :
    Served front allowed initial [.engine workspace.nextEngine] { workspace with
      engines := workspace.engines ++ [(workspace.nextEngine, .empty)]
      nextEngine := workspace.nextEngine + 1 } := by
  refine ⟨served.names, served.serving.shrink (.refl _) ?_ (List.Subset.refl _)⟩
  rw [engineEntries, List.flatMap_append]
  exact List.append_subset.mpr ⟨List.Subset.refl _, nofun⟩

theorem perform_served {command : Command}
    (unowned : ∀ handle ∈ command.bareHandle?, handle ∉ workspace.ownedHandles)
    (admits : command.UsesEngines → Admits allowed (workspace.Knows backend command))
    (manual : ¬ command.UsesEngines → ∀ token call, allowed token call)
    (served : Served front allowed initial [] workspace) :
    Served front allowed initial [] (perform backend command workspace).2 := by
  have fits : Admits allowed (workspace.Knows backend command) := by
    by_cases uses : command.UsesEngines
    · exact admits uses
    · exact fun token call _ => manual uses token call
  cases command with
  -- A call that is made by hand need not fit, but then any call is allowed.
  | call request =>
      exact ⟨served.names, served.serving.answer (fun token _ => manual id token request)
        fun _ _ => spares_of_unowned unowned⟩
  | setText handle name text =>
      exact attempt_served served (Serving.setText fits fun _ _ => spares_of_unowned unowned)
  | getWord handle name => exact attempt_served served (Serving.reading fits handle name 4)
  | getKeyLengths handle => exact attempt_served served (Serving.reading fits handle _ _)
  | newEngine target => exact (newEngine_served served).stored fits
  | cloneEngine engine target =>
      exact withEngine_ends served fun id _ => served.nothingStored fits rfl rfl
  | engineOf cipher target =>
      exact withCipher_ends served fun cipher _ => served.nothingStored fits rfl rfl
  | countCached engine =>
      apply withEngine_ends served
      intro id _
      simp only [bind, StateT.bind, get, getThe, MonadStateOf.get, StateT.get, pure]
      cases workspace.engineCache? id <;> exact served
  | fips engine =>
      apply withEngine_ends served
      intro id _
      have harmless : Call.Harmless .fipsEnabled := trivial
      have asked : (Driven.fips backend).Maintains
          (ServedOn front allowed initial [] workspace) := by
        intro state serving
        have answered := serving.answer (fun token _ => fits token .fipsEnabled trivial)
          fun _ _ => harmless.spares ..
        simp only [Driven.fips]
        cases (backend.answer .fipsEnabled state).1.result <;> exact answered
      exact attempt_served served asked
  | newCipher engine secret target =>
      apply withEngine_ends served
      intro id present
      apply attemptEngine_served .cipher served (AesCipher.create_entrusts id secret) _ fun _ => rfl
      · exact fun cipher next made => made.stored fits
      · exact fun cache after => admits_of_asked fits (by rw [askedCache?, present]; exact after)
  | cryptBlock direction cipher source destination =>
      apply withCipher_ends served
      intro cipher present
      exact served.keeping (Keeps.sequential.cipherBlock
        (Keeps.blockCipher fits (mem_custody present rfl)) _ _ _)
  | newRotating cipher target => exact served.nothingStored fits rfl rfl
  | newStream cipher direction iv target => exact newStream_served fits served direction iv target
  | cryptStream stream source destination =>
      exact onStream_served fits served fun has stream _ transforms =>
        has.crypt transforms stream _ _
  | cryptStreamInPlace stream buffer =>
      exact onStream_served fits served fun has stream _ transforms =>
        has.cryptInPlace transforms stream _
  | restartStream stream iv => exact restartStream_served served iv
  | inspectStream stream => exact withStream_ends served fun _ _ _ => served
  | newGcm cipher nonceSize tagSize target =>
      apply withCipher_ends served
      intro cipher present
      apply attemptEngine_served .gcm served (Gcm.create_entrusts cipher nonceSize tagSize) _
        fun _ => rfl
      · exact fun gcm next made => made.stored fits
      · exact fun cache after => admits_of_asked fits (by rw [askedCache?, present]; exact after)
  | newBlockwise engine secret nonceSize tagSize target =>
      apply withEngine_ends served
      intro id present
      apply attemptEngine_served (fun made => .blockwise made.1 made.2) served
        (Gcm.createBlockwise_entrusts id secret nonceSize tagSize) _ fun _ => rfl
      · exact fun made next kept => kept.stored fits
      · exact fun cache after => admits_of_asked fits (by rw [askedCache?, present]; exact after)
  | newRotatingGcm cipher nonceSize tagSize target =>
      simp only [perform, newRotatingGcm]
      cases Gcm.Blockwise.derive cipher.blockCipher nonceSize tagSize 0 with
      | mk result made =>
          cases result with
          | error error => exact served
          | ok mode => exact served.nothingStored fits rfl rfl
  | newOrdered cipher target =>
      apply withCipher_ends served
      intro cipher present
      apply attemptEngine_served .ordered served (Gcm.Ordered.create_entrusts cipher) _ fun _ => rfl
      · exact fun ordered next made => made.stored fits
      · exact fun cache after => admits_of_asked fits (by rw [askedCache?, present]; exact after)
  | orderGcm gcm target => exact orderGcm_served fits served target
  | sealMessage gcm destination nonce plaintext aad replaces =>
      exact sealMessage_served fits served destination nonce plaintext aad replaces
  | openMessage gcm destination nonce sealedText aad replaces =>
      exact openMessage_served fits served destination nonce sealedText aad replaces
  | newProvider algorithm flags target =>
      exact newProvider_served fits served fun provider next made => made.stored fits
  | setProviderText provider name text =>
      apply withProvider_ends served
      intro item member provider opened
      have stranger := List.mem_append_left workspace.scripted (mem_strangers member opened)
      exact attempt_served served (Serving.setText_of_stranger fits stranger name text)
  | getProviderWord provider name =>
      exact withProvider_ends served fun _ _ provider _ =>
        attempt_served served (Serving.reading fits provider.raw name 4)
  | getProviderKeyLengths provider =>
      exact withProvider_ends served fun _ _ provider _ =>
        attempt_served served (Serving.reading fits provider.raw _ _)
  | newKey provider secret target =>
      apply withProvider_ends served
      intro item member provider opened
      exact newKey_served (fun token => manual id token _) (mem_strangers member opened) served
        fun key next made => made.stored fits
  | acquire key script target =>
      apply acquire_served fits served
      intro value next unchanged made
      cases target with
      | none => exact unchanged
      | some name => exact made.stored fits
  | cacheSize =>
      simp only [perform, bind, StateT.bind, get, getThe, MonadStateOf.get, StateT.get, pure]
      cases workspace.cache <;> exact served
  | dropCache => exact served.cacheDropped fits
  | drop name => exact served.dropped name fits
  | describe name =>
      apply withItem_ends served
      intro item _
      cases describeItem? backend workspace item <;> exact served
  | describeBackend => exact served
  | describeCache =>
      simp only [perform, bind, StateT.bind, get, getThe, MonadStateOf.get, StateT.get, pure]
      cases workspace.cache <;> exact served

end Workspace

end CipherModes
