import CipherModes.Proofs.Accounts.Making
import CipherModes.Proofs.Gcm.NonceOrder

/-!
# Accounts kept by commands

Whatever a command comes to, what is open afterwards is what the objects and the
caches of the workspace hold. Only calls made by hand, on a handle that is given
as a number, are left out.
-/

set_option autoImplicit false

namespace CipherModes

open Backend (Accounting)

/-- The command works through the objects of a workspace, not through a bare handle. -/
def Command.UsesObjects : Command → Prop
  | call _ | setText .. | getWord .. | getKeyLengths .. => False
  | _ => True

variable {σ α : Type} {backend : Backend σ} {accounting : backend.Accounting}

namespace Workspace

variable {workspace : Workspace σ} {name : String}

theorem Kept.keyStored {key : ImportedKey} {item : Item}
    (kept : Kept accounting [.key key] workspace) (holds : item.key? = some key) :
    Kept accounting [] (store backend name item workspace).2 :=
  (kept.dressed (.of_key holds)).stored

theorem Kept.nothingStored {item : Item} (kept : Kept accounting [] workspace)
    (keyless : item.key? = none) (providerless : item.provider? = none) :
    Kept accounting [] (store backend name item workspace).2 :=
  (kept.dressed (.of_nothing keyless providerless)).stored

/-! ## Streams -/

/-- What has the name keeps nothing alive. -/
def HoldsNothing (name : String) (workspace : Workspace σ) : Prop :=
  ∀ slot ∈ workspace.slots, slot.1 = name → slot.2.Bare

theorem HoldsNothing.update {other : String} {item : Item}
    (nothing : HoldsNothing name workspace) (bare : item.Bare) :
    HoldsNothing name (update other item workspace).2 := by
  intro slot member named
  obtain ⟨before, present, rfl⟩ := List.mem_map.mp member
  by_cases renewed : before.1 == other
  · rw [if_pos renewed]
    exact bare
  · rw [if_neg renewed] at named ⊢
    exact nothing before present named

theorem Kept.bareUpdated {item : Item} (kept : Kept accounting [] workspace)
    (nothing : HoldsNothing name workspace) (bare : item.Bare) :
    Kept accounting [] (update name item workspace).2 :=
  kept.updated fun slot member named => (nothing slot member named).holdsAs bare

theorem overCipher_kept {source : String} {operation : CipherOperation α}
    (quiet : ∀ cipher : BlockCipher σ, cipher.Quiet accounting →
      accounting.Quiet (operation σ cipher))
    (kept : Kept accounting [] workspace) (nothing : HoldsNothing name workspace) :
    Kept accounting [] (overCipher backend source operation workspace).2 ∧
      HoldsNothing name (overCipher backend source operation workspace).2 := by
  simp only [overCipher, bind, StateT.bind, get, getThe, MonadStateOf.get, StateT.get, pure]
  cases present : workspace.item? source with
  | none => exact ⟨kept, nothing⟩
  | some item =>
      cases item with
      | cipher cipher => exact ⟨kept.quiet (quiet _ cipher.blockCipher_quiet), nothing⟩
      | rotating cipher made =>
          have bare : ∀ made, (Item.rotating cipher made).Bare := fun _ => ⟨rfl, rfl, rfl⟩
          refine ⟨kept.updated ?_, nothing.update (bare _)⟩
          intro slot member named
          rw [item_of_slot kept.tidy.names present member named]
          exact (bare _).holdsAs (bare _)
      | _ => exact ⟨kept, nothing⟩

theorem holdsNothing_of_stream {source : String} {stream : Cbc}
    (kept : Kept accounting [] workspace)
    (present : workspace.item? name = some (.stream source stream)) :
    HoldsNothing name workspace := by
  intro slot member named
  rw [item_of_slot kept.tidy.names present member named]
  exact ⟨rfl, rfl, rfl⟩

theorem onStream_kept {operation : Cbc → CipherOperation (Except Fault Unit × Bytes × Cbc)}
    (quiet : ∀ stream (cipher : BlockCipher σ), cipher.Quiet accounting →
      accounting.Quiet (operation stream σ cipher))
    (kept : Kept accounting [] workspace) :
    Kept accounting [] (onStream backend name operation workspace).2 := by
  apply withStream_ends kept
  intro source stream present
  have transformed : Kept accounting [] (overCipher backend source (operation stream) workspace).2 ∧
      HoldsNothing name (overCipher backend source (operation stream) workspace).2 :=
    overCipher_kept (quiet stream) kept (holdsNothing_of_stream kept present)
  simp only [bind, StateT.bind]
  cases ran : overCipher backend source (operation stream) workspace with
  | mk outcome next =>
      rw [ran] at transformed
      cases outcome with
      | none => exact transformed.1
      | some reply =>
          obtain ⟨result, buffer, last⟩ := reply
          exact transformed.1.bareUpdated transformed.2 ⟨rfl, rfl, rfl⟩

theorem restartStream_kept (kept : Kept accounting [] workspace) (iv : Bytes) :
    Kept accounting [] (restartStream name iv workspace).2 := by
  apply withStream_ends kept
  intro source stream present
  cases stream.restart iv with
  | error precondition => exact kept
  | ok next => exact kept.bareUpdated (holdsNothing_of_stream kept present) ⟨rfl, rfl, rfl⟩

theorem newStream_kept (kept : Kept accounting [] workspace) (direction : Direction) (iv : Bytes)
    (target : String) :
    Kept accounting [] (newStream backend name direction iv target workspace).2 := by
  apply withItem_ends kept
  intro item _
  cases item with
  | cipher cipher =>
      dsimp only
      cases Cbc.start cipher.blockSize direction iv with
      | error precondition => exact kept
      | ok stream => exact kept.nothingStored rfl rfl
  | rotating cipher made =>
      dsimp only
      cases Cbc.start cipher.blockSize direction iv with
      | error precondition => exact kept
      | ok stream => exact kept.nothingStored rfl rfl
  | _ => exact kept

/-! ## Messages -/

/-- Sealing changes the least nonce but not the GCM. -/
theorem gcm_of_sealInto (ordered : Gcm.Ordered) (replaces : Bool)
    (destination nonce plaintext aad : Bytes) (state : σ) :
    (throughBuffer replaces destination
      (fun buffer => ordered.sealInto backend buffer nonce plaintext aad) state).1.2.2.gcm =
        ordered.gcm := by
  have each : ∀ buffer,
      (ordered.sealInto backend buffer nonce plaintext aad state).1.2.2.gcm = ordered.gcm := by
    intro buffer
    have effect := ordered.sealInto_effect backend buffer nonce plaintext aad state
    generalize ordered.sealInto backend buffer nonce plaintext aad state = outcome at effect
    cases effect <;> rfl
  cases replaces with
  | false => exact each destination
  | true =>
      have fresh := each []
      simp only [throughBuffer, if_true, bind, StateT.bind]
      generalize ordered.sealInto backend [] nonce plaintext aad state = outcome at fresh
      obtain ⟨⟨result, buffer, next⟩, final⟩ := outcome
      cases result <;> exact fresh

theorem Kept.alikeUpdated {item other : Item} (kept : Kept accounting [] workspace)
    (present : workspace.item? name = some item) (alike : item.HoldsAs other) :
    Kept accounting [] (update name other workspace).2 := by
  apply kept.updated
  intro slot member named
  rwa [item_of_slot kept.tidy.names present member named]

theorem sealMessage_kept (kept : Kept accounting [] workspace)
    (destination nonce plaintext aad : Bytes) (replaces : Bool) :
    Kept accounting []
      (sealMessage backend name destination nonce plaintext aad replaces workspace).2 := by
  apply withItem_ends kept
  intro item present
  cases item with
  | gcm gcm =>
      have quiet : accounting.Quiet (throughBuffer replaces destination fun buffer =>
          plain (gcm.sealInto backend buffer nonce plaintext aad)) :=
        throughBuffer_quiet fun _ => plain_quiet (gcm.sealInto_quiet _ _ _ _)
      exact kept.quiet quiet
  | blockwise cipher mode =>
      exact kept.quiet (Gcm.Blockwise.sealInto_quiet cipher.blockCipher_quiet mode _ _ _ _)
  | rotatingGcm cipher made mode => exact kept.alikeUpdated present ⟨rfl, rfl, rfl⟩
  | ordered ordered =>
      have quiet : accounting.Quiet (throughBuffer replaces destination fun buffer =>
          ordered.sealInto backend buffer nonce plaintext aad) :=
        throughBuffer_quiet fun _ => ordered.sealInto_quiet _ _ _ _
      have alike : ∀ next : Gcm.Ordered, next.gcm = ordered.gcm →
          (Item.ordered ordered).HoldsAs (.ordered next) := by
        intro next same
        simp only [Item.HoldsAs, Item.engine?, Item.key?, Item.provider?, same, and_self]
      exact (kept.quiet quiet).alikeUpdated present (alike _ (gcm_of_sealInto ..))
  | _ => exact kept

theorem openMessage_kept (kept : Kept accounting [] workspace)
    (destination nonce sealedText aad : Bytes) (replaces : Bool) :
    Kept accounting []
      (openMessage backend name destination nonce sealedText aad replaces workspace).2 := by
  apply withItem_ends kept
  intro item present
  cases item with
  | gcm gcm =>
      have quiet : accounting.Quiet (throughBuffer replaces destination fun buffer =>
          plain (gcm.openInto backend buffer nonce sealedText aad)) :=
        throughBuffer_quiet fun _ => plain_quiet (gcm.openInto_quiet _ _ _ _)
      exact kept.quiet quiet
  | blockwise cipher mode =>
      exact kept.quiet (Gcm.Blockwise.openInto_quiet cipher.blockCipher_quiet mode _ _ _ _)
  | rotatingGcm cipher made mode => exact kept.alikeUpdated present ⟨rfl, rfl, rfl⟩
  | ordered ordered =>
      have quiet : accounting.Quiet (throughBuffer replaces destination fun buffer =>
          plain (ordered.openInto backend buffer nonce sealedText aad)) :=
        throughBuffer_quiet fun _ => plain_quiet (ordered.gcm.openInto_quiet _ _ _ _)
      exact kept.quiet quiet
  | _ => exact kept

theorem orderGcm_kept (kept : Kept accounting [] workspace) (target : String) :
    Kept accounting [] (orderGcm backend name target workspace).2 := by
  apply withItem_ends kept
  intro item present
  cases item with
  | gcm gcm =>
      have loose := kept.taken present
      simp only [bind, StateT.bind, take_of_item present]
      cases made : Gcm.Ordered.ofGcm gcm with
      | error error => exact loose.itemReleased
      | ok ordered =>
          obtain ⟨-, -, rfl⟩ := Gcm.Ordered.ofGcm_eq_ok_iff.mp made
          have passes : Item.PassTo [.gcm gcm] [.ordered { gcm, minNext := 0 }] :=
            (Item.PassTo.refl []).cons ⟨rfl, rfl, rfl⟩
          exact (loose.dressed passes).stored
  | _ => exact kept

/-! ## All commands -/

theorem newEngine_kept (kept : Kept accounting [] workspace) :
    Kept accounting [.engine workspace.nextEngine] { workspace with
      engines := workspace.engines ++ [(workspace.nextEngine, .empty)]
      nextEngine := workspace.nextEngine + 1 } := by
  have names : (workspace.engines ++ [(workspace.nextEngine, ProviderCache.empty)]).map Prod.fst =
      workspace.engines.map Prod.fst ++ [workspace.nextEngine] := List.map_append
  constructor
  case tidy =>
    refine ⟨kept.tidy.names, ?_, ?_, ?_⟩
    · apply Entries.nodup_concat kept.tidy.ids
      exact fun member => Nat.lt_irrefl _ (kept.tidy.numbered _ member)
    · rw [names, List.forall_mem_append, List.forall_mem_singleton]
      exact ⟨fun id member => Nat.lt_succ_of_lt (kept.tidy.numbered id member), Nat.lt_succ_self _⟩
    · rw [names, List.forall_mem_append, List.forall_mem_singleton]
      exact ⟨fun id member => List.mem_cons_of_mem _ (kept.tidy.alive id member), .head _⟩
  case holds =>
    have perm : (workspace.engines ++ [(workspace.nextEngine, ProviderCache.empty)]).Perm
        ((workspace.nextEngine, .empty) :: workspace.engines) := List.perm_append_singleton ..
    apply kept.holds.mono
    refine fun distinct => ⟨(distinct_iff perm).mpr ⟨.nil, distinct⟩, ?_, .refl _⟩
    intro provider
    rw [List.mem_append, List.mem_append]
    exact or_congr_right (perm_cachedProviders perm).mem_iff.symm

theorem perform_kept {command : Command} (uses : command.UsesObjects)
    (kept : Kept accounting [] workspace) :
    Kept accounting [] (perform backend command workspace).2 := by
  cases command with
  | call | setText | getWord | getKeyLengths => cases uses
  | newEngine target => exact (newEngine_kept kept).stored
  | cloneEngine engine target =>
      exact withEngine_ends kept fun id _ => kept.nothingStored rfl rfl
  | engineOf cipher target =>
      exact withCipher_ends kept fun cipher _ => kept.nothingStored rfl rfl
  | countCached engine =>
      apply withEngine_ends kept
      intro id _
      simp only [bind, StateT.bind, get, getThe, MonadStateOf.get, StateT.get, pure]
      cases workspace.engineCache? id <;> exact kept
  | fips engine =>
      exact withEngine_ends kept fun id _ => attempt_quiet_kept kept Driven.fips_quiet _
  | newCipher engine secret target =>
      apply withEngine_ends kept
      intro id _
      apply attemptEngine_kept kept (AesCipher.create_imports id secret)
      exact fun cipher next made => made.keyStored rfl
  | cryptBlock direction cipher source destination =>
      exact withCipher_ends kept fun cipher _ => kept.quiet (cipher.cryptBlock_quiet _ _ _)
  | newRotating cipher target => exact kept.nothingStored rfl rfl
  | newStream cipher direction iv target => exact newStream_kept kept direction iv target
  | cryptStream stream source destination =>
      exact onStream_kept (fun stream cipher quiet => stream.crypt_quiet quiet _ _) kept
  | cryptStreamInPlace stream buffer =>
      exact onStream_kept (fun stream cipher quiet => stream.cryptInPlace_quiet quiet _) kept
  | restartStream stream iv => exact restartStream_kept kept iv
  | inspectStream stream => exact withStream_ends kept fun _ _ _ => kept
  | newGcm cipher nonceSize tagSize target =>
      apply withCipher_ends kept
      intro cipher _
      apply attemptEngine_kept kept (Gcm.create_imports cipher nonceSize tagSize)
      exact fun gcm next made => made.keyStored rfl
  | newBlockwise engine secret nonceSize tagSize target =>
      apply withEngine_ends kept
      intro id _
      apply attemptEngine_kept kept (Gcm.createBlockwise_imports id secret nonceSize tagSize)
      exact fun made next kept => kept.keyStored rfl
  | newRotatingGcm cipher nonceSize tagSize target =>
      simp only [perform, newRotatingGcm]
      cases Gcm.Blockwise.derive cipher.blockCipher nonceSize tagSize 0 with
      | mk result made =>
          cases result with
          | error error => exact kept
          | ok mode => exact kept.nothingStored rfl rfl
  | newOrdered cipher target =>
      apply withCipher_ends kept
      intro cipher _
      apply attemptEngine_kept kept (Gcm.Ordered.create_imports cipher)
      exact fun ordered next made => made.keyStored rfl
  | orderGcm gcm target => exact orderGcm_kept kept target
  | sealMessage gcm destination nonce plaintext aad replaces =>
      exact sealMessage_kept kept destination nonce plaintext aad replaces
  | openMessage gcm destination nonce sealedText aad replaces =>
      exact openMessage_kept kept destination nonce sealedText aad replaces
  | newProvider algorithm flags target =>
      exact newProvider_kept kept algorithm flags fun provider next made => made.stored
  | setProviderText provider name text =>
      exact withProvider_ends kept fun _ _ provider _ =>
        attempt_quiet_kept kept (provider.setText_quiet _ _) _
  | getProviderWord provider name =>
      exact withProvider_ends kept fun _ _ provider _ =>
        attempt_quiet_kept kept (provider.getWord_quiet _) _
  | getProviderKeyLengths provider =>
      exact withProvider_ends kept fun _ _ provider _ =>
        attempt_quiet_kept kept provider.getKeyLengths_quiet _
  | newKey provider secret target =>
      apply withProvider_ends kept
      intro item member provider opened
      have held : provider ∈ item.providers :=
        List.mem_append_left _ (Option.mem_toList.mpr opened)
      exact newKey_kept kept (List.mem_flatMap_of_mem member held) secret fun key next made =>
        made.keyStored rfl
  | acquire key script target =>
      apply acquire_kept kept key script
      intro value next kept made
      cases target with
      | none => exact kept
      | some name => exact made.stored
  | cacheSize =>
      simp only [perform, bind, StateT.bind, get, getThe, MonadStateOf.get, StateT.get, pure]
      cases workspace.cache <;> exact kept
  | dropCache => exact kept.cacheDropped
  | drop name => exact kept.dropped name
  | describe name =>
      apply withItem_ends kept
      intro item _
      cases describeItem? backend workspace item <;> exact kept
  | describeBackend => exact kept
  | describeCache =>
      simp only [perform, bind, StateT.bind, get, getThe, MonadStateOf.get, StateT.get, pure]
      cases workspace.cache <;> exact kept

end Workspace

end CipherModes
