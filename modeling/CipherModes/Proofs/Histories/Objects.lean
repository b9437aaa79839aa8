import CipherModes.Proofs.Usage.Commands

/-!
# Objects as they were made

Ciphers and GCMs stay as they were made, but for the least nonce where nonces
are ordered. All but a few commands make none: whatever is named afterwards was
named so before, and engines have cached nothing new.
-/

set_option autoImplicit false

namespace CipherModes

/-- A cipher or a GCM over AES as it was made, whatever its least nonce is now. -/
def Item.asMade? : Item → Option Item
  | cipher aes => some (.cipher aes)
  | gcm mode => some (.gcm mode)
  | blockwise aes mode => some (.blockwise aes mode)
  | ordered mode => some (.ordered { mode with minNext := 0 })
  | engine _ | rotating .. | stream .. | rotatingGcm .. | provider _ | acquired _ | key _ => none

/-- It has a key, and uses it. -/
theorem Item.custody?_of_asMade? {item made : Item} (found : item.asMade? = some made) :
    made.custody? = item.custody? ∧
      ∃ held mode, item.custody? = some held ∧ held.mode = some mode := by
  cases item with
  | cipher | blockwise =>
      cases found
      exact ⟨rfl, _, _, rfl, rfl⟩
  | gcm mode =>
      cases found
      cases mode <;> exact ⟨rfl, _, _, rfl, rfl⟩
  | ordered mode =>
      cases found
      obtain ⟨gcm, least⟩ := mode
      cases gcm <;> exact ⟨rfl, _, _, rfl, rfl⟩
  | _ => cases found

/-- The command makes a cipher or a GCM over AES. -/
def Command.Makes : Command → Prop
  | newCipher .. | newGcm .. | newBlockwise .. | newOrdered .. | orderGcm .. => True
  | _ => False

variable {α σ : Type} {backend : Backend σ}

namespace Workspace

variable {workspace : Workspace σ} {name : String}

/-- The named ciphers and GCMs as they were made. -/
def made (workspace : Workspace σ) : List (String × Item) :=
  workspace.slots.filterMap fun slot => slot.2.asMade?.map (slot.1, ·)

theorem mem_made_iff {slots : List (String × Item)} {entry : String × Item} :
    entry ∈ (slots.filterMap fun slot => slot.2.asMade?.map (slot.1, ·)) ↔
      ∃ item, (entry.1, item) ∈ slots ∧ item.asMade? = some entry.2 := by
  rw [List.mem_filterMap]
  constructor
  · rintro ⟨slot, member, found⟩
    obtain ⟨object, asMade, rfl⟩ := Option.map_eq_some_iff.mp found
    exact ⟨slot.2, member, asMade⟩
  · rintro ⟨item, member, asMade⟩
    exact ⟨_, member, by rw [asMade]; rfl⟩

theorem mem_made_of_item? {item object : Item} (present : workspace.item? name = some item)
    (asMade : item.asMade? = some object) : (name, object) ∈ workspace.made :=
  mem_made_iff.mpr ⟨item, List.mem_of_find?_eq_some (slot_of_item present), asMade⟩

/-- The named ciphers and GCMs are such, and so are the providers that engines have cached. -/
structure Among (objects : String × Item → Prop) (cached : CacheKey × AesAlgorithm → Prop)
    (workspace : Workspace σ) : Prop where
  objects : ∀ entry ∈ workspace.made, objects entry
  cached : ∀ entry ∈ workspace.engineEntries, cached entry

namespace Among

variable {objects : String × Item → Prop} {cached : CacheKey × AesAlgorithm → Prop}

theorem onBackend (among : workspace.Among objects cached) (final : σ) :
    Among objects cached { workspace with backend := final } := ⟨among.objects, among.cached⟩

theorem afterEngine (among : workspace.Among objects cached) (id : EngineId) {driven : Driven σ}
    (entries : ∀ entry ∈ driven.cache.entries, cached entry) :
    (workspace.afterEngine id driven).Among objects cached := by
  refine ⟨among.objects, fun entry member => ?_⟩
  rcases List.mem_append.mp (engineEntries_afterEngine member) with new | older
  · exact entries entry new
  · exact among.cached entry older

theorem of_slots {slots : List (String × Item)} (among : workspace.Among objects cached)
    (fewer : ∀ slot ∈ slots, ∀ object ∈ slot.2.asMade?, objects (slot.1, object)) :
    Among objects cached { workspace with slots } := by
  refine ⟨fun entry member => ?_, among.cached⟩
  obtain ⟨item, present, asMade⟩ := mem_made_iff.mp member
  exact fewer _ present _ asMade

theorem slot (among : workspace.Among objects cached) {entry : String × Item}
    (member : entry ∈ workspace.slots) : ∀ object ∈ entry.2.asMade?, objects (entry.1, object) :=
  fun _ asMade => among.objects _ (mem_made_iff.mpr ⟨_, member, asMade⟩)

/-! ## Giving back -/

theorem closed (among : workspace.Among objects cached) (kept closing : List Provider) :
    Among objects cached (closeUnheld backend kept closing workspace).2 := by
  induction closing generalizing workspace with
  | nil => exact among
  | cons provider rest ih =>
      by_cases present : provider ∈ kept ++ workspace.heldProviders
      · simp only [closeUnheld, if_pos present]
        exact ih among
      · simp only [closeUnheld, if_neg present]
        exact ih (among.onBackend _)

theorem engineReleased (among : workspace.Among objects cached) (kept : List Provider)
    (id : EngineId) : Among objects cached (releaseEngine backend kept id workspace).2 := by
  by_cases held : id ∈ workspace.heldEngines
  · simp only [releaseEngine, if_pos held]
    exact among
  · simp only [releaseEngine, if_neg held]
    have fewer : Among objects cached
        { workspace with engines := workspace.engines.filter (·.1 != id) } := by
      refine ⟨among.objects, fun entry member => ?_⟩
      obtain ⟨engine, remaining, listed⟩ := List.mem_flatMap.mp member
      exact among.cached entry (List.mem_flatMap.mpr ⟨engine, List.mem_of_mem_filter remaining,
        listed⟩)
    exact fewer.closed _ _

theorem keyReleased (among : workspace.Among objects cached) (key : ImportedKey) :
    Among objects cached (releaseKey backend key workspace).2 := by
  have destroyed := among.onBackend (key.release backend workspace.backend).2
  exact destroyed.closed [] [key.provider]

theorem itemReleased (among : workspace.Among objects cached) (item : Item) :
    Among objects cached (releaseItem backend item workspace).2 := by
  cases engine : item.engine? with
  | none =>
      cases key : item.key? with
      | none =>
          simp only [releaseItem, engine, key]
          exact among.closed _ _
      | some held =>
          simp only [releaseItem, engine, key]
          exact (among.keyReleased held).closed [] _
  | some id =>
      have fewer : Among objects cached (releaseEngine backend item.providers id workspace).2 :=
        among.engineReleased item.providers id
      cases key : item.key? with
      | none =>
          simp only [releaseItem, engine, key]
          exact fewer.closed _ _
      | some held =>
          simp only [releaseItem, engine, key]
          exact (fewer.keyReleased held).closed [] _

theorem dropped (among : workspace.Among objects cached) (name : String) :
    Among objects cached (drop backend name workspace).2 := by
  cases present : workspace.item? name with
  | none =>
      simp only [drop, bind, StateT.bind, take_of_missing present]
      exact among
  | some item =>
      simp only [drop, bind, StateT.bind, take_of_item present]
      have fewer : Among objects cached { workspace with slots := workspace.slotsWithout name } :=
        among.of_slots fun slot member => among.slot (List.mem_of_mem_filter member)
      exact fewer.itemReleased item

/-! ## Names -/

/-- The object that had the name is no longer there. -/
theorem stored {item : Item} (others : ∀ entry ∈ workspace.made, entry.1 ≠ name → objects entry)
    (entries : ∀ entry ∈ workspace.engineEntries, cached entry)
    (new : ∀ object ∈ item.asMade?, objects (name, object)) :
    Among objects cached (store backend name item workspace).2 := by
  have replaced {slots : List (String × Item)} (fewer : slots ⊆ workspace.slots)
      (without : name ∉ slots.map Prod.fst) :
      Among objects cached { workspace with slots := slots ++ [(name, item)] } := by
    refine ⟨fun entry member => ?_, entries⟩
    obtain ⟨found, present, asMade⟩ := mem_made_iff.mp member
    rcases List.mem_append.mp present with older | newer
    · apply others entry (mem_made_iff.mpr ⟨found, fewer older, asMade⟩)
      rintro rfl
      exact without (List.mem_map.mpr ⟨_, older, rfl⟩)
    · obtain ⟨rfl, rfl⟩ := Prod.mk.inj (List.mem_singleton.mp newer)
      exact new _ asMade
  cases present : workspace.item? name with
  | none =>
      simp only [store, bind, StateT.bind, take_of_missing present]
      exact replaced (List.Subset.refl _) (name_not_mem_of_missing present)
  | some old =>
      simp only [store, bind, StateT.bind, take_of_item present]
      have taken := replaced (List.filter_subset_self _) (name_not_mem_slotsWithout workspace name)
      exact taken.itemReleased old

theorem bareStored {item : Item} (among : workspace.Among objects cached)
    (bare : item.asMade? = none) : Among objects cached (store backend name item workspace).2 := by
  refine stored (fun entry member _ => among.objects entry member) among.cached ?_
  rw [bare]
  exact nofun

theorem updated {item : Item} (among : workspace.Among objects cached)
    (still : ∀ object ∈ item.asMade?, objects (name, object)) :
    Among objects cached (update name item workspace).2 := by
  apply among.of_slots
  intro slot member
  obtain ⟨before, present, rfl⟩ := List.mem_map.mp member
  by_cases renewed : before.1 == name
  · obtain rfl : before.1 = name := by simpa using renewed
    rw [if_pos renewed]
    exact still
  · rw [if_neg renewed]
    exact among.slot present

theorem bareUpdated {item : Item} (among : workspace.Among objects cached)
    (bare : item.asMade? = none) : Among objects cached (update name item workspace).2 := by
  apply among.updated
  rw [bare]
  exact nofun

end Among

/-! ## Commands that make nothing -/

variable {objects : String × Item → Prop} {cached : CacheKey × AesAlgorithm → Prop}

section

variable (among : workspace.Among objects cached)
include among

theorem attempt_among {action : Action σ α} {respond : α → StateM (Workspace σ) Response}
    (responds : ∀ value final, Among objects cached { workspace with backend := final } →
      Among objects cached (respond value { workspace with backend := final }).2) :
    Among objects cached (attempt action respond workspace).2 := by
  apply attempt_ends
  intro final _
  cases action final with
  | mk result last =>
      cases result with
      | error error => exact among.onBackend last
      | ok value => exact responds value last (among.onBackend last)

theorem newStream_among (direction : Direction) (iv : Bytes) (target : String) :
    Among objects cached (newStream backend name direction iv target workspace).2 := by
  apply withItem_ends among
  intro item _
  cases item with
  | cipher cipher =>
      dsimp only
      cases Cbc.start cipher.blockSize direction iv with
      | error precondition => exact among
      | ok stream => exact among.bareStored rfl
  | rotating cipher made =>
      dsimp only
      cases Cbc.start cipher.blockSize direction iv with
      | error precondition => exact among
      | ok stream => exact among.bareStored rfl
  | _ => exact among

theorem overCipher_among (operation : CipherOperation α) :
    Among objects cached (overCipher backend name operation workspace).2 := by
  simp only [overCipher, bind, StateT.bind, get, getThe, MonadStateOf.get, StateT.get, pure]
  cases workspace.item? name with
  | none => exact among
  | some item =>
      cases item with
      | cipher cipher => exact among.onBackend _
      | rotating cipher made => exact among.bareUpdated rfl
      | _ => exact among

theorem onStream_among (operation : Cbc → CipherOperation (Except Fault Unit × Bytes × Cbc)) :
    Among objects cached (onStream backend name operation workspace).2 := by
  apply withStream_ends among
  intro source stream _
  have transformed : Among objects cached
      (overCipher backend source (operation stream) workspace).2 := overCipher_among among _
  simp only [bind, StateT.bind]
  cases ran : overCipher backend source (operation stream) workspace with
  | mk outcome next =>
      rw [ran] at transformed
      cases outcome with
      | none => exact transformed
      | some reply =>
          obtain ⟨result, buffer, last⟩ := reply
          exact transformed.bareUpdated rfl

theorem restartStream_among (iv : Bytes) :
    Among objects cached (restartStream name iv workspace).2 := by
  apply withStream_ends among
  intro source stream _
  cases stream.restart iv with
  | error precondition => exact among
  | ok next => exact among.bareUpdated rfl

/-- Sealing moves the least nonce and nothing else. -/
theorem sealMessage_among (destination nonce plaintext aad : Bytes) (replaces : Bool) :
    Among objects cached
      (sealMessage backend name destination nonce plaintext aad replaces workspace).2 := by
  apply withItem_ends among
  intro item present
  cases item with
  | rotatingGcm cipher made mode => exact among.bareUpdated rfl
  | ordered ordered =>
      have alike (next : Gcm.Ordered) (same : next.gcm = ordered.gcm) :
          ∀ object ∈ (Item.ordered next).asMade?, objects (name, object) := by
        have still : (Item.ordered next).asMade? = (Item.ordered ordered).asMade? :=
          congrArg (fun gcm => some (Item.ordered { gcm, minNext := 0 })) same
        rw [still]
        exact fun object asMade => among.objects _ (mem_made_of_item? present asMade)
      exact (among.onBackend _).updated (alike _ (gcm_of_sealInto ..))
  | gcm | blockwise => exact among.onBackend _
  | _ => exact among

theorem openMessage_among (destination nonce sealedText aad : Bytes) (replaces : Bool) :
    Among objects cached
      (openMessage backend name destination nonce sealedText aad replaces workspace).2 := by
  apply withItem_ends among
  intro item _
  cases item with
  | rotatingGcm cipher made mode => exact among.bareUpdated rfl
  | gcm | blockwise | ordered => exact among.onBackend _
  | _ => exact among

theorem acquire_among {key : CacheKey} {script : Script}
    {respond : ScriptedValue → StateM (Workspace σ) Response}
    (responds : ∀ value next, Among objects cached next →
      Among objects cached (respond value next).2) :
    Among objects cached ((do
      match ← onCache (Script.acquireValue backend key script) with
      | none => return .noSuchItem
      | some (.error error) => return .failed (.error error)
      | some (.ok value) => respond value : StateM (Workspace σ) Response) workspace).2 := by
  apply acquire_ends among
  intro cache _ caching _
  cases Script.acquireValue backend key script caching with
  | mk result last =>
      have still : Among objects cached (workspace.afterCache last) := ⟨among.objects, among.cached⟩
      cases result with
      | error error => exact still
      | ok value => exact responds value _ still

end

theorem perform_among {command : Command} (makesNothing : ¬ command.Makes)
    (among : workspace.Among objects cached) :
    Among objects cached (perform backend command workspace).2 := by
  cases command with
  | newCipher | newGcm | newBlockwise | newOrdered | orderGcm => exact absurd trivial makesNothing
  | call request => exact among.onBackend _
  | setText | getWord | getKeyLengths => exact attempt_among among fun _ _ still => still
  | newEngine target =>
      have more : Among objects cached { workspace with
          engines := workspace.engines ++ [(workspace.nextEngine, .empty)]
          nextEngine := workspace.nextEngine + 1 } := by
        refine ⟨among.objects, ?_⟩
        rw [engineEntries, List.flatMap_append, List.forall_mem_append]
        exact ⟨among.cached, fun _ none => absurd none List.not_mem_nil⟩
      exact more.bareStored rfl
  | cloneEngine engine target => exact withEngine_ends among fun _ _ => among.bareStored rfl
  | engineOf cipher target => exact withCipher_ends among fun _ _ => among.bareStored rfl
  | countCached engine =>
      apply withEngine_ends among
      intro id _
      simp only [bind, StateT.bind, get, getThe, MonadStateOf.get, StateT.get, pure]
      cases workspace.engineCache? id <;> exact among
  | fips engine =>
      exact withEngine_ends among fun _ _ => attempt_among among fun _ _ still => still
  | cryptBlock direction cipher source destination =>
      exact withCipher_ends among fun _ _ => among.onBackend _
  | newRotating cipher target => exact among.bareStored rfl
  | newStream cipher direction iv target => exact newStream_among among direction iv target
  | cryptStream | cryptStreamInPlace => exact onStream_among among _
  | restartStream stream iv => exact restartStream_among among iv
  | inspectStream stream => exact withStream_ends among fun _ _ _ => among
  | newRotatingGcm cipher nonceSize tagSize target =>
      simp only [perform, newRotatingGcm]
      cases Gcm.Blockwise.derive cipher.blockCipher nonceSize tagSize 0 with
      | mk result made =>
          cases result with
          | error error => exact among
          | ok mode => exact among.bareStored rfl
  | sealMessage gcm destination nonce plaintext aad replaces =>
      exact sealMessage_among among destination nonce plaintext aad replaces
  | openMessage gcm destination nonce sealedText aad replaces =>
      exact openMessage_among among destination nonce sealedText aad replaces
  | newProvider algorithm flags target =>
      exact attempt_among among fun _ _ still => still.bareStored rfl
  | setProviderText | getProviderWord | getProviderKeyLengths =>
      exact withProvider_ends among fun _ _ _ _ => attempt_among among fun _ _ still => still
  | newKey provider secret target =>
      exact withProvider_ends among fun _ _ _ _ =>
        attempt_among among fun _ _ still => still.bareStored rfl
  | acquire key script target =>
      apply acquire_among among
      intro value next still
      cases target with
      | none => exact still
      | some name => exact still.bareStored rfl
  | cacheSize =>
      simp only [perform, bind, StateT.bind, get, getThe, MonadStateOf.get, StateT.get, pure]
      cases workspace.cache <;> exact among
  | dropCache =>
      have without : Among objects cached { workspace with cache := none } :=
        ⟨among.objects, among.cached⟩
      exact without.closed _ _
  | drop name => exact among.dropped name
  | describe name =>
      apply withItem_ends among
      intro item _
      cases describeItem? backend workspace item <;> exact among
  | describeBackend => exact among
  | describeCache =>
      simp only [perform, bind, StateT.bind, get, getThe, MonadStateOf.get, StateT.get, pure]
      cases workspace.cache <;> exact among

end Workspace

end CipherModes
