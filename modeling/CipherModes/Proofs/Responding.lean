import CipherModes.Proofs.Establishing
import CipherModes.Workspace.Perform

/-!
# How commands respond

A command looks for an object, runs an operation on the backend, an engine or
the cache, and responds to what comes of it. Whatever is to hold afterwards has
to hold of a workspace in which nothing was done and of each response.
-/

set_option autoImplicit false

namespace CipherModes.Workspace

variable {σ α : Type} {workspace : Workspace σ} {goal : Workspace σ → Prop} {name : String}

/-! ## Objects of a name -/

theorem mem_items_of_item? {item : Item} (present : workspace.item? name = some item) :
    item ∈ workspace.items := by
  obtain ⟨slot, found, rfl⟩ := Option.map_eq_some_iff.mp present
  exact List.mem_map_of_mem (List.mem_of_find?_eq_some found)

section

variable {answered : Response × Workspace σ → Prop} (nothing : answered (.noSuchItem, workspace))
include nothing

theorem withItem_answers {respond : Item → StateM (Workspace σ) Response}
    (responds : ∀ item, workspace.item? name = some item → answered (respond item workspace)) :
    answered (withItem name respond workspace) := by
  rw [withItem]
  cases present : workspace.item? name with
  | none => exact nothing
  | some item => exact responds item present

theorem withEngine_answers {respond : EngineId → StateM (Workspace σ) Response}
    (responds : ∀ id, workspace.item? name = some (.engine id) → answered (respond id workspace)) :
    answered (withEngine name respond workspace) := by
  apply withItem_answers nothing
  intro item present
  cases item <;> first | exact responds _ present | exact nothing

theorem withCipher_answers {respond : AesCipher → StateM (Workspace σ) Response}
    (responds : ∀ cipher, workspace.item? name = some (.cipher cipher) →
      answered (respond cipher workspace)) :
    answered (withCipher name respond workspace) := by
  apply withItem_answers nothing
  intro item present
  cases item <;> first | exact responds _ present | exact nothing

end

section

variable (nothing : goal workspace)
include nothing

theorem withItem_ends {respond : Item → StateM (Workspace σ) Response}
    (responds : ∀ item, workspace.item? name = some item → goal (respond item workspace).2) :
    goal (withItem name respond workspace).2 :=
  @withItem_answers _ _ _ (goal ·.2) nothing _ responds

theorem withEngine_ends {respond : EngineId → StateM (Workspace σ) Response}
    (responds : ∀ id, workspace.item? name = some (.engine id) → goal (respond id workspace).2) :
    goal (withEngine name respond workspace).2 :=
  @withEngine_answers _ _ _ (goal ·.2) nothing _ responds

theorem withCipher_ends {respond : AesCipher → StateM (Workspace σ) Response}
    (responds : ∀ cipher, workspace.item? name = some (.cipher cipher) →
      goal (respond cipher workspace).2) :
    goal (withCipher name respond workspace).2 :=
  @withCipher_answers _ _ _ (goal ·.2) nothing _ responds

theorem withProvider_ends {respond : Provider → StateM (Workspace σ) Response}
    (responds : ∀ item ∈ workspace.items, ∀ provider ∈ item.provider?,
      goal (respond provider workspace).2) :
    goal (withProvider name respond workspace).2 := by
  apply withItem_ends nothing
  intro item present
  have member := mem_items_of_item? present
  cases item <;> first | exact responds _ member _ rfl | exact nothing

theorem withStream_ends {respond : String → Cbc → StateM (Workspace σ) Response}
    (responds : ∀ source stream, workspace.item? name = some (.stream source stream) →
      goal (respond source stream workspace).2) :
    goal (withStream name respond workspace).2 := by
  apply withItem_ends nothing
  intro item present
  cases item <;> first | exact responds _ _ present | exact nothing

end

/-! ## Operations that may fail -/

theorem attempt_ends {action : Action σ α} {respond : α → StateM (Workspace σ) Response}
    (establishes : action.Establishes (· = workspace.backend)
      (fun value final => goal (respond value { workspace with backend := final }).2)
      (fun final => goal { workspace with backend := final })) :
    goal (attempt action respond workspace).2 := by
  have ended := establishes workspace.backend rfl
  simp only [attempt, bind, StateT.bind, onBackend]
  cases ran : action workspace.backend with
  | mk result final =>
      rw [ran] at ended
      cases result <;> exact ended

/-- A workspace after an operation on an engine. -/
def afterEngine (workspace : Workspace σ) (id : EngineId) (driven : Driven σ) : Workspace σ :=
  { workspace with
    backend := driven.backend
    engines := workspace.engines.map fun entry =>
      if entry.1 == id then (entry.1, driven.cache) else entry }

theorem attemptEngine_ends {id : EngineId} {action : Action (Driven σ) α}
    {respond : α → StateM (Workspace σ) Response} (nothing : goal workspace)
    (establishes : ∀ cache, workspace.engineCache? id = some cache →
      action.Establishes (· = ⟨cache, workspace.backend⟩)
        (fun value driven => goal (respond value (workspace.afterEngine id driven)).2)
        (fun driven => goal (workspace.afterEngine id driven))) :
    goal (attemptEngine id action respond workspace).2 := by
  cases found : workspace.engineCache? id with
  | none =>
      simp only [attemptEngine, bind, StateT.bind, onEngine, found]
      exact nothing
  | some cache =>
      have ended := establishes cache found _ rfl
      simp only [attemptEngine, bind, StateT.bind, onEngine, found]
      cases ran : action ⟨cache, workspace.backend⟩ with
      | mk result driven =>
          rw [ran] at ended
          cases result <;> exact ended

/-- A workspace after an operation on the cache. -/
def afterCache (workspace : Workspace σ) (caching : Caching ScriptedValue σ) : Workspace σ :=
  { workspace with
    backend := caching.backend
    cache := some caching.cache }

theorem acquire_ends {backend : Backend σ} {key : CacheKey} {script : Script}
    {respond : ScriptedValue → StateM (Workspace σ) Response} (nothing : goal workspace)
    (establishes : ∀ cache, workspace.cache = some cache →
      (Script.acquireValue backend key script).Establishes (· = ⟨cache, workspace.backend⟩)
        (fun value caching => goal (respond value (workspace.afterCache caching)).2)
        (fun caching => goal (workspace.afterCache caching))) :
    goal ((do
      match ← onCache (Script.acquireValue backend key script) with
      | none => return .noSuchItem
      | some (.error error) => return .failed (.error error)
      | some (.ok value) => respond value : StateM (Workspace σ) Response) workspace).2 := by
  cases found : workspace.cache with
  | none =>
      simp only [bind, StateT.bind, onCache, found]
      exact nothing
  | some cache =>
      have ended := establishes cache found _ rfl
      simp only [bind, StateT.bind, onCache, found]
      cases ran : Script.acquireValue backend key script ⟨cache, workspace.backend⟩ with
      | mk result caching =>
          rw [ran] at ended
          cases result <;> exact ended

end CipherModes.Workspace
