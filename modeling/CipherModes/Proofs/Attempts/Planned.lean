import CipherModes.Engine
import CipherModes.Proofs.Accounts.Layers
import CipherModes.Proofs.Engine.BlockLength
import CipherModes.Proofs.Token.GivenBack

/-!
# What engines can expect behind a plan

A plan decides what a provider reports and which calls fail. What it reports can
be told beforehand. An engine that opens a provider comes to just that, or it
fails; and if no call was made to fail, then it fails as it could be told.
-/

set_option autoImplicit false

namespace CipherModes

/-! ## Expectations -/

/-- Whether a provider can be opened at all. -/
def Settings.opening (settings : Settings) : Except CipherError Unit :=
  if settings.disables aesAlgorithm then
    .error (.backend ⟨Operation.openProvider.name, .notFound⟩)
  else .ok ()

theorem Settings.enabled_of_opening {settings : Settings} (opening : settings.opening = .ok ()) :
    ¬ settings.disables aesAlgorithm := by
  intro disabled
  rw [Settings.opening, if_pos disabled] at opening
  cases opening

namespace Plan

/-- No call fails. -/
def Calm (plan : Plan) : Prop := ∀ operation number, plan.fault operation number = none

/-- The same properties, and no call fails. -/
def calm (plan : Plan) : Plan := { property := plan.property }

theorem calm_calm (plan : Plan) : plan.calm.Calm := fun _ _ => rfl

/-- What is read of a property that a provider has itself, where a value of that size is wanted. -/
def read (plan : Plan) (name : String) (own : Bytes) (size : Nat) : Except CipherError Bytes :=
  let value := (plan.property name).getD own
  if size < value.length then .error (.backend ⟨Operation.getProperty.name, .bufferTooSmall⟩)
  else if value.length = size then .ok value
  else .error (.backend ⟨Operation.getProperty.name, .invalidBufferSize⟩)

theorem read_of_nothing (name : String) {own : Bytes} {size : Nat} (exact : own.length = size) :
    ({} : Plan).read name own size = .ok own := by
  simp only [read, Option.getD_none, exact, if_true, Nat.lt_irrefl, if_false]

/-- The key lengths that a provider allows and its block length, if it reports ones that make
sense. -/
def limits (plan : Plan) (settings : Settings) : Except CipherError (AllowedKeyLengths × Nat) := do
  let lengths ← plan.read PropertyName.keyLengths settings.keyLengths.encode KeyLengths.size
  let allowed ← AllowedKeyLengths.check (KeyLengths.decode lengths)
  let word ← plan.read PropertyName.blockLength (encodeWord settings.blockLength) 4
  if decodeWord word = 0 then throw (.invalidBlockSize 0)
  else return (allowed, (decodeWord word).toNat)

/-- What an engine can know of a provider that it opens. -/
def offer (plan : Plan) (settings : Settings) : Except CipherError (AllowedKeyLengths × Nat) := do
  settings.opening
  plan.limits settings

theorem offer_calm (plan : Plan) (settings : Settings) :
    plan.calm.offer settings = plan.offer settings := rfl

theorem blockSize_of_limits {plan : Plan} {settings : Settings} {allowed : AllowedKeyLengths}
    {size : Nat} (told : plan.limits settings = .ok (allowed, size)) : size ≠ 0 := by
  simp only [limits, bind, Except.bind] at told
  split at told
  · cases told
  split at told
  · cases told
  split at told
  · cases told
  split at told
  · cases told
  · rename_i nonzero
    cases told
    exact fun none => nonzero (UInt32.toNat_inj.mp none)

theorem blockSize_of_offer {plan : Plan} {settings : Settings} {allowed : AllowedKeyLengths}
    {size : Nat} (told : plan.offer settings = .ok (allowed, size)) : size ≠ 0 := by
  cases opening : settings.opening with
  | error error =>
      rw [offer, opening] at told
      cases told
  | ok _ =>
      rw [offer, opening] at told
      exact blockSize_of_limits told

end Plan

/-- An action came to something that could be expected, or it failed: as expected, unless the plan
makes calls fail. -/
inductive Meets {σ α β : Type} (plan : Plan) (expected : Except CipherError β)
    (success : α → β → σ → Prop) (failure : σ → Prop) : Except CipherError α × σ → Prop where
  | ok {value : α} {told : β} {next : σ} (expects : expected = .ok told)
      (holds : success value told next) : Meets plan expected success failure (.ok value, next)
  | error {error : CipherError} {next : σ} (expects : plan.Calm → expected = .error error)
      (holds : failure next) : Meets plan expected success failure (.error error, next)

namespace Meets

variable {σ α β γ δ : Type} {plan : Plan} {expected : Except CipherError β}
  {success : α → β → σ → Prop} {failure : σ → Prop} {outcome : Except CipherError α × σ}

theorem bind {continued : β → Except CipherError δ} {action : Action σ α} {rest : α → Action σ γ}
    {last : γ → δ → σ → Prop} {state : σ} (between : α → β → σ → Prop)
    (first : Meets plan expected between failure (action state))
    (second : ∀ value told next, between value told next →
      Meets plan (continued told) last failure (rest value next)) :
    Meets plan (expected >>= continued) last failure ((action >>= rest) state) := by
  rw [Action.bind_apply]
  cases ran : action state with
  | mk result next =>
      rw [ran] at first
      cases first with
      | ok expects holds =>
          rw [expects]
          exact second _ _ _ holds
      | error expects holds =>
          refine .error (fun calm => ?_) holds
          rw [expects calm]
          rfl

theorem mono {wider : α → β → σ → Prop} {worse : σ → Prop}
    (meets : Meets plan expected success failure outcome)
    (weaken : ∀ value told next, expected = .ok told → success value told next →
      wider value told next)
    (weakenFailure : ∀ next, failure next → worse next) :
    Meets plan expected wider worse outcome := by
  cases meets with
  | ok expects holds => exact .ok expects (weaken _ _ _ expects holds)
  | error expects holds => exact .error expects (weakenFailure _ holds)

theorem of_error {error : CipherError} {next : σ}
    (meets : Meets plan expected success failure (.error error, next)) : failure next := by
  cases meets with
  | error _ holds => exact holds

end Meets

/-! ## Tokens that follow each other -/

namespace Token

variable {token next last : Token}

/-- Calls lead from the one token to the other. -/
def Follows (token next : Token) : Prop := ∃ calls, next = token.afterCalls calls

namespace Follows

theorem refl (token : Token) : token.Follows token := ⟨[], rfl⟩

theorem answer (token : Token) (call : Call) : token.Follows (token.answer call).2 := ⟨[call], rfl⟩

theorem trans (first : token.Follows next) (second : next.Follows last) : token.Follows last := by
  obtain ⟨calls, rfl⟩ := first
  obtain ⟨others, rfl⟩ := second
  exact ⟨calls ++ others, (List.foldl_append ..).symm⟩

theorem issued_le (follows : token.Follows next) : token.handlesIssued ≤ next.handlesIssued := by
  obtain ⟨calls, rfl⟩ := follows
  exact handlesIssued_le_afterCalls token calls

theorem accounted (follows : token.Follows next) (remain : next.handlesIssued < Handle.limit)
    (accounted : token.Accounted) : next.Accounted := by
  obtain ⟨calls, rfl⟩ := follows
  exact accounted.afterCalls calls remain

theorem settings_eq (follows : token.Follows next) : next.settings = token.settings := by
  obtain ⟨calls, rfl⟩ := follows
  exact token.settings_afterCalls calls

end Follows

/-- Every key is in a provider that is open. -/
def KeysInside (token : Token) : Prop :=
  ∀ entry ∈ token.keys.entries, entry.2.provider ∈ token.providers.handles

theorem KeysInside.answer (inside : token.KeysInside) (call : Call) :
    (token.answer call).2.KeysInside := by
  have within : token.Within token.providers.handles
      (token.keys.entries.map fun entry => (entry.1, entry.2.provider)) :=
    ⟨fun _ member => member, fun _ member => List.mem_map_of_mem member, inside⟩
  exact (within.answer call).inside

theorem Follows.keysInside (follows : token.Follows next) (inside : token.KeysInside) :
    next.KeysInside := by
  obtain ⟨calls, rfl⟩ := follows
  induction calls generalizing token with
  | nil => exact inside
  | cons call rest ih => exact ih (inside.answer call)

end Token

end CipherModes
