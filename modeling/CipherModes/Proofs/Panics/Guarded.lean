import CipherModes.BlockCipher

/-!
# Calls that may panic

The operations of the library are total, and a broken precondition is one of
their answers. To see where that is all that can go wrong, they are written out
a second time with steps that check what they need: a slice, a copy, a split, a
subtraction, a remainder or an addition panics where it has no meaning, in the
middle of the operation, and what was written until then stays written. Memory
is never short.
-/

set_option autoImplicit false

namespace CipherModes

/-- What a call stops with when it has no way to go on. -/
inductive Panic
  /-- A check that the operation makes on its arguments. -/
  | broken (precondition : Precondition)
  /-- A slice or a split beyond the end. -/
  | outOfBounds
  /-- A copy between buffers of different lengths. -/
  | unequalLengths
  | zeroDivisor
  | underflow
  | overflow
  deriving DecidableEq, Repr

/-- An empty block is not checked for: it is the divisor of a remainder. -/
def Precondition.panic : Precondition → Panic
  | blockIsNonempty => .zeroDivisor
  | precondition => .broken precondition

/-- What a call can change: the state behind a cipher or a backend, the buffer
of the caller, and what the object called keeps from call to call. -/
structure Frame (σ κ : Type) where
  world : σ
  buffer : Bytes
  kept : κ

/-- A call that may panic on the way. -/
abbrev Guarded (φ α : Type) := ExceptT Panic (StateM φ) α

/-! ## Steps on values -/

namespace Panic

/-- The first bytes, so many. -/
def front (bytes : Bytes) (count : Nat) : Except Panic Bytes :=
  if count ≤ bytes.length then .ok (bytes.take count) else .error outOfBounds

/-- The bytes after the first ones. -/
def back (bytes : Bytes) (count : Nat) : Except Panic Bytes :=
  if count ≤ bytes.length then .ok (bytes.drop count) else .error outOfBounds

def splitAt (bytes : Bytes) (count : Nat) : Except Panic (Bytes × Bytes) :=
  if count ≤ bytes.length then .ok (bytes.take count, bytes.drop count) else .error outOfBounds

/-- A buffer after all of it was overwritten. -/
def copied (target source : Bytes) : Except Panic Bytes :=
  if source.length = target.length then .ok source else .error unequalLengths

/-- Bytes of which the first ones, so many, were overwritten. -/
def overwriteFront (bytes : Bytes) (count : Nat) (source : Bytes) : Except Panic Bytes := do
  let target ← front bytes count
  return (← copied target source) ++ bytes.drop count

/-- Bytes of which all but the first ones were overwritten. -/
def overwriteBack (bytes : Bytes) (count : Nat) (source : Bytes) : Except Panic Bytes := do
  let target ← back bytes count
  return bytes.take count ++ (← copied target source)

def setByte (bytes : Bytes) (index : Nat) (byte : UInt8) : Except Panic Bytes :=
  if index < bytes.length then .ok (bytes.set index byte) else .error outOfBounds

/-- Bytes that have to be so many. -/
def exactly (count : Nat) (bytes : Bytes) : Except Panic Bytes :=
  if bytes.length = count then .ok bytes else .error unequalLengths

def difference (left right : Nat) : Except Panic Nat :=
  if right ≤ left then .ok (left - right) else .error underflow

def remainder (left right : Nat) : Except Panic Nat :=
  if right = 0 then .error zeroDivisor else .ok (left % right)

def quotient (left right : Nat) : Except Panic Nat :=
  if right = 0 then .error zeroDivisor else .ok (left / right)

/-- A sum in a type of numbers below `limit`. -/
def sum (limit left right : Nat) : Except Panic Nat :=
  if left + right < limit then .ok (left + right) else .error overflow

section

variable {bytes target source : Bytes} {count : Nat}

theorem front_of_le (enough : count ≤ bytes.length) : front bytes count = .ok (bytes.take count) :=
  if_pos enough

theorem back_of_le (enough : count ≤ bytes.length) : back bytes count = .ok (bytes.drop count) :=
  if_pos enough

theorem splitAt_of_le (enough : count ≤ bytes.length) :
    splitAt bytes count = .ok (bytes.take count, bytes.drop count) :=
  if_pos enough

theorem copied_of_length (same : source.length = target.length) : copied target source = .ok source :=
  if_pos same

theorem overwriteFront_of_length (enough : count ≤ bytes.length) (same : source.length = count) :
    overwriteFront bytes count source = .ok (source ++ bytes.drop count) := by
  have fits : source.length = (bytes.take count).length := by
    rw [same, List.length_take_of_le enough]
  simp only [overwriteFront, front_of_le enough, copied_of_length fits, bind, Except.bind]
  rfl

theorem overwriteBack_of_length (same : count + source.length = bytes.length) :
    overwriteBack bytes count source = .ok (bytes.take count ++ source) := by
  have enough : count ≤ bytes.length := by omega
  have fits : source.length = (bytes.drop count).length := by
    rw [List.length_drop]
    omega
  simp only [overwriteBack, back_of_le enough, copied_of_length fits, bind, Except.bind]
  rfl

theorem setByte_of_lt {index : Nat} {byte : UInt8} (inside : index < bytes.length) :
    setByte bytes index byte = .ok (bytes.set index byte) :=
  if_pos inside

theorem exactly_of_length (same : bytes.length = count) : exactly count bytes = .ok bytes :=
  if_pos same

theorem difference_of_le {left right : Nat} (ordered : right ≤ left) :
    difference left right = .ok (left - right) :=
  if_pos ordered

theorem remainder_of_pos {left right : Nat} (positive : 0 < right) :
    remainder left right = .ok (left % right) :=
  if_neg (Nat.ne_of_gt positive)

theorem quotient_of_pos {left right : Nat} (positive : 0 < right) :
    quotient left right = .ok (left / right) :=
  if_neg (Nat.ne_of_gt positive)

theorem sum_of_lt {limit left right : Nat} (inside : left + right < limit) :
    sum limit left right = .ok (left + right) :=
  if_pos inside

end

end Panic

/-- Byte-wise exclusive or into a buffer, which keeps what the other does not
reach. -/
def Bytes.xorInto (target source : Bytes) : Bytes := overlay (xor target source) target

theorem Bytes.xorInto_of_le {target source : Bytes} (reaches : target.length ≤ source.length) :
    xorInto target source = xor target source := by
  have whole : target.drop (xor target source).length = [] :=
    List.drop_of_length_le (by rw [length_xor]; omega)
  rw [xorInto, overlay, whole, List.append_nil]

/-! ## Steps on frames -/

namespace Guarded

variable {σ κ ι φ α β : Type}

/-- A check of an argument. -/
def require (precondition : Precondition) (holds : Prop) [Decidable holds] : Guarded φ Unit :=
  fun frame => if holds then (.ok (), frame) else (.error (.broken precondition), frame)

/-- A step on values. -/
def step (result : Except Panic α) : Guarded φ α := fun frame => (result, frame)

def buffer : Guarded (Frame σ κ) Bytes := fun frame => (.ok frame.buffer, frame)

def update (change : Bytes → Bytes) : Guarded (Frame σ κ) Unit := fun frame =>
  (.ok (), { frame with buffer := change frame.buffer })

def kept : Guarded (Frame σ κ) κ := fun frame => (.ok frame.kept, frame)

def keep (kept : κ) : Guarded (Frame σ κ) Unit := fun frame => (.ok (), { frame with kept })

/-- Runs a call on the part of the buffer between two places. -/
def onSlice (start stop : Nat) (call : Guarded (Frame σ κ) α) : Guarded (Frame σ κ) α :=
  fun frame =>
    if start ≤ stop ∧ stop ≤ frame.buffer.length then
      let (result, next) := call { frame with buffer := (frame.buffer.take stop).drop start }
      (result, { next with
        buffer := frame.buffer.take start ++ next.buffer ++ frame.buffer.drop stop })
    else (.error .outOfBounds, frame)

/-- Runs a call on the buffer from some place on. -/
def onTail (start : Nat) (call : Guarded (Frame σ κ) α) : Guarded (Frame σ κ) α := fun frame =>
  onSlice start frame.buffer.length call frame

/-- Drops the buffer from some place on. -/
def cutBack (start : Nat) : Guarded (Frame σ κ) Unit := fun frame =>
  if start ≤ frame.buffer.length then
    (.ok (), { frame with buffer := frame.buffer.take start })
  else (.error .outOfBounds, frame)

/-- Runs a call of another object, which keeps nothing. -/
def keeping (call : Guarded (Frame σ Unit) α) : Guarded (Frame σ κ) α := fun frame =>
  let (result, next) := call { frame with kept := () }
  (result, { next with kept := frame.kept })

/-- Runs a call of another object on a buffer of this one's own: the value and
the buffer. -/
def onOwn (own : Bytes) (call : Guarded (Frame σ Unit) α) : Guarded (Frame σ κ) (α × Bytes) :=
  fun frame =>
    let (result, next) := call ⟨frame.world, own, ()⟩
    (result.map fun value => (value, next.buffer), { frame with world := next.world })

theorem bind_apply (call : Guarded φ α) (rest : α → Guarded φ β) (frame : φ) :
    (call >>= rest) frame =
      match call frame with
      | (.ok value, next) => rest value next
      | (.error panic, next) => (.error panic, next) := by
  simp only [bind, ExceptT.bind, ExceptT.mk, StateT.bind]
  cases call frame with
  | mk result next => cases result <;> rfl

theorem bind_of_ok {call : Guarded φ α} {rest : α → Guarded φ β} {frame next : φ} {value : α}
    (done : call frame = (.ok value, next)) : (call >>= rest) frame = rest value next := by
  rw [bind_apply, done]

theorem bind_of_panic {call : Guarded φ α} {rest : α → Guarded φ β} {frame next : φ}
    {panic : Panic} (stopped : call frame = (.error panic, next)) :
    (call >>= rest) frame = (.error panic, next) := by
  rw [bind_apply, stopped]

theorem pure_apply (value : α) (frame : φ) : (pure value : Guarded φ α) frame = (.ok value, frame) :=
  rfl

section

variable {precondition : Precondition} {holds : Prop} [Decidable holds] {frame : φ}

theorem require_of_holds (fulfilled : holds) :
    require precondition holds frame = (.ok (), frame) :=
  if_pos fulfilled

theorem require_of_not (failing : ¬ holds) :
    require precondition holds frame = (.error (.broken precondition), frame) :=
  if_neg failing

end

/-- On a slice within the buffer a call finds the middle part and puts it back. -/
theorem onSlice_append (call : Guarded (Frame σ κ) α) (world : σ) (front middle rest : Bytes)
    (kept : κ) :
    onSlice front.length (front.length + middle.length) call
        ⟨world, front ++ (middle ++ rest), kept⟩ =
      ((call ⟨world, middle, kept⟩).1,
        { (call ⟨world, middle, kept⟩).2 with
          buffer := front ++ ((call ⟨world, middle, kept⟩).2.buffer ++ rest) }) := by
  have inside : front.length ≤ front.length + middle.length ∧
      front.length + middle.length ≤ (front ++ (middle ++ rest)).length := by
    simp only [List.length_append]
    omega
  have whole : (front ++ (middle ++ rest)).take (front.length + middle.length) = front ++ middle := by
    rw [← List.append_assoc, List.take_left' List.length_append]
  have after : (front ++ (middle ++ rest)).drop (front.length + middle.length) = rest := by
    rw [← List.append_assoc, List.drop_left' List.length_append]
  simp only [onSlice, if_pos inside, whole, after, List.drop_left, List.take_left, List.append_assoc]
  rfl

theorem onTail_append (call : Guarded (Frame σ κ) α) (world : σ) (front rest : Bytes) (kept : κ) :
    onTail front.length call ⟨world, front ++ rest, kept⟩ =
      ((call ⟨world, rest, kept⟩).1,
        { (call ⟨world, rest, kept⟩).2 with
          buffer := front ++ (call ⟨world, rest, kept⟩).2.buffer }) := by
  have slice := onSlice_append call world front rest [] kept
  simp only [List.append_nil, ← List.length_append] at slice
  exact slice

theorem cutBack_append (world : σ) (front rest : Bytes) (kept : κ) :
    cutBack front.length ⟨world, front ++ rest, kept⟩ = (.ok (), ⟨world, front, kept⟩) := by
  have inside : front.length ≤ (front ++ rest).length := by simp
  simp only [cutBack, if_pos inside, List.take_left]

end Guarded

/-! ## Calls beside the operations of the library -/

namespace Guarded

variable {σ κ ι : Type}

/-- What a call comes to whose operation gives this answer. -/
def outcome : Except Fault Unit → Except Panic (Except CipherError Unit)
  | .ok () => .ok (.ok ())
  | .error (.error error) => .ok (.error error)
  | .error (.broken precondition) => .error precondition.panic

theorem outcome_mapError (result : Except CipherError Unit) :
    outcome (result.mapError .error) = .ok result := by
  cases result <;> rfl

/-- An operation of an object that keeps nothing new. -/
def stateless (operation : Bytes → StateM σ (Except Fault Unit × Bytes)) (buffer : Bytes)
    (kept : κ) : StateM σ (Except Fault Unit × Bytes × κ) := fun state =>
  let ((result, buffer), next) := operation buffer state
  ((result, buffer, kept), next)

theorem of_stateless {operation : Bytes → StateM σ (Except Fault Unit × Bytes)}
    {buffer output : Bytes} {kept last : κ} {state next : σ} {result : Except Fault Unit}
    (answered : stateless operation buffer kept state = ((result, output, last), next)) :
    operation buffer state = ((result, output), next) ∧ last = kept := by
  cases called : operation buffer state with
  | mk reply after =>
      simp only [stateless, called] at answered
      cases answered
      exact ⟨rfl, rfl⟩

/-- The call does what the operation does, stops only where the operation finds a precondition
broken, does so on just the frames described, and then leaves the frame as it was. The operation
may know less of what the object keeps. -/
structure Documented (call : Guarded (Frame σ κ) (Except CipherError Unit)) (known : κ → ι)
    (operation : Bytes → ι → StateM σ (Except Fault Unit × Bytes × ι))
    (improper : Bytes → κ → Prop) (frame : Frame σ κ) : Prop where
  result_eq : (call frame).1 =
    outcome (operation frame.buffer (known frame.kept) frame.world).1.1
  buffer_eq : (call frame).2.buffer = (operation frame.buffer (known frame.kept) frame.world).1.2.1
  kept_eq : known (call frame).2.kept =
    (operation frame.buffer (known frame.kept) frame.world).1.2.2
  world_eq : (call frame).2.world = (operation frame.buffer (known frame.kept) frame.world).2
  panics_iff : (∃ panic, (call frame).1 = .error panic) ↔ improper frame.buffer frame.kept
  untouched : ∀ panic, (call frame).1 = .error panic → (call frame).2 = frame

namespace Documented

variable {call : Guarded (Frame σ κ) (Except CipherError Unit)} {known : κ → ι}
  {operation : Bytes → ι → StateM σ (Except Fault Unit × Bytes × ι)}
  {improper : Bytes → κ → Prop} {frame next : Frame σ κ}

theorem of_refusal (precondition : Precondition) (described : improper frame.buffer frame.kept)
    (stopped : call frame = (.error precondition.panic, frame))
    (refused : operation frame.buffer (known frame.kept) frame.world =
      ((.error (.broken precondition), frame.buffer, known frame.kept), frame.world)) :
    Documented call known operation improper frame where
  result_eq := by rw [stopped, refused]; rfl
  buffer_eq := by rw [stopped, refused]
  kept_eq := by rw [stopped, refused]
  world_eq := by rw [stopped, refused]
  panics_iff := ⟨fun _ => described, fun _ => ⟨_, by rw [stopped]⟩⟩
  untouched _ _ := by rw [stopped]

theorem of_answer {result : Except CipherError Unit}
    (proper : ¬ improper frame.buffer frame.kept) (done : call frame = (.ok result, next))
    (answered : operation frame.buffer (known frame.kept) frame.world =
      ((result.mapError .error, next.buffer, known next.kept), next.world)) :
    Documented call known operation improper frame where
  result_eq := by rw [done, answered, outcome_mapError]
  buffer_eq := by rw [done, answered]
  kept_eq := by rw [done, answered]
  world_eq := by rw [done, answered]
  panics_iff := ⟨by rw [done]; exact nofun, fun described => absurd described proper⟩
  untouched := by rw [done]; exact nofun

theorem refuses_or_answers (documented : Documented call known operation improper frame) :
    (improper frame.buffer frame.kept ∧
      ∃ precondition : Precondition, call frame = (.error precondition.panic, frame) ∧
        operation frame.buffer (known frame.kept) frame.world =
          ((.error (.broken precondition), frame.buffer, known frame.kept), frame.world)) ∨
    (¬ improper frame.buffer frame.kept ∧
      ∃ result next, call frame = (.ok result, next) ∧
        operation frame.buffer (known frame.kept) frame.world =
          ((result.mapError .error, next.buffer, known next.kept), next.world)) := by
  obtain ⟨result_eq, buffer_eq, kept_eq, world_eq, panics_iff, untouched⟩ := documented
  cases called : call frame with
  | mk outcome next =>
      cases answered : operation frame.buffer (known frame.kept) frame.world with
      | mk answer world =>
          obtain ⟨result, output, object⟩ := answer
          rw [called, answered] at result_eq buffer_eq kept_eq world_eq
          rw [called] at panics_iff untouched
          cases buffer_eq
          cases kept_eq
          cases world_eq
          rcases result with (error | precondition) | _
          · cases result_eq
            exact .inr ⟨by rw [← panics_iff]; exact nofun, .error error, next, rfl, rfl⟩
          · cases result_eq
            have same : next = frame := untouched _ rfl
            rw [same]
            exact .inl ⟨panics_iff.mp ⟨_, rfl⟩, precondition, rfl, rfl⟩
          · cases result_eq
            exact .inr ⟨by rw [← panics_iff]; exact nofun, .ok (), next, rfl, rfl⟩

/-- Only what is done on this frame matters. -/
theorem congr {otherCall : Guarded (Frame σ κ) (Except CipherError Unit)}
    {otherOperation : Bytes → ι → StateM σ (Except Fault Unit × Bytes × ι)}
    (documented : Documented otherCall known otherOperation improper frame)
    (sameCall : call frame = otherCall frame)
    (sameAnswer : operation frame.buffer (known frame.kept) frame.world =
      otherOperation frame.buffer (known frame.kept) frame.world) :
    Documented call known operation improper frame where
  result_eq := by rw [sameCall, sameAnswer, documented.result_eq]
  buffer_eq := by rw [sameCall, sameAnswer, documented.buffer_eq]
  kept_eq := by rw [sameCall, sameAnswer, documented.kept_eq]
  world_eq := by rw [sameCall, sameAnswer, documented.world_eq]
  panics_iff := by rw [sameCall, documented.panics_iff]
  untouched := by rw [sameCall]; exact documented.untouched

end Documented

end Guarded

end CipherModes
