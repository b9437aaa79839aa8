import CipherModes.Cbc
import CipherModes.Proofs.Cbc.Blocks
import CipherModes.Proofs.Panics.Blocks

/-!
# Panics of chained blocks

A stream checks the shape of its input before the first block. After that no
block is cut short, and the chaining block and the scratch block stay as long as
a block of the cipher.
-/

set_option autoImplicit false

namespace CipherModes.Cbc

open Guarded

variable {τ : Type}

/-! ## Streams with their checks -/

/-- A stream and the block that it works in. -/
structure Held where
  stream : Cbc
  scratch : Bytes

/-- Both blocks of a stream have the size of the cipher's. -/
structure Held.Sound (size : Nat) (held : Held) : Prop where
  length_chain : held.stream.chain.length = size
  length_scratch : held.scratch.length = size

def startGuarded (blockSize : Nat) (direction : Direction) (iv : Bytes) :
    Guarded (Frame τ Unit) Held := do
  require .chainIsBlock (iv.length = blockSize)
  return { stream := { direction, chain := iv }, scratch := Bytes.zeros blockSize }

def restartGuarded (iv : Bytes) : Guarded (Frame τ Held) Unit := do
  let held ← kept
  require .chainIsBlock (iv.length = held.stream.blockSize)
  let chain ← step (Panic.copied held.stream.chain iv)
  keep { held with stream := { held.stream with chain } }

/-- One block, which is the whole buffer. -/
def cryptBlockGuarded (cipher : GuardedCipher τ) :
    Guarded (Frame τ Held) (Except CipherError Unit) := do
  let held ← kept
  let scratch ← step (Panic.copied held.scratch (← buffer))
  match held.stream.direction with
  | .encrypt =>
      let scratch := Bytes.xorInto scratch held.stream.chain
      keep { held with scratch }
      match ← keeping (cipher.attempt .encrypt scratch) with
      | .error error => return .error error
      | .ok () =>
          let chain ← step (Panic.copied held.stream.chain (← buffer))
          keep { stream := { held.stream with chain }, scratch }
          return .ok ()
  | .decrypt =>
      keep { held with scratch }
      match ← keeping (cipher.attempt .decrypt scratch) with
      | .error error => return .error error
      | .ok () =>
          update (Bytes.xorInto · held.stream.chain)
          let chain ← step (Panic.copied held.stream.chain scratch)
          keep { stream := { held.stream with chain }, scratch }
          return .ok ()

/-- So many blocks of some size, from an offset on. -/
def cryptFrontGuarded (cipher : GuardedCipher τ) (size : Nat) :
    (count offset : Nat) → Guarded (Frame τ Held) (Except CipherError Unit)
  | 0, _ => return .ok ()
  | count + 1, offset => do
      match ← onSlice offset (offset + size) (cryptBlockGuarded cipher) with
      | .error error => return .error error
      | .ok () => cryptFrontGuarded cipher size count (offset + size)

def cryptInPlaceGuarded (cipher : GuardedCipher τ) :
    Guarded (Frame τ Held) (Except CipherError Unit) := do
  let size := (← kept).stream.blockSize
  let length := (← buffer).length
  let rest ← step (Panic.remainder length size)
  require .wholeBlocks (rest = 0)
  let count ← step (Panic.quotient length size)
  cryptFrontGuarded cipher size count 0

def cryptGuarded (cipher : GuardedCipher τ) (source : Bytes) :
    Guarded (Frame τ Held) (Except CipherError Unit) := do
  let rest ← step (Panic.remainder source.length (← kept).stream.blockSize)
  require .wholeBlocks (rest = 0)
  require .destinationHoldsSource (source.length ≤ (← buffer).length)
  onSlice 0 source.length do
    let target ← step (Panic.copied (← buffer) source)
    update fun _ => target
    cryptInPlaceGuarded cipher

/-! ## Blocks in turn -/

section

variable {cipher : BlockCipher τ} {chain block output : Bytes} {state next : τ}
  {result : Except CipherError Unit}

theorem cryptBlock_encrypt
    (called : cipher.transform .encrypt (Bytes.xor block chain) block state =
      ((result, output), next)) :
    cryptBlock cipher .encrypt chain block state =
      ((result, output, match result with | .ok () => output | .error _ => chain), next) := by
  simp only [cryptBlock, bind, StateT.bind, called]
  cases result <;> rfl

theorem cryptBlock_decrypt
    (called : cipher.transform .decrypt block block state = ((result, output), next)) :
    cryptBlock cipher .decrypt chain block state =
      ((result, match result with
          | .ok () => (Bytes.xor output chain, block)
          | .error _ => (output, chain)), next) := by
  simp only [cryptBlock, bind, StateT.bind, called]
  cases result <;> rfl

theorem length_cryptBlock (cipher : BlockCipher τ) (direction : Direction)
    (whole : block.length = chain.length) (state : τ) :
    (cryptBlock cipher direction chain block state).1.2.1.length = chain.length ∧
      (cryptBlock cipher direction chain block state).1.2.2.length = chain.length := by
  cases direction with
  | encrypt =>
      have size := cipher.keepsLength .encrypt (Bytes.xor block chain) block state
      cases called : cipher.transform .encrypt (Bytes.xor block chain) block state with
      | mk reply next =>
          obtain ⟨result, output⟩ := reply
          rw [called] at size
          rw [cryptBlock_encrypt called]
          cases result with
          | error _ => exact ⟨size.trans whole, rfl⟩
          | ok _ => exact ⟨size.trans whole, size.trans whole⟩
  | decrypt =>
      have size := cipher.keepsLength .decrypt block block state
      cases called : cipher.transform .decrypt block block state with
      | mk reply next =>
          obtain ⟨result, output⟩ := reply
          have written : output.length = chain.length := by
            rw [called] at size
            exact size.trans whole
          rw [cryptBlock_decrypt called]
          cases result with
          | error _ => exact ⟨written, rfl⟩
          | ok _ => exact ⟨by simp only [Bytes.length_xor, written, Nat.min_self], whole⟩

end

section

variable {cipher : BlockCipher τ} {direction : Direction} {chain read more block next : Bytes}
  {count : Nat} {state middle : τ} {error : CipherError}

theorem cryptFront_of_error (size : read.length = chain.length)
    (first : cryptBlock cipher direction chain read state = ((.error error, block, next), middle)) :
    cryptFront cipher direction (count + 1) chain (read ++ more) state =
      ((.error error, block ++ more, next), middle) := by
  simp only [cryptFront, bind, StateT.bind, List.take_left' size, List.drop_left' size, first]
  rfl

theorem cryptFront_of_ok (size : read.length = chain.length)
    (first : cryptBlock cipher direction chain read state = ((.ok (), block, next), middle)) :
    cryptFront cipher direction (count + 1) chain (read ++ more) state =
      (((cryptFront cipher direction count next more middle).1.1,
        block ++ (cryptFront cipher direction count next more middle).1.2.1,
        (cryptFront cipher direction count next more middle).1.2.2),
        (cryptFront cipher direction count next more middle).2) :=
  cryptFront_succ size first rfl

end

section

variable {cipher : GuardedCipher τ} {frame : Frame τ Held}

/-- What is left when the blocks after a front were processed with this answer. -/
def processed (held : Held) (scratch front : Bytes)
    (answer : (Except CipherError Unit × Bytes × Bytes) × τ) :
    Except Panic (Except CipherError Unit) × Frame τ Held :=
  (.ok answer.1.1,
    ⟨answer.2, front ++ answer.1.2.1,
      { stream := { held.stream with chain := answer.1.2.2 }, scratch }⟩)

theorem cryptBlockGuarded_eq (frame : Frame τ Held)
    (sound : frame.kept.Sound cipher.cipher.blockSize)
    (whole : frame.buffer.length = cipher.cipher.blockSize) :
    ∃ scratch : Bytes, scratch.length = cipher.cipher.blockSize ∧
      cryptBlockGuarded cipher frame = processed frame.kept scratch []
        (cryptBlock cipher.cipher frame.kept.stream.direction frame.kept.stream.chain frame.buffer
          frame.world) := by
  obtain ⟨world, block, ⟨⟨direction, chain⟩, scratch⟩⟩ := frame
  obtain ⟨chainSize, scratchSize⟩ := sound
  simp only at whole chainSize scratchSize
  have filled : Panic.copied scratch block = .ok block :=
    Panic.copied_of_length (whole.trans scratchSize.symm)
  cases direction with
  | encrypt =>
      have reaches : block.length ≤ chain.length := Nat.le_of_eq (whole.trans chainSize.symm)
      have mixed : (Bytes.xor block chain).length = cipher.cipher.blockSize := by
        rw [Bytes.length_xor, whole, chainSize, Nat.min_self]
      have size := cipher.cipher.keepsLength .encrypt (Bytes.xor block chain) block world
      refine ⟨Bytes.xor block chain, mixed, ?_⟩
      cases called : cipher.cipher.transform .encrypt (Bytes.xor block chain) block world with
      | mk reply next =>
          obtain ⟨result, output⟩ := reply
          have linked : Panic.copied chain output = .ok output := by
            apply Panic.copied_of_length
            rw [called] at size
            exact size.trans (whole.trans chainSize.symm)
          have attempted := cipher.attempt_of_full .encrypt (Bytes.xor block chain)
            ⟨world, block, ()⟩ (Nat.le_of_eq mixed.symm) (Nat.le_of_eq whole.symm)
          rw [called] at attempted
          rw [cryptBlock_encrypt called]
          simp only [cryptBlockGuarded, bind_apply, kept, buffer, step, filled, keep, keeping,
            Bytes.xorInto_of_le reaches, attempted]
          cases result with
          | error _ => rfl
          | ok _ =>
              simp only [bind_apply, buffer, step, linked]
              rfl
  | decrypt =>
      have size := cipher.cipher.keepsLength .decrypt block block world
      have linked : Panic.copied chain block = .ok block :=
        Panic.copied_of_length (whole.trans chainSize.symm)
      refine ⟨block, whole, ?_⟩
      cases called : cipher.cipher.transform .decrypt block block world with
      | mk reply next =>
          obtain ⟨result, output⟩ := reply
          have reaches : output.length ≤ chain.length := by
            rw [called] at size
            exact Nat.le_of_eq (size.trans (whole.trans chainSize.symm))
          have attempted := cipher.attempt_of_full .decrypt block ⟨world, block, ()⟩
            (Nat.le_of_eq whole.symm) (Nat.le_of_eq whole.symm)
          rw [called] at attempted
          rw [cryptBlock_decrypt called]
          simp only [cryptBlockGuarded, bind_apply, kept, buffer, step, filled, keep, keeping,
            attempted]
          cases result with
          | error _ => rfl
          | ok _ =>
              simp only [bind_apply, update, step, linked, Bytes.xorInto_of_le reaches]
              rfl

theorem cryptFrontGuarded_eq (world : τ) (front rest : Bytes) {held : Held}
    (sound : held.Sound cipher.cipher.blockSize) {count : Nat}
    (enough : count * cipher.cipher.blockSize ≤ rest.length)
    {answer : (Except CipherError Unit × Bytes × Bytes) × τ}
    (answered : cryptFront cipher.cipher held.stream.direction count held.stream.chain rest world =
      answer) :
    ∃ scratch : Bytes,
      cryptFrontGuarded cipher cipher.cipher.blockSize count front.length
          ⟨world, front ++ rest, held⟩ = processed held scratch front answer ∧
      scratch.length = cipher.cipher.blockSize ∧ answer.1.2.2.length = cipher.cipher.blockSize := by
  induction count generalizing world front rest held answer with
  | zero =>
      cases answered
      exact ⟨held.scratch, rfl, sound.length_scratch, sound.length_chain⟩
  | succ count ih =>
      rw [Nat.succ_mul] at enough
      have room : cipher.cipher.blockSize ≤ rest.length := by omega
      obtain ⟨read, more, rfl, readSize⟩ : ∃ read more : Bytes,
          rest = read ++ more ∧ read.length = cipher.cipher.blockSize :=
        ⟨_, _, (List.take_append_drop _ rest).symm, List.length_take_of_le room⟩
      rw [List.length_append, readSize] at enough
      have whole : read.length = held.stream.chain.length := readSize.trans sound.length_chain.symm
      obtain ⟨scratch, scratchSize, once⟩ :=
        cryptBlockGuarded_eq ⟨world, read, held⟩ sound readSize
      have sliced := onSlice_append (cryptBlockGuarded cipher) world front read more held
      have lengths := length_cryptBlock cipher.cipher held.stream.direction whole world
      cases first : cryptBlock cipher.cipher held.stream.direction held.stream.chain read world with
      | mk reply middle =>
          obtain ⟨result, block, next⟩ := reply
          rw [once, first, readSize, processed] at sliced
          rw [first] at lengths
          cases result with
          | error error =>
              rw [cryptFront_of_error whole first] at answered
              cases answered
              refine ⟨scratch, ?_, scratchSize, lengths.2.trans sound.length_chain⟩
              rw [cryptFrontGuarded, bind_of_ok sliced]
              rfl
          | ok _ =>
              have blockSize : block.length = cipher.cipher.blockSize :=
                lengths.1.trans sound.length_chain
              rw [cryptFront_of_ok whole first] at answered
              cases answered
              have stays : Held.Sound cipher.cipher.blockSize
                  { stream := { held.stream with chain := next }, scratch } :=
                ⟨lengths.2.trans sound.length_chain, scratchSize⟩
              obtain ⟨last, later, lastSize, chainSize⟩ :=
                ih middle (front ++ block) more stays (by omega) rfl
              rw [List.length_append, blockSize, List.append_assoc] at later
              refine ⟨last, ?_, lastSize, chainSize⟩
              rw [cryptFrontGuarded, bind_of_ok sliced]
              simp only [List.nil_append, later, processed, List.append_assoc]

/-! ## Whole calls -/

theorem Held.Sound.refusal?_eq_none_iff {held : Held} {size : Nat} (sound : held.Sound size)
    {input : Bytes} :
    held.stream.refusal? input = none ↔ 0 < size ∧ input.length % size = 0 := by
  have blocks : held.stream.blockSize = size := sound.length_chain
  unfold refusal?
  rw [blocks]
  split
  · simp_all
  · split
    · simp_all
    · simp_all [Nat.pos_iff_ne_zero]

/-- Both checks on the input come before anything else. -/
theorem cryptInPlaceGuarded_of_refusal {precondition : Precondition}
    (refused : frame.kept.stream.refusal? frame.buffer = some precondition) :
    cryptInPlaceGuarded cipher frame = (.error precondition.panic, frame) := by
  unfold refusal? at refused
  split at refused
  · rename_i empty
    cases refused
    simp only [cryptInPlaceGuarded, bind_apply, kept, buffer, step, Panic.remainder, if_pos empty]
    rfl
  · rename_i nonempty
    split at refused
    · rename_i uneven
      cases refused
      simp only [cryptInPlaceGuarded, bind_apply, kept, buffer, step, Panic.remainder,
        if_neg nonempty, require_of_not uneven]
      rfl
    · cases refused

theorem cryptInPlaceGuarded_of_proper (frame : Frame τ Held)
    (sound : frame.kept.Sound cipher.cipher.blockSize)
    (proper : frame.kept.stream.refusal? frame.buffer = none) :
    ∃ result next, cryptInPlaceGuarded cipher frame = (.ok result, next) ∧
      cryptInPlace cipher.cipher frame.kept.stream frame.buffer frame.world =
        ((result.mapError .error, next.buffer, next.kept.stream), next.world) ∧
      next.kept.Sound cipher.cipher.blockSize := by
  obtain ⟨positive, whole⟩ := sound.refusal?_eq_none_iff.mp proper
  have blocks : frame.kept.stream.blockSize = cipher.cipher.blockSize := sound.length_chain
  have enough : frame.buffer.length / cipher.cipher.blockSize * cipher.cipher.blockSize ≤
      frame.buffer.length := Nat.div_mul_le_self _ _
  cases answered : cryptFront cipher.cipher frame.kept.stream.direction
      (frame.buffer.length / cipher.cipher.blockSize) frame.kept.stream.chain frame.buffer
      frame.world with
  | mk reply world =>
      obtain ⟨scratch, done, scratchSize, chainSize⟩ :=
        cryptFrontGuarded_eq frame.world [] frame.buffer sound enough answered
      refine ⟨reply.1, (processed frame.kept scratch [] (reply, world)).2, ?_, ?_,
        ⟨chainSize, scratchSize⟩⟩
      · simp only [cryptInPlaceGuarded, bind_apply, kept, buffer, step, blocks,
          Panic.remainder_of_pos positive, require_of_holds whole, Panic.quotient_of_pos positive]
        exact done
      · simp only [cryptInPlace, proper, bind, StateT.bind, blocks, answered]
        rfl

theorem cryptGuarded_of_refusal {precondition : Precondition} {source : Bytes}
    (refused : frame.kept.stream.refusal? source = some precondition) :
    cryptGuarded cipher source frame = (.error precondition.panic, frame) := by
  unfold refusal? at refused
  split at refused
  · rename_i empty
    cases refused
    simp only [cryptGuarded, bind_apply, kept, step, Panic.remainder, if_pos empty]
    rfl
  · rename_i nonempty
    split at refused
    · rename_i uneven
      cases refused
      simp only [cryptGuarded, bind_apply, kept, step, Panic.remainder, if_neg nonempty,
        require_of_not uneven]
      rfl
    · cases refused

theorem cryptGuarded_of_short {source : Bytes} (sound : frame.kept.Sound cipher.cipher.blockSize)
    (proper : frame.kept.stream.refusal? source = none)
    (short : ¬ source.length ≤ frame.buffer.length) :
    cryptGuarded cipher source frame =
      (.error (.broken .destinationHoldsSource), frame) := by
  obtain ⟨positive, whole⟩ := sound.refusal?_eq_none_iff.mp proper
  have blocks : frame.kept.stream.blockSize = cipher.cipher.blockSize := sound.length_chain
  simp only [cryptGuarded, bind_apply, kept, buffer, step, blocks,
    Panic.remainder_of_pos positive, require_of_holds whole, require_of_not short]

theorem cryptGuarded_of_proper {source : Bytes} (sound : frame.kept.Sound cipher.cipher.blockSize)
    (proper : frame.kept.stream.refusal? source = none)
    (room : source.length ≤ frame.buffer.length) :
    ∃ result next, cryptGuarded cipher source frame = (.ok result, next) ∧
      crypt cipher.cipher frame.kept.stream source frame.buffer frame.world =
        ((result.mapError .error, next.buffer, next.kept.stream), next.world) ∧
      next.kept.Sound cipher.cipher.blockSize := by
  obtain ⟨positive, whole⟩ := sound.refusal?_eq_none_iff.mp proper
  obtain ⟨world, destination, held⟩ := frame
  simp only at sound proper room
  have blocks : held.stream.blockSize = cipher.cipher.blockSize := sound.length_chain
  obtain ⟨middle, rest, rfl, size⟩ : ∃ middle rest : Bytes,
      destination = middle ++ rest ∧ middle.length = source.length :=
    ⟨_, _, (List.take_append_drop _ destination).symm, List.length_take_of_le room⟩
  obtain ⟨result, next, done, same, stays⟩ :=
    cryptInPlaceGuarded_of_proper ⟨world, source, held⟩ sound proper
  have sliced := onSlice_append (do
      let target ← step (Panic.copied (← buffer) source)
      update fun _ => target
      cryptInPlaceGuarded cipher) world [] middle rest held
  simp only [bind_apply, buffer, step, Panic.copied_of_length size.symm, update, done, size,
    List.nil_append, List.length_nil, Nat.zero_add] at sliced
  refine ⟨result, { next with buffer := next.buffer ++ rest }, ?_, ?_, stays⟩
  · simp only [cryptGuarded, bind_apply, kept, buffer, step, blocks,
      Panic.remainder_of_pos positive, require_of_holds whole, require_of_holds room]
    exact sliced
  · simp only [crypt, proper, if_neg (Nat.not_lt_of_le room), bind, StateT.bind, same,
      List.drop_left' size]
    rfl

/-! ## Panics -/

theorem cryptInPlaceGuarded_documented (sound : frame.kept.Sound cipher.cipher.blockSize) :
    Documented (cryptInPlaceGuarded cipher) Held.stream
      (fun buffer stream => cryptInPlace cipher.cipher stream buffer)
      (fun buffer _ =>
        cipher.cipher.blockSize = 0 ∨ buffer.length % cipher.cipher.blockSize ≠ 0) frame := by
  cases refused : frame.kept.stream.refusal? frame.buffer with
  | none =>
      obtain ⟨positive, whole⟩ := sound.refusal?_eq_none_iff.mp refused
      obtain ⟨result, next, done, same, -⟩ := cryptInPlaceGuarded_of_proper frame sound refused
      exact .of_answer (by omega) done same
  | some precondition =>
      have improper : ¬ (0 < cipher.cipher.blockSize ∧
          frame.buffer.length % cipher.cipher.blockSize = 0) := by
        rw [← sound.refusal?_eq_none_iff, refused]
        exact nofun
      apply Documented.of_refusal precondition (by omega)
        (cryptInPlaceGuarded_of_refusal refused)
      simp only [cryptInPlace, refused]
      rfl

theorem cryptGuarded_documented (sound : frame.kept.Sound cipher.cipher.blockSize)
    (source : Bytes) :
    Documented (cryptGuarded cipher source) Held.stream
      (fun destination stream => crypt cipher.cipher stream source destination)
      (fun destination _ =>
        cipher.cipher.blockSize = 0 ∨ source.length % cipher.cipher.blockSize ≠ 0 ∨
          destination.length < source.length) frame := by
  cases refused : frame.kept.stream.refusal? source with
  | none =>
      obtain ⟨positive, whole⟩ := sound.refusal?_eq_none_iff.mp refused
      by_cases room : source.length ≤ frame.buffer.length
      · obtain ⟨result, next, done, same, -⟩ := cryptGuarded_of_proper sound refused room
        exact .of_answer (by omega) done same
      · apply Documented.of_refusal .destinationHoldsSource (by omega)
          (cryptGuarded_of_short sound refused room)
        simp only [crypt, refused, if_pos (Nat.lt_of_not_le room)]
        rfl
  | some precondition =>
      have improper : ¬ (0 < cipher.cipher.blockSize ∧
          source.length % cipher.cipher.blockSize = 0) := by
        rw [← sound.refusal?_eq_none_iff, refused]
        exact nofun
      apply Documented.of_refusal precondition (by omega) (cryptGuarded_of_refusal refused)
      simp only [crypt, refused]
      rfl

end

section

variable {cipher : GuardedCipher τ}

theorem startGuarded_documented (size : Nat) (direction : Direction) (iv : Bytes)
    (frame : Frame τ Unit) :
    (startGuarded size direction iv frame).1 =
        (match start size direction iv with
          | .ok stream => .ok { stream, scratch := Bytes.zeros size }
          | .error precondition => .error precondition.panic) ∧
      ((∃ panic, (startGuarded size direction iv frame).1 = .error panic) ↔ iv.length ≠ size) ∧
      (startGuarded size direction iv frame).2 = frame := by
  by_cases agreed : iv.length = size
  · simp only [startGuarded, start, bind_apply, require_of_holds agreed, if_pos agreed, pure_apply]
    exact ⟨trivial, by simp [agreed], trivial⟩
  · simp only [startGuarded, start, bind_apply, require_of_not agreed, if_neg agreed]
    exact ⟨rfl, by simp [agreed], trivial⟩

theorem restartGuarded_of_block {iv : Bytes} {frame : Frame τ Held}
    (same : iv.length = frame.kept.stream.blockSize) :
    restartGuarded iv frame =
      (.ok (), { frame with
        kept := { frame.kept with stream := { frame.kept.stream with chain := iv } } }) := by
  have copied : Panic.copied frame.kept.stream.chain iv = .ok iv := Panic.copied_of_length same
  simp only [restartGuarded, bind_apply, kept, require_of_holds same, step, copied, keep]

theorem restartGuarded_of_other {iv : Bytes} {frame : Frame τ Held}
    (other : iv.length ≠ frame.kept.stream.blockSize) :
    restartGuarded iv frame = (.error (.broken .chainIsBlock), frame) := by
  simp only [restartGuarded, bind_apply, kept, require_of_not other]

theorem restartGuarded_documented (iv : Bytes) (frame : Frame τ Held)
    (sound : frame.kept.Sound cipher.cipher.blockSize) :
    Documented (do restartGuarded iv; return .ok ()) Held.stream
      (fun buffer stream state =>
        match stream.restart iv with
        | .ok next => ((.ok (), buffer, next), state)
        | .error precondition => ((.error (.broken precondition), buffer, stream), state))
      (fun _ _ => iv.length ≠ cipher.cipher.blockSize) frame := by
  have blocks : frame.kept.stream.blockSize = cipher.cipher.blockSize := sound.length_chain
  rw [← blocks]
  by_cases same : iv.length = frame.kept.stream.blockSize
  · apply Documented.of_answer (not_not_intro same)
    · rw [bind_of_ok (restartGuarded_of_block same)]
      rfl
    · simp only [restart, if_pos same]
      rfl
  · apply Documented.of_refusal .chainIsBlock same
    · rw [bind_of_panic (restartGuarded_of_other same)]
      rfl
    · simp only [restart, if_neg same]

/-- The streams over a cipher, after any calls. -/
inductive Held.Reached (cipher : GuardedCipher τ) : Held → Prop
  | started {frame next : Frame τ Unit} {direction : Direction} {iv : Bytes} {held : Held} :
      startGuarded cipher.cipher.blockSize direction iv frame = (.ok held, next) →
      Reached cipher held
  | restarted {frame : Frame τ Held} (iv : Bytes) :
      Reached cipher frame.kept → Reached cipher (restartGuarded iv frame).2.kept
  | crypted {frame : Frame τ Held} (source : Bytes) :
      Reached cipher frame.kept → Reached cipher (cryptGuarded cipher source frame).2.kept
  | cryptedInPlace {frame : Frame τ Held} :
      Reached cipher frame.kept → Reached cipher (cryptInPlaceGuarded cipher frame).2.kept

theorem Held.Reached.sound {held : Held} (reached : held.Reached cipher) :
    held.Sound cipher.cipher.blockSize := by
  induction reached with
  | @started frame next direction iv held done =>
      by_cases agreed : iv.length = cipher.cipher.blockSize
      · simp only [startGuarded, bind_apply, require_of_holds agreed, pure_apply] at done
        cases done
        exact ⟨agreed, Bytes.length_zeros _⟩
      · simp only [startGuarded, bind_apply, require_of_not agreed] at done
        cases done
  | @restarted frame iv _ sound =>
      by_cases same : iv.length = frame.kept.stream.blockSize
      · rw [restartGuarded_of_block same]
        exact ⟨same.trans sound.length_chain, sound.length_scratch⟩
      · rwa [restartGuarded_of_other same]
  | @crypted frame source _ sound =>
      cases refused : frame.kept.stream.refusal? source with
      | some precondition => rwa [cryptGuarded_of_refusal refused]
      | none =>
          by_cases room : source.length ≤ frame.buffer.length
          · obtain ⟨result, next, done, -, stays⟩ := cryptGuarded_of_proper sound refused room
            rwa [done]
          · rwa [cryptGuarded_of_short sound refused room]
  | @cryptedInPlace frame _ sound =>
      cases refused : frame.kept.stream.refusal? frame.buffer with
      | some precondition => rwa [cryptInPlaceGuarded_of_refusal refused]
      | none =>
          obtain ⟨result, next, done, -, stays⟩ :=
            cryptInPlaceGuarded_of_proper frame sound refused
          rwa [done]

end

end CipherModes.Cbc
