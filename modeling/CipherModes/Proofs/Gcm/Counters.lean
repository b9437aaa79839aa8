import CipherModes.Proofs.Bytes.Numbers
import CipherModes.Proofs.Gcm.Blockwise
import CipherModes.RotatingCipher
import Mathlib.Data.List.Iterate
import Mathlib.Data.List.Nodup

/-!
# Counter blocks

The counters of a message follow its pre-counter block: the last four bytes count
upwards and wrap, the others stay. The longest message has two blocks less than
there are counters, so none comes twice and none is the pre-counter block. Under
a nonce of twelve bytes the count starts at one and never comes to zero either.

What a cipher is given is told by a record of its calls, whether they succeed or
not.
-/

set_option autoImplicit false

namespace CipherModes

variable {σ : Type}

/-- Transforms as the given cipher and keeps the calls made so far, in order, each with the
source that it was given. -/
def BlockCipher.recorded (cipher : BlockCipher σ) :
    BlockCipher (σ × List (Direction × Bytes)) where
  blockSize := cipher.blockSize
  transform direction source destination := fun (state, calls) =>
    let (answer, next) := cipher.transform direction source destination state
    (answer, next, calls ++ [(direction, source)])
  keepsLength direction source destination state :=
    cipher.keepsLength direction source destination state.1

namespace Gcm

variable {block left right : Bytes}

/-! ## Counting up -/

/-- Counting is addition to the last four bytes. -/
theorem iterate_increment (whole : block.length = blockSize) (count : Nat) :
    increment^[count] block =
      block.take 12 ++ Bytes.bigEndian 4 (Bytes.ofBigEndian (block.drop 12) + count) := by
  induction count with
  | zero =>
      have low : (block.drop 12).length = 4 := by
        rw [List.length_drop, whole]
        rfl
      have kept := Bytes.bigEndian_ofBigEndian (block.drop 12)
      rw [low] at kept
      rw [Function.iterate_zero_apply, Nat.add_zero, kept, List.take_append_drop]
  | succ count ih =>
      have front : (block.take 12).length = 12 := by
        rw [List.length_take, whole]
        rfl
      have carried : ∀ value, Bytes.bigEndian 4 (value % Bytes.capacity 4 + 1) =
          Bytes.bigEndian 4 (value + 1) :=
        fun value => Bytes.bigEndian_eq_iff.mpr (Nat.mod_add_mod _ _ _)
      rw [Function.iterate_succ_apply', ih, increment, List.take_left' front,
        List.drop_left' front, Bytes.ofBigEndian_bigEndian, carried, Nat.add_assoc]

/-- Two counters are the same block only if their fronts and their counts are. -/
theorem iterate_increment_eq_iff (leftWhole : left.length = blockSize)
    (rightWhole : right.length = blockSize) {first second : Nat} :
    increment^[first] left = increment^[second] right ↔
      left.take 12 = right.take 12 ∧
        (Bytes.ofBigEndian (left.drop 12) + first) % 2 ^ 32 =
          (Bytes.ofBigEndian (right.drop 12) + second) % 2 ^ 32 := by
  have fronts : (left.take 12).length = (right.take 12).length := by
    rw [List.length_take, List.length_take, leftWhole, rightWhole]
  have capacity : Bytes.capacity 4 = 2 ^ 32 := by decide
  rw [iterate_increment leftWhole, iterate_increment rightWhole, ← capacity,
    ← Bytes.bigEndian_eq_iff]
  exact ⟨fun same => List.append_inj same fronts, fun same => congrArg₂ _ same.1 same.2⟩

/-- As long as the count does not come round, no counter comes twice. -/
theorem nodup_iterate_increment (whole : block.length = blockSize) {count : Nat}
    (few : count ≤ 2 ^ 32) : (List.iterate increment block count).Nodup := by
  rw [← List.range_map_iterate]
  apply List.Nodup.map_on _ List.nodup_range
  intro first firstBelow second secondBelow same
  rw [List.mem_range] at firstBelow secondBelow
  have counts := ((iterate_increment_eq_iff whole whole).mp same).2
  omega

section

variable {nonce other : Bytes}

theorem preCounter_of_standard (hashKey : Bytes) (standard : nonce.length = standardNonceSize) :
    preCounter hashKey nonce = nonce ++ Bytes.bigEndian 4 1 := by
  rw [preCounter, if_pos standard, standardCounter]

/-- Under a standard nonce the count starts at one. -/
theorem parts_of_standard (hashKey : Bytes) (standard : nonce.length = standardNonceSize) :
    (preCounter hashKey nonce).take 12 = nonce ∧
      Bytes.ofBigEndian ((preCounter hashKey nonce).drop 12) = 1 := by
  have twelve : nonce.length = 12 := standard
  rw [preCounter_of_standard hashKey standard, List.take_left' twelve, List.drop_left' twelve]
  exact ⟨rfl, by decide⟩

theorem zeros_not_mem_counters (hashKey : Bytes) (standard : nonce.length = standardNonceSize)
    {count : Nat} (few : count < 2 ^ 32) :
    Bytes.zeros blockSize ∉ List.iterate increment (preCounter hashKey nonce) count := by
  intro member
  obtain ⟨steps, below, same⟩ := List.mem_iterate.mp member
  have reached : increment^[0] (Bytes.zeros blockSize) =
      increment^[steps] (preCounter hashKey nonce) := same
  have low := (parts_of_standard hashKey standard).2
  have counts := ((iterate_increment_eq_iff (Bytes.length_zeros _)
    (length_preCounter hashKey nonce)).mp reached).2
  rw [low, show Bytes.ofBigEndian ((Bytes.zeros blockSize).drop 12) = 0 by decide] at counts
  omega

theorem disjoint_counters (hashKey : Bytes) (standard : nonce.length = standardNonceSize)
    (otherStandard : other.length = standardNonceSize) (distinct : nonce ≠ other)
    (count otherCount : Nat) :
    (List.iterate increment (preCounter hashKey nonce) count).Disjoint
      (List.iterate increment (preCounter hashKey other) otherCount) := by
  intro block member otherMember
  obtain ⟨steps, -, reached⟩ := List.mem_iterate.mp member
  obtain ⟨otherSteps, -, otherReached⟩ := List.mem_iterate.mp otherMember
  have fronts := ((iterate_increment_eq_iff (length_preCounter hashKey nonce)
    (length_preCounter hashKey other)).mp (reached.symm.trans otherReached)).1
  rw [(parts_of_standard hashKey standard).1, (parts_of_standard hashKey otherStandard).1] at fronts
  exact distinct fronts

end

/-! ## What the cipher is given -/

variable {σ : Type}

/-- The record changes no answer. It grows by the next counters, one for each piece, up to the
first call that fails. -/
theorem addKeystream_recorded (cipher : BlockCipher σ) (counter keystream : Bytes)
    (pieces : List Bytes) (state : σ) (calls : List (Direction × Bytes)) :
    ∃ count ≤ pieces.length,
      addKeystream cipher.recorded counter keystream pieces (state, calls) =
        ((addKeystream cipher counter keystream pieces state).1,
          (addKeystream cipher counter keystream pieces state).2,
          calls ++ (List.iterate increment (increment counter) count).map (.encrypt, ·)) ∧
      ((addKeystream cipher counter keystream pieces state).1.1 = .ok () →
        count = pieces.length) := by
  induction pieces generalizing counter keystream state calls with
  | nil =>
      refine ⟨0, Nat.le_refl _, ?_, fun _ => rfl⟩
      rw [List.iterate, List.map_nil, List.append_nil]
      rfl
  | cons piece rest ih =>
      cases called : cipher.transform .encrypt (increment counter) keystream state with
      | mk answer next =>
          obtain ⟨result, output⟩ := answer
          have noted : cipher.recorded.transform .encrypt (increment counter) keystream
              (state, calls) =
                ((result, output), next, calls ++ [(.encrypt, increment counter)]) := by
            simp only [BlockCipher.recorded, called]
          cases result with
          | error error =>
              refine ⟨1, Nat.succ_le_succ (Nat.zero_le _), ?_, ?_⟩
              · rw [addKeystream_of_error called, addKeystream_of_error noted]
                rfl
              · rw [addKeystream_of_error called]
                nofun
          | ok _ =>
              obtain ⟨count, few, later, all⟩ := ih (increment counter) output next
                (calls ++ [(.encrypt, increment counter)])
              refine ⟨count + 1, Nat.succ_le_succ few, ?_, ?_⟩
              · rw [addKeystream_of_ok called, addKeystream_of_ok noted, later, List.append_assoc]
                rfl
              · rw [addKeystream_of_ok called]
                exact fun success => congrArg (· + 1) (all success)

/-- The blocks that a cipher is given for a message, whatever comes of the calls. -/
def blocksGiven (cipher : BlockCipher σ) (counter message : Bytes) (state : σ) : List Bytes :=
  (cryptMessage cipher.recorded counter message (state, [])).2.2.map Prod.snd

theorem blocksGiven_eq (cipher : BlockCipher σ) (counter message : Bytes) (state : σ) :
    ∃ count ≤ (message.length + 15) / 16,
      blocksGiven cipher counter message state =
        List.iterate increment (increment counter) count ∧
      ((cryptMessage cipher counter message state).1.1 = .ok () →
        count = (message.length + 15) / 16) := by
  have pieces : (Bytes.chunks blockSize message).length = (message.length + 15) / 16 :=
    Bytes.length_chunks ..
  obtain ⟨count, few, recorded, all⟩ := addKeystream_recorded cipher counter
    (Bytes.zeros blockSize) (Bytes.chunks blockSize message) state []
  rw [pieces] at few all
  refine ⟨count, few, ?_, all⟩
  rw [blocksGiven, cryptMessage, recorded, List.nil_append, List.map_map]
  exact List.map_id _

/-- The pre-counter block of a message, which masks its tag, and the blocks that its keystream is
made from. -/
def blocksUsed (cipher : BlockCipher σ) (hashKey nonce message : Bytes) (state : σ) : List Bytes :=
  preCounter hashKey nonce :: blocksGiven cipher (preCounter hashKey nonce) message state

theorem blocksUsed_eq (cipher : BlockCipher σ) (hashKey nonce : Bytes) {message : Bytes}
    (fits : message.length ≤ maxPlaintext) (state : σ) :
    ∃ count < 2 ^ 32, blocksUsed cipher hashKey nonce message state =
      List.iterate increment (preCounter hashKey nonce) count := by
  have limit : maxPlaintext = (2 ^ 32 - 2) * 16 := by decide
  obtain ⟨count, few, given, -⟩ :=
    blocksGiven_eq cipher (preCounter hashKey nonce) message state
  refine ⟨count + 1, by omega, ?_⟩
  rw [blocksUsed, given]
  rfl

/-- Whatever the pre-counter block, the cipher may fail at any call. Under nonces of twelve bytes
any number of messages may be crypted, each from a state of its own. -/
theorem keystream_is_never_reused :
    (∀ {σ : Type} (cipher : BlockCipher σ) (counter message : Bytes) (state : σ),
      counter.length = blockSize → message.length ≤ maxPlaintext →
        (counter :: blocksGiven cipher counter message state).Nodup ∧
        ((cryptMessage cipher counter message state).1.1 = .ok () →
          (blocksGiven cipher counter message state).length = (message.length + 15) / 16)) ∧
    ∀ {σ ι : Type} (cipher : BlockCipher σ) (hashKey : Bytes) (nonce message : ι → Bytes)
      (state : ι → σ), (∀ index, (nonce index).length = standardNonceSize) →
      nonce.Injective → (∀ index, (message index).length ≤ maxPlaintext) →
        (∀ index,
          (blocksUsed cipher hashKey (nonce index) (message index) (state index)).Nodup ∧
          Bytes.zeros blockSize ∉
            blocksUsed cipher hashKey (nonce index) (message index) (state index)) ∧
        Pairwise fun first second =>
          (blocksUsed cipher hashKey (nonce first) (message first) (state first)).Disjoint
            (blocksUsed cipher hashKey (nonce second) (message second) (state second)) := by
  have limit : maxPlaintext = (2 ^ 32 - 2) * 16 := by decide
  constructor
  · intro σ cipher counter message state whole fits
    obtain ⟨count, few, given, all⟩ := blocksGiven_eq cipher counter message state
    rw [given]
    have inTime : count + 1 ≤ 2 ^ 32 := by omega
    exact ⟨nodup_iterate_increment whole inTime,
      fun success => (List.length_iterate _ _ _).trans (all success)⟩
  · intro σ ι cipher hashKey nonce message state standard distinct fits
    constructor
    · intro index
      obtain ⟨count, few, used⟩ :=
        blocksUsed_eq cipher hashKey (nonce index) (fits index) (state index)
      rw [used]
      exact ⟨nodup_iterate_increment (length_preCounter _ _) (Nat.le_of_lt few),
        zeros_not_mem_counters hashKey (standard index) few⟩
    · intro first second apart
      obtain ⟨count, -, used⟩ :=
        blocksUsed_eq cipher hashKey (nonce first) (fits first) (state first)
      obtain ⟨otherCount, -, otherUsed⟩ :=
        blocksUsed_eq cipher hashKey (nonce second) (fits second) (state second)
      rw [used, otherUsed]
      exact disjoint_counters hashKey (standard first) (standard second)
        (fun same => apart (distinct same)) count otherCount

/-- A count that comes round within the message, over a cipher that fails at its second call, and
two messages whose nonces differ in one bit. -/
theorem keystream_is_never_reused_when_count_wraps :
    (List.replicate 16 0xff :: blocksGiven (RotatingCipher.blockCipher ⟨16, 7, [2]⟩)
      (List.replicate 16 0xff) (Bytes.zeros 33) 0).Nodup ∧
    (blocksUsed (RotatingCipher.blockCipher ⟨16, 7, [2]⟩) [] (Bytes.zeros 12) (Bytes.zeros 33)
      0).Disjoint
        (blocksUsed (RotatingCipher.blockCipher ⟨16, 7, [2]⟩) [] (Bytes.zeros 11 ++ [1])
          (Bytes.zeros 40) 5) := by
  obtain ⟨alone, together⟩ := keystream_is_never_reused
  have wraps := alone (RotatingCipher.blockCipher ⟨16, 7, [2]⟩) (List.replicate 16 0xff)
    (Bytes.zeros 33) 0 (by decide) (by decide)
  have pair := together (ι := Bool) (RotatingCipher.blockCipher ⟨16, 7, [2]⟩) []
    (fun second => if second then Bytes.zeros 11 ++ [1] else Bytes.zeros 12)
    (fun second => if second then Bytes.zeros 40 else Bytes.zeros 33)
    (fun second => if second then 5 else 0) (by decide)
    (by intro first second; cases first <;> cases second <;> decide) (by decide)
  exact ⟨wraps.1, pair.2 (show false ≠ true by decide)⟩

end Gcm

end CipherModes
