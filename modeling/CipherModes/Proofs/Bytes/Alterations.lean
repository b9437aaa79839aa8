import CipherModes.Bytes
import Mathlib.Data.List.Basic

/-!
# Altered byte strings

Two lists that are alike but for one entry, be it a byte of a string or a block of a
text, and the smallest alteration of a string: one bit of it flipped.
-/

set_option autoImplicit false

namespace CipherModes

variable {α : Type}

/-- Lists that are alike but for one entry. -/
inductive DifferOnce : List α → List α → Prop where
  | here {left right : α} (rest : List α) : left ≠ right →
      DifferOnce (left :: rest) (right :: rest)
  | later (entry : α) {left right : List α} : DifferOnce left right →
      DifferOnce (entry :: left) (entry :: right)

namespace DifferOnce

variable {left right : List α}

/-- Lists of one length that are not the same at just one place. -/
theorem of_place (length : left.length = right.length)
    (once : ∃! place : Nat, left[place]? ≠ right[place]?) : DifferOnce left right := by
  obtain ⟨place, apart, only⟩ := once
  induction left generalizing right place with
  | nil =>
      have none : right = [] := List.eq_nil_of_length_eq_zero length.symm
      exact absurd (none ▸ rfl) apart
  | cons first left ih =>
      cases right with
      | nil => cases length
      | cons second right =>
          have same : ∀ other, other + 1 ≠ place → left[other]? = right[other]? :=
            fun other elsewhere => by_contra fun different => elsewhere (only (other + 1) different)
          cases place with
          | zero =>
              have rest : left = right := List.ext_getElem? fun other => same other nofun
              rw [rest]
              exact here right fun equal => apart (congrArg some equal)
          | succ place =>
              have equal : first = second := by
                by_contra different
                exact absurd (only 0 fun sameHead => different (Option.some.inj sameHead)) nofun
              rw [equal]
              apply later second
              exact ih (Nat.succ.inj length) place apart fun other different =>
                Nat.succ.inj (only (other + 1) different)

theorem symm (differ : DifferOnce left right) : DifferOnce right left := by
  induction differ with
  | here rest apart => exact here rest apart.symm
  | later entry _ ih => exact later entry ih

theorem length_eq (differ : DifferOnce left right) : left.length = right.length := by
  induction differ with
  | here rest _ => rfl
  | later entry _ ih => exact congrArg Nat.succ ih

theorem ne (differ : DifferOnce left right) : left ≠ right := by
  induction differ with
  | here rest apart => exact fun same => apart (List.cons.inj same).1
  | later entry _ ih => exact fun same => ih (List.cons.inj same).2

theorem append_right (differ : DifferOnce left right) (rest : List α) :
    DifferOnce (left ++ rest) (right ++ rest) := by
  induction differ with
  | here between apart => exact here (between ++ rest) apart
  | later entry _ ih => exact later entry ih

theorem append_left (front : List α) (differ : DifferOnce left right) :
    DifferOnce (front ++ left) (front ++ right) := by
  induction front with
  | nil => exact differ
  | cons entry front ih => exact later entry ih

/-- The entry lies before a cut or after it. -/
theorem split (differ : DifferOnce left right) (count : Nat) :
    DifferOnce (left.take count) (right.take count) ∧ left.drop count = right.drop count ∨
      left.take count = right.take count ∧ DifferOnce (left.drop count) (right.drop count) := by
  induction differ generalizing count with
  | here rest apart =>
      cases count with
      | zero => exact .inr ⟨rfl, here rest apart⟩
      | succ count => exact .inl ⟨here (rest.take count) apart, rfl⟩
  | later entry differ ih =>
      cases count with
      | zero => exact .inr ⟨rfl, later entry differ⟩
      | succ count =>
          obtain ⟨before, same⟩ | ⟨same, after⟩ := ih count
          · exact .inl ⟨later entry before, same⟩
          · exact .inr ⟨congrArg (entry :: ·) same, after⟩

theorem modify {change : α → α} (changes : ∀ entry, entry ≠ change entry) {entries : List α}
    {place : Nat} (inside : place < entries.length) :
    DifferOnce entries (entries.modify place change) := by
  induction entries generalizing place with
  | nil => exact absurd inside (Nat.not_lt_zero place)
  | cons first rest ih =>
      cases place with
      | zero => exact here rest (changes first)
      | succ place => exact later first (ih (Nat.lt_of_succ_lt_succ inside))

end DifferOnce

namespace Bytes

/-- Flips one bit of a string, counted from the lowest of the first byte. -/
def flipBit (place : Nat) (bytes : Bytes) : Bytes :=
  bytes.modify (place / 8) (· ^^^ (1 <<< UInt8.ofNat (place % 8)))

theorem differOnce_flipBit {place : Nat} {bytes : Bytes} (inside : place < 8 * bytes.length) :
    DifferOnce bytes (flipBit place bytes) := by
  have masks : ∀ bit < 8, (1 : UInt8) <<< UInt8.ofNat bit ≠ 0 := by decide
  have mask := masks (place % 8) (Nat.mod_lt place (by decide))
  apply DifferOnce.modify
  · intro byte same
    apply mask
    rwa [← UInt8.xor_right_inj byte, UInt8.xor_zero, eq_comm]
  · exact Nat.div_lt_of_lt_mul inside

end Bytes

end CipherModes
