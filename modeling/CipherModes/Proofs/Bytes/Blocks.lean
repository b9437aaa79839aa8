import CipherModes.Bytes

/-!
# Byte strings by their blocks

A byte string is empty or a first block and a rest; that block is short only if
nothing is left after it. A list of blocks of one size is told by the string that
they make.
-/

set_option autoImplicit false

namespace CipherModes.Bytes

variable {size : Nat} {bytes : Bytes}

theorem xor_xor_cancel {message key : Bytes} (covered : message.length ≤ key.length) :
    xor (xor message key) key = message := by
  induction message generalizing key with
  | nil => rfl
  | cons byte rest ih =>
      cases key with
      | nil => cases covered
      | cons keyByte keyRest =>
          have shorter : rest.length ≤ keyRest.length := Nat.le_of_succ_le_succ covered
          have same : byte ^^^ keyByte ^^^ keyByte = byte := by
            rw [UInt8.xor_assoc, UInt8.xor_self, UInt8.xor_zero]
          change (byte ^^^ keyByte ^^^ keyByte) :: xor (xor rest keyRest) keyRest = byte :: rest
          rw [same, ih shorter]

theorem xor_comm (left right : Bytes) : xor left right = xor right left :=
  List.zipWith_comm_of_comm UInt8.xor_comm

/-- A mask that reaches as far as the messages keeps them apart. -/
theorem xor_right_inj {mask left right : Bytes} (leftCovered : left.length ≤ mask.length)
    (rightCovered : right.length ≤ mask.length) :
    xor mask left = xor mask right ↔ left = right := by
  constructor
  · intro same
    rw [← xor_xor_cancel leftCovered, xor_comm left, same, xor_comm mask,
      xor_xor_cancel rightCovered]
  · exact congrArg (xor mask)

theorem take_overlay {value buffer : Bytes} (same : value.length = buffer.length) :
    (overlay value buffer).take buffer.length = value := by
  rw [overlay, ← same, List.take_left]

theorem chunks_nil (positive : 0 < size) : chunks size [] = [] := by
  have none : (0 + size - 1) / size = 0 := Nat.div_eq_of_lt (by omega)
  rw [chunks, List.length_nil, none]
  rfl

theorem chunks_of_ne_nil (positive : 0 < size) (nonempty : bytes ≠ []) :
    chunks size bytes = bytes.take size :: chunks size (bytes.drop size) := by
  have some : 0 < bytes.length := List.length_pos_iff.mpr nonempty
  have count : (bytes.length + size - 1) / size =
      ((bytes.drop size).length + size - 1) / size + 1 := by
    rw [List.length_drop]
    by_cases last : bytes.length ≤ size
    · rw [Nat.sub_eq_zero_of_le last, Nat.div_eq_of_lt (show 0 + size - 1 < size by omega),
        show bytes.length + size - 1 = bytes.length - 1 + size by omega,
        Nat.add_div_right _ positive, Nat.div_eq_of_lt (show bytes.length - 1 < size by omega)]
    · rw [← Nat.add_div_right _ positive]
      congr 1
      omega
  rw [chunks, count]
  rfl

/-- A property of the empty string passes to every string if it passes from the
rest after a first block. -/
theorem block_induction {motive : Bytes → Prop} (positive : 0 < size) (nil : motive [])
    (block : ∀ bytes, bytes ≠ [] → motive (bytes.drop size) → motive bytes) (bytes : Bytes) :
    motive bytes := by
  by_cases empty : bytes = []
  · rw [empty]
    exact nil
  · have some : 0 < bytes.length := List.length_pos_iff.mpr empty
    exact block bytes empty (block_induction positive nil block (bytes.drop size))
termination_by bytes.length
decreasing_by
  rw [List.length_drop]
  omega

/-! ## Lists of blocks -/

/-- All blocks have one size. -/
def Uniform (size : Nat) (blocks : List Bytes) : Prop :=
  ∀ block ∈ blocks, block.length = size

theorem uniform_append {first last : List Bytes} :
    Uniform size (first ++ last) ↔ Uniform size first ∧ Uniform size last :=
  List.forall_mem_append

namespace Uniform

variable {blocks : List Bytes}

theorem length_flatten (uniform : Uniform size blocks) :
    blocks.flatten.length = size * blocks.length := by
  induction blocks with
  | nil => rfl
  | cons block rest ih =>
      have first := uniform block List.mem_cons_self
      have later := ih fun other member => uniform other (List.mem_cons_of_mem _ member)
      rw [List.flatten_cons, List.length_append, first, later, List.length_cons, Nat.mul_succ,
        Nat.add_comm]

theorem length_getLastD {chain : Bytes} (uniform : Uniform size blocks)
    (chainSize : chain.length = size) : (blocks.getLastD chain).length = size := by
  induction blocks generalizing chain with
  | nil => exact chainSize
  | cons block rest ih =>
      rw [List.getLastD_cons]
      exact ih (fun other member => uniform other (List.mem_cons_of_mem _ member))
        (uniform block List.mem_cons_self)

/-- A text that is made of blocks is cut into them again. -/
theorem take_drop_flatten (uniform : Uniform size blocks) {place : Nat}
    (inside : place < blocks.length) :
    (blocks.flatten.drop (size * place)).take size = blocks.getD place [] := by
  induction blocks generalizing place with
  | nil => exact absurd inside (Nat.not_lt_zero place)
  | cons block rest ih =>
      have first := uniform block List.mem_cons_self
      have later : Uniform size rest :=
        fun other member => uniform other (List.mem_cons_of_mem _ member)
      rw [List.flatten_cons]
      cases place with
      | zero =>
          rw [Nat.mul_zero, List.drop_zero, List.take_left' first]
          rfl
      | succ place =>
          rw [Nat.mul_succ, Nat.add_comm, ← List.drop_drop, List.drop_left' first,
            ih later (Nat.lt_of_succ_lt_succ inside), List.getD_cons_succ]

theorem pieces_flatten (uniform : Uniform size blocks) :
    pieces size blocks.length blocks.flatten = blocks := by
  induction blocks with
  | nil => rfl
  | cons block rest ih =>
      have first := uniform block List.mem_cons_self
      have later := ih fun other member => uniform other (List.mem_cons_of_mem _ member)
      rw [List.flatten_cons, List.length_cons, pieces, List.take_left' first,
        List.drop_left' first, later]

end Uniform

/-- A text of a whole number of blocks is made of them. -/
theorem exists_blocks (whole : bytes.length % size = 0) :
    ∃ blocks, Uniform size blocks ∧ blocks.flatten = bytes := by
  have exact : size * (bytes.length / size) = bytes.length :=
    Nat.mul_div_cancel' (Nat.dvd_of_mod_eq_zero whole)
  refine ⟨pieces size (bytes.length / size) bytes, ?_, ?_⟩
  · intro block member
    exact length_of_mem_pieces (Nat.le_of_eq exact) member
  · rw [flatten_pieces, exact, List.take_length]

end CipherModes.Bytes
