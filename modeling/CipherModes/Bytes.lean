/-!
# Byte strings

Buffers, keys and messages are lists of bytes. This module holds the few
operations that every other module shares: numbers in either byte order,
byte-wise addition, pieces of a fixed size, and writing at the front of a
buffer.
-/

set_option autoImplicit false

namespace CipherModes

/-- A buffer, key, nonce or message. -/
abbrev Bytes := List UInt8

namespace Bytes

def zeros (length : Nat) : Bytes := List.replicate length 0

/-- How many numbers so many bytes can hold. -/
def capacity : (width : Nat) → Nat
  | 0 => 1
  | width + 1 => 256 * capacity width

/-- Byte-wise exclusive or, as far as both reach. -/
def xor (left right : Bytes) : Bytes := List.zipWith (· ^^^ ·) left right

/-- The `width` low bytes of a number, lowest first. -/
def littleEndian : (width value : Nat) → Bytes
  | 0, _ => []
  | width + 1, value => UInt8.ofNat value :: littleEndian width (value / 256)

/-- The number whose bytes are given lowest first. -/
def ofLittleEndian : Bytes → Nat
  | [] => 0
  | byte :: rest => byte.toNat + 256 * ofLittleEndian rest

/-- The `width` low bytes of a number, highest first. -/
def bigEndian (width value : Nat) : Bytes := (littleEndian width value).reverse

/-- The number whose bytes are given highest first. -/
def ofBigEndian (bytes : Bytes) : Nat := ofLittleEndian bytes.reverse

/-- The first `count` pieces of `size` bytes each; the last ones may be short. -/
def pieces (size : Nat) : (count : Nat) → Bytes → List Bytes
  | 0, _ => []
  | count + 1, bytes => bytes.take size :: pieces size count (bytes.drop size)

/-- All pieces of `size` bytes, where only the last may be shorter. -/
def chunks (size : Nat) (bytes : Bytes) : List Bytes :=
  pieces size ((bytes.length + size - 1) / size) bytes

/-- Zeros up to the next multiple of `size`. -/
def padded (size : Nat) (bytes : Bytes) : Bytes :=
  bytes ++ zeros (size - bytes.length)

/-- A value written at the front of a buffer, the rest of which stays. -/
def overlay (value buffer : Bytes) : Bytes := value ++ buffer.drop value.length

def hexDigit (value : Nat) : Char := (Nat.toDigits 16 (value % 16)).headD '0'

def hex (bytes : Bytes) : String :=
  String.ofList (bytes.flatMap fun byte => [hexDigit (byte.toNat / 16), hexDigit byte.toNat])

@[simp]
theorem length_zeros (length : Nat) : (zeros length).length = length := by simp [zeros]

@[simp]
theorem length_xor (left right : Bytes) :
    (xor left right).length = min left.length right.length := by simp [xor]

@[simp]
theorem length_littleEndian (width value : Nat) : (littleEndian width value).length = width := by
  induction width generalizing value with
  | zero => rfl
  | succ width ih => simp [littleEndian, ih]

@[simp]
theorem length_bigEndian (width value : Nat) : (bigEndian width value).length = width := by
  simp [bigEndian]

theorem ofLittleEndian_littleEndian (width value : Nat) :
    ofLittleEndian (littleEndian width value) = value % capacity width := by
  induction width generalizing value with
  | zero => simp [littleEndian, ofLittleEndian, capacity, Nat.mod_one]
  | succ width ih =>
      rw [littleEndian, ofLittleEndian, ih, capacity, Nat.mod_mul]
      simp

theorem littleEndian_ofLittleEndian (bytes : Bytes) :
    littleEndian bytes.length (ofLittleEndian bytes) = bytes := by
  induction bytes with
  | nil => rfl
  | cons byte rest ih =>
      have low : byte.toNat < 256 := byte.toNat_lt
      have quotient : (byte.toNat + 256 * ofLittleEndian rest) / 256 = ofLittleEndian rest := by
        omega
      simp only [List.length_cons, littleEndian, ofLittleEndian, quotient, ih]
      congr 1
      apply UInt8.toNat_inj.mp
      simp

theorem ofLittleEndian_lt (bytes : Bytes) : ofLittleEndian bytes < capacity bytes.length := by
  induction bytes with
  | nil => simp [ofLittleEndian, capacity]
  | cons byte rest ih =>
      have low : byte.toNat < 256 := byte.toNat_lt
      rw [ofLittleEndian, List.length_cons, capacity]
      omega

theorem flatten_pieces (size count : Nat) (bytes : Bytes) :
    (pieces size count bytes).flatten = bytes.take (size * count) := by
  induction count generalizing bytes with
  | zero => simp [pieces]
  | succ count ih => simp [pieces, ih, Nat.mul_succ, Nat.add_comm (size * count), List.take_add]

theorem flatten_chunks {size : Nat} (positive : 0 < size) (bytes : Bytes) :
    (chunks size bytes).flatten = bytes := by
  rw [chunks, flatten_pieces, List.take_of_length_le]
  have quotient := Nat.div_add_mod (bytes.length + size - 1) size
  have remainder := Nat.mod_lt (bytes.length + size - 1) positive
  omega

theorem length_le_of_mem_pieces {size count : Nat} {bytes piece : Bytes}
    (member : piece ∈ pieces size count bytes) : piece.length ≤ size := by
  induction count generalizing bytes with
  | zero => simp [pieces] at member
  | succ count ih =>
      rw [pieces, List.mem_cons] at member
      cases member with
      | inl first => rw [first, List.length_take]; exact Nat.min_le_left _ _
      | inr later => exact ih later

theorem length_of_mem_pieces {size count : Nat} {bytes piece : Bytes}
    (enough : size * count ≤ bytes.length) (member : piece ∈ pieces size count bytes) :
    piece.length = size := by
  induction count generalizing bytes with
  | zero => simp [pieces] at member
  | succ count ih =>
      rw [Nat.mul_succ] at enough
      rw [pieces, List.mem_cons] at member
      cases member with
      | inl first => rw [first, List.length_take]; omega
      | inr later => exact ih (by rw [List.length_drop]; omega) later

@[simp]
theorem length_pieces (size count : Nat) (bytes : Bytes) :
    (pieces size count bytes).length = count := by
  induction count generalizing bytes with
  | zero => rfl
  | succ count ih => simp [pieces, ih]

theorem length_chunks (size : Nat) (bytes : Bytes) :
    (chunks size bytes).length = (bytes.length + size - 1) / size := by
  rw [chunks, length_pieces]

@[simp]
theorem length_overlay (value buffer : Bytes) (fits : value.length ≤ buffer.length) :
    (overlay value buffer).length = buffer.length := by
  simp [overlay, Nat.add_sub_cancel' fits]

end Bytes

end CipherModes
