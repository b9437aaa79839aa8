import CipherModes.Bytes

/-!
# Byte strings as numbers

Which numbers byte strings of a given length hold, and which string holds the
greatest of them. Among strings of one length, each is told by its number.
-/

set_option autoImplicit false

namespace CipherModes.Bytes

theorem ofBigEndian_lt (bytes : Bytes) : ofBigEndian bytes < capacity bytes.length := by
  have bounded := ofLittleEndian_lt bytes.reverse
  rwa [List.length_reverse] at bounded

theorem ofBigEndian_bigEndian (width value : Nat) :
    ofBigEndian (bigEndian width value) = value % capacity width := by
  rw [ofBigEndian, bigEndian, List.reverse_reverse, ofLittleEndian_littleEndian]

theorem bigEndian_ofBigEndian (bytes : Bytes) :
    bigEndian bytes.length (ofBigEndian bytes) = bytes := by
  rw [bigEndian, ofBigEndian, ← List.length_reverse, littleEndian_ofLittleEndian,
    List.reverse_reverse]

/-- Only what fits into the width is written. -/
theorem bigEndian_eq_iff {width left right : Nat} :
    bigEndian width left = bigEndian width right ↔
      left % capacity width = right % capacity width := by
  constructor
  · intro same
    rw [← ofBigEndian_bigEndian, same, ofBigEndian_bigEndian]
  · intro same
    have written := bigEndian_ofBigEndian (bigEndian width left)
    rw [ofBigEndian_bigEndian, same, ← ofBigEndian_bigEndian, length_bigEndian] at written
    have kept := bigEndian_ofBigEndian (bigEndian width right)
    rw [length_bigEndian] at kept
    exact written.symm.trans kept

private theorem ofLittleEndian_greatest_iff (bytes : Bytes) :
    ofLittleEndian bytes + 1 = capacity bytes.length ↔
      bytes = List.replicate bytes.length 0xff := by
  induction bytes with
  | nil => simp [ofLittleEndian, capacity]
  | cons byte rest ih =>
      have low : byte.toNat < 256 := byte.toNat_lt
      have high := ofLittleEndian_lt rest
      have digits : byte.toNat + 256 * ofLittleEndian rest + 1 = 256 * capacity rest.length ↔
          byte.toNat = 255 ∧ ofLittleEndian rest + 1 = capacity rest.length := by omega
      have greatest : byte.toNat = 255 ↔ byte = 0xff :=
        ⟨fun same => UInt8.toNat_inj.mp same, fun same => same ▸ rfl⟩
      rw [ofLittleEndian, List.length_cons, capacity, digits, ih, greatest, List.replicate_succ,
        List.cons.injEq]

/-- Only the string that has no other byte than the greatest holds the greatest
number of its length. -/
theorem ofBigEndian_greatest_iff (bytes : Bytes) :
    ofBigEndian bytes + 1 = capacity bytes.length ↔ bytes = List.replicate bytes.length 0xff := by
  have greatest := ofLittleEndian_greatest_iff bytes.reverse
  rwa [List.length_reverse, List.reverse_eq_iff, List.reverse_replicate] at greatest

/-- The bits of a number are those of its bytes. -/
theorem testBit_ofLittleEndian (bytes : Bytes) (place : Nat) :
    (ofLittleEndian bytes).testBit place = (bytes.getD (place / 8) 0).toNat.testBit (place % 8) := by
  induction bytes generalizing place with
  | nil => rw [ofLittleEndian, List.getD_nil, Nat.zero_testBit, UInt8.toNat_zero, Nat.zero_testBit]
  | cons byte rest ih =>
      have digits : ofLittleEndian (byte :: rest) = 2 ^ 8 * ofLittleEndian rest + byte.toNat :=
        Nat.add_comm _ _
      rw [digits, Nat.testBit_two_pow_mul_add _ byte.toNat_lt]
      split
      · rename_i first
        rw [Nat.div_eq_of_lt first, Nat.mod_eq_of_lt first]
        rfl
      · rename_i later
        obtain ⟨other, rfl⟩ := Nat.exists_eq_add_of_le (Nat.le_of_not_lt later)
        rw [ih, Nat.add_sub_cancel_left, Nat.add_div_left _ (by decide), Nat.add_mod_left]
        rfl

private theorem ofLittleEndian_append (low high : Bytes) :
    ofLittleEndian (low ++ high) =
      ofLittleEndian low + capacity low.length * ofLittleEndian high := by
  induction low with
  | nil => rw [List.nil_append, ofLittleEndian, List.length_nil, capacity, Nat.one_mul, Nat.zero_add]
  | cons byte rest ih =>
      rw [List.cons_append, ofLittleEndian, ih, ofLittleEndian, List.length_cons, capacity,
        Nat.mul_add, Nat.mul_assoc, Nat.add_assoc]

/-- The bytes in front count the capacity of those behind. -/
theorem ofBigEndian_append (high low : Bytes) :
    ofBigEndian (high ++ low) = ofBigEndian low + capacity low.length * ofBigEndian high := by
  rw [ofBigEndian, List.reverse_append, ofLittleEndian_append, List.length_reverse, ofBigEndian,
    ofBigEndian]

theorem ofBigEndian_zeros (count : Nat) : ofBigEndian (zeros count) = 0 := by
  rw [ofBigEndian, zeros, List.reverse_replicate]
  induction count with
  | zero => rfl
  | succ count ih => rw [List.replicate_succ, ofLittleEndian, ih, UInt8.toNat_zero]

/-- Zeros in front of a number change nothing. -/
theorem ofBigEndian_zeros_append (count : Nat) (bytes : Bytes) :
    ofBigEndian (zeros count ++ bytes) = ofBigEndian bytes := by
  rw [ofBigEndian_append, ofBigEndian_zeros, Nat.mul_zero, Nat.add_zero]

/-- The last bytes hold what is left of the number. -/
theorem ofBigEndian_drop (count : Nat) (bytes : Bytes) :
    ofBigEndian (bytes.drop count) = ofBigEndian bytes % capacity (bytes.length - count) := by
  have bounded := ofBigEndian_lt (bytes.drop count)
  have parts := ofBigEndian_append (bytes.take count) (bytes.drop count)
  rw [List.length_drop] at bounded
  rw [List.take_append_drop, List.length_drop] at parts
  rw [parts, Nat.add_mul_mod_self_left, Nat.mod_eq_of_lt bounded]

end CipherModes.Bytes
