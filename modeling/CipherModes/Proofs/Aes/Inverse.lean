import CipherModes.Aes.Cipher
import Mathlib.Data.Finite.Prod
import Mathlib.Data.Fintype.EquivFin

/-!
# Decryption of a block inverts its encryption

Each step of a round has its inverse. Of the field only this is needed: doubling
is additive. The products of the two mixing polynomials then cancel by themselves.
Blocks are finitely many, so that encryption inverts decryption as well.
-/

set_option autoImplicit false

namespace CipherModes.Aes

/-! ## Bytes -/

private theorem substitution_inverts :
    substitutionTable.toList.map (fun byte => (inverseTable.toList[byte.toNat]?).getD 0) =
      (List.range 256).map UInt8.ofNat := by decide +kernel

theorem unsubstitute_substitute (byte : UInt8) : unsubstitute (substitute byte) = byte := by
  have place := congrArg (·[byte.toNat]?) substitution_inverts
  simp only [List.getElem?_map, List.getElem?_range byte.toNat_lt, Option.map_some,
    UInt8.ofNat_toNat] at place
  obtain ⟨image, found, same⟩ := Option.map_eq_some_iff.mp place
  simp only [unsubstitute, substitute, Array.getD_eq_getD_getElem?]
  simpa [← Array.getElem?_toList, found] using same

/-- Doubling shifts, and reduces what the shift loses. -/
theorem double_eq (byte : UInt8) :
    double byte = byte <<< 1 ^^^ (if byte.toBitVec.msb then 0x1b else 0) := by
  have all : ∀ value : Fin 256, double (UInt8.ofNat value) =
      UInt8.ofNat value <<< 1 ^^^ (if (UInt8.ofNat value).toBitVec.msb then 0x1b else 0) := by
    decide +kernel
  have same := all ⟨byte.toNat, byte.toNat_lt⟩
  rwa [UInt8.ofNat_toNat] at same

theorem double_xor (left right : UInt8) :
    double (left ^^^ right) = double left ^^^ double right := by
  have shifted : (left ^^^ right) <<< 1 = left <<< 1 ^^^ right <<< 1 := by
    apply UInt8.toBitVec_inj.mp
    simp [BitVec.shiftLeft_xor_distrib]
  have reduced : ∀ first second : Bool, (if (first ^^ second) then 0x1b else 0 : UInt8) =
      (if first then 0x1b else 0) ^^^ (if second then 0x1b else 0) := by decide
  rw [double_eq, double_eq, double_eq, shifted, UInt8.toBitVec_xor, BitVec.msb_xor, reduced]
  ac_rfl

theorem double_zero : double 0 = 0 := rfl

private theorem xor_cancel (left right : UInt8) : left ^^^ (left ^^^ right) = right := by
  rw [← UInt8.xor_assoc, UInt8.xor_self, UInt8.zero_xor]

private theorem xor_left_comm (first second third : UInt8) :
    first ^^^ (second ^^^ third) = second ^^^ (first ^^^ third) := by
  rw [← UInt8.xor_assoc, UInt8.xor_comm first, UInt8.xor_assoc]

/-! ## Columns -/

namespace Column

theorem add_add_cancel (column key : Column) : (column.add key).add key = column := by
  simp only [add, UInt8.xor_assoc, UInt8.xor_self, UInt8.xor_zero]

theorem map_map_cancel {change restore : UInt8 → UInt8}
    (inverse : ∀ byte, restore (change byte) = byte) (column : Column) :
    (column.map change).map restore = column := by
  simp [map, inverse]

theorem mix_add (left right : Column) : (left.add right).mix = left.mix.add right.mix := by
  simp only [mix, add, double_xor, mk.injEq]
  refine ⟨?_, ?_, ?_, ?_⟩ <;> ac_rfl

theorem unmix_add (left right : Column) :
    (left.add right).unmix = left.unmix.add right.unmix := by
  simp only [unmix, add, double_xor, mk.injEq]
  refine ⟨?_, ?_, ?_, ?_⟩ <;> ac_rfl

theorem mix_rotate (column : Column) : column.rotate.mix = column.mix.rotate := rfl

theorem unmix_rotate (column : Column) : column.rotate.unmix = column.unmix.rotate := rfl

/-- Each power of two by which a byte comes to a row comes to it an even number of times, except
for the byte itself in its own row. -/
theorem unmix_mix_first (byte : UInt8) : (mk byte 0 0 0).mix.unmix = ⟨byte, 0, 0, 0⟩ := by
  simp only [mix, unmix, double_zero, double_xor, mk.injEq, UInt8.xor_zero, UInt8.zero_xor]
  refine ⟨?_, ?_, ?_, ?_⟩ <;>
    simp only [UInt8.xor_assoc, UInt8.xor_comm, xor_left_comm, xor_cancel, UInt8.xor_self,
      UInt8.xor_zero]

theorem unmix_mix (column : Column) : column.mix.unmix = column := by
  obtain ⟨a, b, c, d⟩ := column
  -- A column is the sum of columns of one byte, and these are the first one rotated.
  have sum : mk a b c d = ((mk a 0 0 0).add (mk b 0 0 0).rotate.rotate.rotate).add
      ((mk c 0 0 0).rotate.rotate.add (mk d 0 0 0).rotate) := by
    simp [add, rotate]
  rw [sum]
  simp only [mix_add, unmix_add, mix_rotate, unmix_rotate, unmix_mix_first]

instance : Finite Column := by
  have byte : Finite UInt8 := Finite.of_injective UInt8.toFin fun _ _ => UInt8.toFin_inj.mp
  apply Finite.of_injective fun column : Column =>
    (column.row0, column.row1, column.row2, column.row3)
  rintro ⟨⟩ ⟨⟩ same
  cases same
  rfl

end Column

/-! ## Blocks -/

namespace State

theorem add_add_cancel (state key : State) : (state.add key).add key = state := by
  simp [add, Column.add_add_cancel]

theorem unsubstitute_substitute (state : State) : state.substitute.unsubstitute = state := by
  simp [substitute, unsubstitute, mapColumns, Column.map_map_cancel Aes.unsubstitute_substitute]

theorem unshiftRows_shiftRows (state : State) : state.shiftRows.unshiftRows = state := rfl

theorem unmixColumns_mixColumns (state : State) : state.mixColumns.unmixColumns = state := by
  simp [mixColumns, unmixColumns, mapColumns, Column.unmix_mix]

theorem ofBytes_toBytes (state : State) : ofBytes state.toBytes = state := rfl

theorem toBytes_ofBytes {block : Bytes} (whole : block.length = blockLength) :
    (ofBytes block).toBytes = block := by
  have sixteen : block.length = 16 := whole
  match block, sixteen with
  | [_, _, _, _, _, _, _, _, _, _, _, _, _, _, _, _], _ => rfl

instance : Finite State := by
  apply Finite.of_injective fun state : State =>
    (state.column0, state.column1, state.column2, state.column3)
  rintro ⟨⟩ ⟨⟩ same
  cases same
  rfl

end State

namespace Schedule

theorem unround_round (state key : State) : unround key (round state key) = state := by
  rw [unround, round, State.add_add_cancel, State.unmixColumns_mixColumns,
    State.unshiftRows_shiftRows, State.unsubstitute_substitute]

theorem unrounds_rounds (keys : List State) (state : State) :
    keys.foldr unround (keys.foldl round state) = state := by
  induction keys generalizing state with
  | nil => rfl
  | cons key rest ih => rw [List.foldl_cons, List.foldr_cons, ih, unround_round]

theorem decryptState_encryptState (schedule : Schedule) (state : State) :
    schedule.decryptState (schedule.encryptState state) = state := by
  simp only [decryptState, encryptState, State.add_add_cancel, State.unshiftRows_shiftRows,
    State.unsubstitute_substitute, unrounds_rounds]

theorem encryptState_decryptState (schedule : Schedule) (state : State) :
    schedule.encryptState (schedule.decryptState state) = state := by
  have undoes : Function.LeftInverse schedule.decryptState schedule.encryptState :=
    schedule.decryptState_encryptState
  have reached : Function.Surjective schedule.encryptState :=
    Finite.injective_iff_surjective.mp undoes.injective
  exact undoes.rightInverse_of_surjective reached state

theorem decrypt_encrypt (schedule : Schedule) {block : Bytes}
    (whole : block.length = blockLength) : schedule.decrypt (schedule.encrypt block) = block := by
  rw [decrypt, encrypt, State.ofBytes_toBytes, decryptState_encryptState,
    State.toBytes_ofBytes whole]

theorem encrypt_decrypt (schedule : Schedule) {block : Bytes}
    (whole : block.length = blockLength) : schedule.encrypt (schedule.decrypt block) = block := by
  rw [decrypt, encrypt, State.ofBytes_toBytes, encryptState_decryptState,
    State.toBytes_ofBytes whole]

end Schedule

end CipherModes.Aes
