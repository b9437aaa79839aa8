import CipherModes.Aes.Block

/-!
# AES

Keys of 16, 24 and 32 bytes are expanded to 11, 13 and 15 round keys. A block
passes the rounds forwards to be encrypted and backwards to be decrypted.
-/

set_option autoImplicit false

namespace CipherModes.Aes

def blockLength : Nat := 16

/-- The round keys of a key: one before the rounds, one for each round but the
last, which mixes no columns, and one for the last. -/
structure Schedule where
  first : State
  middle : List State
  last : State
  deriving DecidableEq, Repr

namespace Schedule

/-- Adds so many columns to the columns of a key of `width` columns. A column
is the one `width` places before it plus a change of its predecessor, which
every `width` columns takes in the next round constant. -/
def extend (width : Nat) : (count : Nat) → (constant : UInt8) → Array Column → Array Column
  | 0, _, columns => columns
  | count + 1, constant, columns =>
      let previous := columns.getD (columns.size - 1) .zero
      let earlier := columns.getD (columns.size - width) .zero
      if columns.size % width = 0 then
        let change := (previous.rotate.map substitute).add ⟨constant, 0, 0, 0⟩
        extend width count (double constant) (columns.push (earlier.add change))
      else if 6 < width ∧ columns.size % width = 4 then
        extend width count constant (columns.push (earlier.add (previous.map substitute)))
      else
        extend width count constant (columns.push (earlier.add previous))

def roundKey (columns : Array Column) (round : Nat) : State :=
  ⟨columns.getD (4 * round) .zero, columns.getD (4 * round + 1) .zero,
    columns.getD (4 * round + 2) .zero, columns.getD (4 * round + 3) .zero⟩

/-- The round keys of a key of `width` columns: `width + 6` rounds. -/
def expand (width : Nat) (secret : Bytes) : Schedule :=
  let given := (Bytes.pieces 4 width secret).map Column.ofBytes
  let columns := extend width (4 * (width + 7) - width) 1 given.toArray
  { first := roundKey columns 0
    middle := (List.range (width + 5)).map fun round => roundKey columns (round + 1)
    last := roundKey columns (width + 6) }

def ofSecret? (secret : Bytes) : Option Schedule :=
  if secret.length = 16 ∨ secret.length = 24 ∨ secret.length = 32 then
    some (expand (secret.length / 4) secret)
  else none

def round (state key : State) : State := state.substitute.shiftRows.mixColumns.add key

def unround (key state : State) : State :=
  (state.add key).unmixColumns.unshiftRows.unsubstitute

def encryptState (schedule : Schedule) (state : State) : State :=
  let mixed := schedule.middle.foldl round (state.add schedule.first)
  mixed.substitute.shiftRows.add schedule.last

def decryptState (schedule : Schedule) (state : State) : State :=
  let mixed := (state.add schedule.last).unshiftRows.unsubstitute
  (schedule.middle.foldr unround mixed).add schedule.first

/-- The encryption of the block in the first sixteen bytes. -/
def encrypt (schedule : Schedule) (block : Bytes) : Bytes :=
  (schedule.encryptState (.ofBytes block)).toBytes

/-- The decryption of the block in the first sixteen bytes. -/
def decrypt (schedule : Schedule) (block : Bytes) : Bytes :=
  (schedule.decryptState (.ofBytes block)).toBytes

end Schedule

@[simp]
theorem State.length_toBytes (state : State) : state.toBytes.length = blockLength := rfl

@[simp]
theorem Schedule.length_encrypt (schedule : Schedule) (block : Bytes) :
    (schedule.encrypt block).length = blockLength := rfl

@[simp]
theorem Schedule.length_decrypt (schedule : Schedule) (block : Bytes) :
    (schedule.decrypt block).length = blockLength := rfl

end CipherModes.Aes
