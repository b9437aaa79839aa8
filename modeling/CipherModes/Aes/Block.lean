import CipherModes.Aes.Substitution

/-!
# The state of AES

A block is four columns of four bytes, filled column by column. A round
replaces the bytes, rotates the rows, mixes the columns and adds a round key;
each of these has its inverse here.
-/

set_option autoImplicit false

namespace CipherModes.Aes

/-- Four bytes, from the first row to the last. -/
structure Column where
  row0 : UInt8
  row1 : UInt8
  row2 : UInt8
  row3 : UInt8
  deriving DecidableEq, Repr

/-- Four columns, from left to right. -/
structure State where
  column0 : Column
  column1 : Column
  column2 : Column
  column3 : Column
  deriving DecidableEq, Repr

/-- Twice a byte in the field of 256 elements. -/
def double (byte : UInt8) : UInt8 :=
  if byte < 0x80 then byte <<< 1 else byte <<< 1 ^^^ 0x1b

namespace Column

def zero : Column := ⟨0, 0, 0, 0⟩

def ofBytes (bytes : Bytes) : Column :=
  ⟨bytes.getD 0 0, bytes.getD 1 0, bytes.getD 2 0, bytes.getD 3 0⟩

def toBytes (column : Column) : Bytes := [column.row0, column.row1, column.row2, column.row3]

def add (left right : Column) : Column :=
  ⟨left.row0 ^^^ right.row0, left.row1 ^^^ right.row1, left.row2 ^^^ right.row2,
    left.row3 ^^^ right.row3⟩

def map (change : UInt8 → UInt8) (column : Column) : Column :=
  ⟨change column.row0, change column.row1, change column.row2, change column.row3⟩

/-- Each byte moves up one row, the first to the end. -/
def rotate (column : Column) : Column :=
  ⟨column.row1, column.row2, column.row3, column.row0⟩

/-- The product with the fixed polynomial: `2, 3, 1, 1` in the first row. -/
def mix (column : Column) : Column :=
  let mixed (a b c d : UInt8) : UInt8 := double a ^^^ (double b ^^^ b) ^^^ c ^^^ d
  ⟨mixed column.row0 column.row1 column.row2 column.row3,
    mixed column.row1 column.row2 column.row3 column.row0,
    mixed column.row2 column.row3 column.row0 column.row1,
    mixed column.row3 column.row0 column.row1 column.row2⟩

/-- The product with the inverse polynomial: `14, 11, 13, 9` in the first row. -/
def unmix (column : Column) : Column :=
  let by9 (a : UInt8) : UInt8 := double (double (double a)) ^^^ a
  let by11 (a : UInt8) : UInt8 := double (double (double a) ^^^ a) ^^^ a
  let by13 (a : UInt8) : UInt8 := double (double (double a ^^^ a)) ^^^ a
  let by14 (a : UInt8) : UInt8 := double (double (double a ^^^ a) ^^^ a)
  let mixed (a b c d : UInt8) : UInt8 := by14 a ^^^ by11 b ^^^ by13 c ^^^ by9 d
  ⟨mixed column.row0 column.row1 column.row2 column.row3,
    mixed column.row1 column.row2 column.row3 column.row0,
    mixed column.row2 column.row3 column.row0 column.row1,
    mixed column.row3 column.row0 column.row1 column.row2⟩

end Column

namespace State

def ofBytes (bytes : Bytes) : State :=
  ⟨.ofBytes bytes, .ofBytes (bytes.drop 4), .ofBytes (bytes.drop 8), .ofBytes (bytes.drop 12)⟩

def toBytes (state : State) : Bytes :=
  state.column0.toBytes ++ state.column1.toBytes ++ state.column2.toBytes ++
    state.column3.toBytes

def add (left right : State) : State :=
  ⟨left.column0.add right.column0, left.column1.add right.column1,
    left.column2.add right.column2, left.column3.add right.column3⟩

def mapColumns (change : Column → Column) (state : State) : State :=
  ⟨change state.column0, change state.column1, change state.column2, change state.column3⟩

def substitute (state : State) : State := state.mapColumns (·.map Aes.substitute)

def unsubstitute (state : State) : State := state.mapColumns (·.map Aes.unsubstitute)

/-- Row `i` moves `i` columns to the left. -/
def shiftRows (state : State) : State :=
  let shifted (a b c d : Column) : Column := ⟨a.row0, b.row1, c.row2, d.row3⟩
  ⟨shifted state.column0 state.column1 state.column2 state.column3,
    shifted state.column1 state.column2 state.column3 state.column0,
    shifted state.column2 state.column3 state.column0 state.column1,
    shifted state.column3 state.column0 state.column1 state.column2⟩

/-- Row `i` moves `i` columns to the right. -/
def unshiftRows (state : State) : State :=
  let shifted (a b c d : Column) : Column := ⟨a.row0, d.row1, c.row2, b.row3⟩
  ⟨shifted state.column0 state.column1 state.column2 state.column3,
    shifted state.column1 state.column2 state.column3 state.column0,
    shifted state.column2 state.column3 state.column0 state.column1,
    shifted state.column3 state.column0 state.column1 state.column2⟩

def mixColumns (state : State) : State := state.mapColumns Column.mix

def unmixColumns (state : State) : State := state.mapColumns Column.unmix

end State

end CipherModes.Aes
