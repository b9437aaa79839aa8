import CipherModes.Text.Utf16

/-!
# Properties of providers and keys

Properties travel as bytes: numbers are four bytes, lowest first; the table of
key lengths is three such numbers; texts are wide and closed by a zero unit.
-/

set_option autoImplicit false

namespace CipherModes

def aesAlgorithm : String := "AES"

namespace PropertyName

/-- Chaining mode of a provider, a text. -/
def chainingMode : String := "ChainingMode"

/-- Key lengths that a provider allows, a table. -/
def keyLengths : String := "KeyLengths"

/-- Length of a key in bits, a number. -/
def keyLength : String := "KeyLength"

/-- Block length in bytes, a number. -/
def blockLength : String := "BlockLength"

end PropertyName

inductive ChainingMode
  | ecb
  | cbc
  | gcm
  deriving DecidableEq, Repr

namespace ChainingMode

def text : ChainingMode → String
  | ecb => "ChainingModeECB"
  | cbc => "ChainingModeCBC"
  | gcm => "ChainingModeGCM"

def all : List ChainingMode := [ecb, cbc, gcm]

def ofText? (value : String) : Option ChainingMode := all.find? (·.text == value)

theorem ofText?_text (mode : ChainingMode) : ofText? mode.text = some mode := by
  cases mode <;> decide

theorem text_of_ofText? {value : String} {mode : ChainingMode}
    (found : ofText? value = some mode) : mode.text = value := by
  simpa using List.find?_some found

end ChainingMode

/-- The key lengths in bits that a provider reports, as it reports them. -/
structure KeyLengths where
  min : UInt32
  max : UInt32
  increment : UInt32
  deriving DecidableEq, Repr

/-- Four bytes, lowest first. -/
def encodeWord (word : UInt32) : Bytes := Bytes.littleEndian 4 word.toNat

/-- The number in the first four bytes. -/
def decodeWord (bytes : Bytes) : UInt32 := UInt32.ofNat (Bytes.ofLittleEndian (bytes.take 4))

namespace KeyLengths

def size : Nat := 12

/-- Least length, greatest length and step, one after the other. -/
def encode (lengths : KeyLengths) : Bytes :=
  encodeWord lengths.min ++ encodeWord lengths.max ++ encodeWord lengths.increment

/-- The table in the first twelve bytes. -/
def decode (bytes : Bytes) : KeyLengths where
  min := decodeWord bytes
  max := decodeWord (bytes.drop 4)
  increment := decodeWord (bytes.drop 8)

end KeyLengths

@[simp]
theorem length_encodeWord (word : UInt32) : (encodeWord word).length = 4 := by simp [encodeWord]

@[simp]
theorem KeyLengths.length_encode (lengths : KeyLengths) : lengths.encode.length = size := by
  simp [encode, size]

theorem decodeWord_encodeWord_append (word : UInt32) (rest : Bytes) :
    decodeWord (encodeWord word ++ rest) = word := by
  have small : word.toNat % Bytes.capacity 4 = word.toNat := Nat.mod_eq_of_lt word.toNat_lt
  rw [decodeWord, List.take_append_of_le_length (by simp), List.take_of_length_le (by simp),
    encodeWord, Bytes.ofLittleEndian_littleEndian, small, UInt32.ofNat_toNat]

theorem KeyLengths.decode_encode (lengths : KeyLengths) : decode lengths.encode = lengths := by
  have first : lengths.encode.drop 4 = encodeWord lengths.max ++ encodeWord lengths.increment := by
    simp [encode]
  have second : lengths.encode.drop 8 = encodeWord lengths.increment ++ [] := by
    simp [encode, List.drop_append]
  rw [decode, first, second, decodeWord_encodeWord_append, decodeWord_encodeWord_append]
  simp only [encode, List.append_assoc, decodeWord_encodeWord_append]

end CipherModes
