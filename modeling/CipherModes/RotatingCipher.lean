import CipherModes.BlockCipher

/-!
# A small block cipher

A permutation of blocks of any size: bytes move one place and take in a key
byte and their place. It is no cipher to hide anything with, but it exercises
the modes at sizes that AES does not have, and it fails at chosen calls.
-/

set_option autoImplicit false

namespace CipherModes

/-- The size, the key byte and the failing calls of a rotating cipher. -/
structure RotatingCipher where
  blockSize : Nat
  key : Nat
  /-- The numbers of the calls that fail, counted from one in both directions. -/
  failsAt : List Nat
  deriving DecidableEq, Repr

namespace RotatingCipher

def offset (cipher : RotatingCipher) (place : Nat) : UInt8 := UInt8.ofNat (cipher.key + place)

/-- Place `i` takes the byte of place `i + 1`, plus its offset. -/
def encrypt (cipher : RotatingCipher) (source : Bytes) : Bytes :=
  (List.range cipher.blockSize).map fun place =>
    source.getD ((place + 1) % cipher.blockSize) 0 + cipher.offset place

/-- Place `i + 1` takes the byte of place `i`, less that place's offset. -/
def decrypt (cipher : RotatingCipher) (source : Bytes) : Bytes :=
  (List.range cipher.blockSize).map fun place =>
    let earlier := (place + cipher.blockSize - 1) % cipher.blockSize
    source.getD earlier 0 - cipher.offset earlier

def operationName : Direction → String
  | .encrypt => "ToyEncrypt"
  | .decrypt => "ToyDecrypt"

/-- One call; the state is the number of calls made before it. -/
def transform (cipher : RotatingCipher) (direction : Direction) (source destination : Bytes) :
    StateM Nat (Except CipherError Unit × Bytes) := fun made =>
  if cipher.failsAt.contains (made + 1) then
    ((.error (.backend ⟨operationName direction, .invalidParameter⟩), destination), made + 1)
  else
    let block :=
      match direction with
      | .encrypt => cipher.encrypt source
      | .decrypt => cipher.decrypt source
    ((.ok (), (Bytes.overlay block destination).take destination.length), made + 1)

def blockCipher (cipher : RotatingCipher) : BlockCipher Nat where
  blockSize := cipher.blockSize
  transform := cipher.transform
  keepsLength direction source destination made := by
    unfold transform
    split
    · rfl
    · simp only [Bytes.overlay, List.length_take, List.length_append, List.length_drop]
      omega

end RotatingCipher

end CipherModes
