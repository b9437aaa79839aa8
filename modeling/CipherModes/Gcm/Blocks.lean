import CipherModes.Gcm.Field

/-!
# The blocks of GCM

The sizes of the mode, its counter blocks, and the blocks that its keyed hash
reads. All of it depends on the hash key only, never on the cipher.
-/

set_option autoImplicit false

namespace CipherModes.Gcm

def blockSize : Nat := 16

def standardNonceSize : Nat := 12

/-- The length of a standard tag, which is also the greatest. -/
def standardTagSize : Nat := 16

def minTagSize : Nat := 12

/-- The longest message: all counters but two, a block each. -/
def maxPlaintext : Nat := (0x100000000 - 2) * blockSize

/-- The longest message whose length is a 32-bit number. -/
def maxNativePlaintext : Nat := min maxPlaintext 0xffffffff

/-- The next counter block: its last four bytes count upwards and wrap. -/
def increment (block : Bytes) : Bytes :=
  block.take 12 ++ Bytes.bigEndian 4 (Bytes.ofBigEndian (block.drop 12) + 1)

theorem length_increment {block : Bytes} (whole : block.length = blockSize) :
    (increment block).length = blockSize := by
  rw [increment, List.length_append, List.length_take, Bytes.length_bigEndian, whole]
  rfl

/-- Blocks of sixteen bytes, the last one filled up with zeros. -/
def paddedBlocks (data : Bytes) : List Bytes :=
  (Bytes.chunks blockSize data).map (Bytes.padded blockSize)

def bitLength (length : Nat) : Bytes := Bytes.bigEndian 8 (8 * length)

/-- The blocks that authenticate a message: associated data, ciphertext and
the lengths of both. -/
def authenticatedBlocks (aad ciphertext : Bytes) : List Bytes :=
  paddedBlocks aad ++ paddedBlocks ciphertext ++
    [bitLength aad.length ++ bitLength ciphertext.length]

def nonceBlocks (nonce : Bytes) : List Bytes :=
  paddedBlocks nonce ++ [Bytes.zeros 8 ++ bitLength nonce.length]

def standardCounter (nonce : Bytes) : Bytes := nonce ++ Bytes.bigEndian 4 1

/-- The counter block before the first: that of a standard nonce, and the hash
of any other nonce. -/
def preCounter (hashKey nonce : Bytes) : Bytes :=
  if nonce.length = standardNonceSize then standardCounter nonce
  else hashBlocks hashKey (nonceBlocks nonce)

@[simp]
theorem length_preCounter (hashKey nonce : Bytes) :
    (preCounter hashKey nonce).length = blockSize := by
  unfold preCounter
  split
  · rename_i standard
    simp [standardCounter, standard, standardNonceSize, blockSize]
  · simp [blockSize]

end CipherModes.Gcm
