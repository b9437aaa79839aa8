import CipherModes.Bytes

/-!
# The field of GCM

Elements are polynomials of degree below 128 over the field of two elements.
The first bit of a block is the constant coefficient, so multiplying by `x`
shifts to the right; `x ^ 128` is replaced by `1 + x + x ^ 2 + x ^ 7`.
-/

set_option autoImplicit false

namespace CipherModes.Gcm

/-- A polynomial, its constant coefficient in the highest bit. -/
abbrev Element := BitVec 128

namespace Element

def ofBytes (block : Bytes) : Element := BitVec.ofNat 128 (Bytes.ofBigEndian block)

def toBytes (element : Element) : Bytes := Bytes.bigEndian 16 element.toNat

/-- What `x ^ 128` is replaced by. -/
def reduction : Element := BitVec.ofNat 128 0xe1000000000000000000000000000000

def timesX (element : Element) : Element :=
  if element.getLsbD 0 then element >>> 1 ^^^ reduction else element >>> 1

/-- Adds the product of `right` and the polynomial of the first `count`
coefficients of `left`. -/
def addProduct : (count : Nat) → (left right sum : Element) → Element
  | 0, _, _, sum => sum
  | count + 1, left, right, sum =>
      addProduct count (left <<< 1) right.timesX (if left.msb then sum ^^^ right else sum)

def mul (left right : Element) : Element := addProduct 128 left right 0

end Element

/-- The keyed hash of a sequence of blocks: each block is added to the value so
far, which is then multiplied by the key. -/
def hashBlocks (key : Bytes) (blocks : List Bytes) : Bytes :=
  let factor := Element.ofBytes key
  (blocks.foldl (fun value block => (value ^^^ Element.ofBytes block).mul factor) 0).toBytes

@[simp]
theorem Element.length_toBytes (element : Element) : element.toBytes.length = 16 := by
  simp [toBytes]

@[simp]
theorem length_hashBlocks (key : Bytes) (blocks : List Bytes) :
    (hashBlocks key blocks).length = 16 := by simp [hashBlocks]

end CipherModes.Gcm
