import CipherModes.Bytes

/-!
# UTF-16 text

A character below 65536 is one unit, any other a high surrogate followed by a
low one. Text properties travel as little-endian units closed by a zero unit;
reading stops at the first zero unit and refuses what is not well-formed.
-/

set_option autoImplicit false

namespace CipherModes

namespace Utf16

/-- The first half of a pair. -/
def isHigh (unit : UInt16) : Bool := 0xD800 ≤ unit && unit < 0xDC00

/-- The second half of a pair. -/
def isLow (unit : UInt16) : Bool := 0xDC00 ≤ unit && unit < 0xE000

def ofChar (char : Char) : List UInt16 :=
  if char.toNat < 0x10000 then [UInt16.ofNat char.toNat]
  else
    [UInt16.ofNat (0xD800 + (char.toNat - 0x10000) / 0x400),
      UInt16.ofNat (0xDC00 + (char.toNat - 0x10000) % 0x400)]

def pairChar (high low : UInt16) : Char :=
  Char.ofNat (0x10000 + (high.toNat - 0xD800) * 0x400 + (low.toNat - 0xDC00))

def encode (chars : List Char) : List UInt16 := chars.flatMap ofChar

/-- The text of well-formed units: each high surrogate stands directly before
a low one, and no low one stands anywhere else. -/
def decode? : List UInt16 → Option (List Char)
  | [] => some []
  | [unit] => if isHigh unit || isLow unit then none else some [Char.ofNat unit.toNat]
  | unit :: next :: rest =>
      if isHigh unit then
        if isLow next then (decode? rest).map (pairChar unit next :: ·) else none
      else if isLow unit then none
      else (decode? (next :: rest)).map (Char.ofNat unit.toNat :: ·)

/-- The bytes of units, low byte first. -/
def toBytes (units : List UInt16) : Bytes :=
  units.flatMap fun unit => Bytes.littleEndian 2 unit.toNat

/-- The units of a byte string, none if its length is odd. -/
def ofBytes? : Bytes → Option (List UInt16)
  | [] => some []
  | [_] => none
  | low :: high :: rest =>
      (ofBytes? rest).map (UInt16.ofNat (Bytes.ofLittleEndian [low, high]) :: ·)

end Utf16

/-- A text as a property value: its units and a closing zero unit. -/
def encodeWide (text : String) : Bytes := Utf16.toBytes (Utf16.encode text.toList ++ [0])

/-- The text before the first zero unit of a property value. -/
def decodeWide? (bytes : Bytes) : Option String := do
  let units ← Utf16.ofBytes? bytes
  let chars ← Utf16.decode? (units.takeWhile (· != 0))
  return String.ofList chars

end CipherModes
