/-!
# Reading patterns as signed numbers

A pattern of a given width is negative when its highest bit is set. The number
it stands for is found the way a reader does it by hand: take away one, flip
every bit of the width, and put a minus sign in front.
-/

namespace ByteMachine.Word

/-- The pattern whose lowest `width` bits are set. -/
def mask (width : Nat) : UInt32 := UInt32.ofNat (1 <<< width - 1)

/-- Whether the highest bit of a pattern of this width is set. -/
def isNegative (pattern : UInt32) (width : Nat) : Bool := pattern.toNat.testBit (width - 1)

/-- The number behind a pattern. A pattern without its sign bit is taken as it
stands, all 32 bits of it, whatever lies above the width. -/
def decodeSigned (pattern : UInt32) (width : Nat) : Int :=
  if isNegative pattern width then
    -(((pattern - 1) ^^^ mask width) &&& mask width).toNat
  else pattern.toInt32.toInt

/-- The number behind a byte, from -128 to 127. -/
def signedByte (byte : UInt8) : Int := decodeSigned byte.toUInt32 8

end ByteMachine.Word
