import Dabara.Text.Bytes

set_option autoImplicit false

namespace Dabara

structure Color where
  red : UInt8
  green : UInt8
  blue : UInt8
  deriving DecidableEq

namespace Color

/-- A color from a packed number `0xRRGGBB`; higher bits are dropped. -/
def ofPacked (packed : Nat) : Color :=
  ⟨(packed / 65536).toUInt8, (packed / 256).toUInt8, packed.toUInt8⟩

/-- The color that stands where none is chosen. -/
def white : Color :=
  ⟨255, 255, 255⟩

def hexByte (byte : UInt8) : Text :=
  [Nat.digitChar (byte.toNat / 16), Nat.digitChar (byte.toNat % 16)]

/-- A color as `#rrggbb`. -/
def css (color : Color) : Text :=
  '#' :: hexByte color.red ++ hexByte color.green ++ hexByte color.blue

end Color

end Dabara
