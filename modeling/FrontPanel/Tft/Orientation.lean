/-!
# Orientation of the display

Four orientations, a quarter turn apart. Each has its scan order and its offset into the memory of the
controller; the odd ones exchange width and height.
-/

namespace FrontPanel.Tft

set_option autoImplicit false

structure Orientation where
  scanOrder : UInt8
  offsetX : Nat
  offsetY : Nat
  swapsAxes : Bool
  deriving DecidableEq

namespace Orientation

def bottomUp : UInt8 := 0x80

def rightToLeft : UInt8 := 0x40

def exchange : UInt8 := 0x20

/-- The orientation after a number of quarter turns, of a panel whose visible part starts at the given
column and row. -/
def ofRotation (rotation columnStart rowStart : Nat) : Orientation :=
  match rotation % 4 with
  | 0 => ⟨rightToLeft ||| bottomUp, columnStart, rowStart, false⟩
  | 1 => ⟨bottomUp ||| exchange, rowStart, columnStart, true⟩
  | 2 => ⟨0, 0, 0, false⟩
  | _ => ⟨rightToLeft ||| exchange, 0, 0, true⟩

end Orientation

end FrontPanel.Tft
