import FrontPanel.Number.Bounds

/-!
# Characters as pixels

Printable ASCII in cells of six by eight pixels; the last column and mostly the last row stay clear.
Everything else is shown as a hollow box. A glyph is its six columns from left to right, each a number
whose lowest bit is the top pixel.
-/

namespace FrontPanel.Glyph

set_option autoImplicit false

def width : Nat := 6

def height : Nat := 8

def printable : Array (List Nat) := #[
  [0x00, 0x00, 0x00, 0x00, 0x00, 0x00], [0x00, 0x00, 0x5F, 0x00, 0x00, 0x00],
  [0x00, 0x07, 0x00, 0x07, 0x00, 0x00], [0x14, 0x7F, 0x14, 0x7F, 0x14, 0x00],
  [0x24, 0x2A, 0x7F, 0x2A, 0x12, 0x00], [0x23, 0x13, 0x08, 0x64, 0x62, 0x00],
  [0x36, 0x49, 0x55, 0x22, 0x50, 0x00], [0x00, 0x05, 0x03, 0x00, 0x00, 0x00],
  [0x00, 0x1C, 0x22, 0x41, 0x00, 0x00], [0x00, 0x41, 0x22, 0x1C, 0x00, 0x00],
  [0x14, 0x08, 0x3E, 0x08, 0x14, 0x00], [0x08, 0x08, 0x3E, 0x08, 0x08, 0x00],
  [0x00, 0x50, 0x30, 0x00, 0x00, 0x00], [0x08, 0x08, 0x08, 0x08, 0x08, 0x00],
  [0x00, 0x60, 0x60, 0x00, 0x00, 0x00], [0x20, 0x10, 0x08, 0x04, 0x02, 0x00],
  [0x3E, 0x51, 0x49, 0x45, 0x3E, 0x00], [0x00, 0x42, 0x7F, 0x40, 0x00, 0x00],
  [0x42, 0x61, 0x51, 0x49, 0x46, 0x00], [0x21, 0x41, 0x45, 0x4B, 0x31, 0x00],
  [0x18, 0x14, 0x12, 0x7F, 0x10, 0x00], [0x27, 0x45, 0x45, 0x45, 0x39, 0x00],
  [0x3C, 0x4A, 0x49, 0x49, 0x30, 0x00], [0x01, 0x71, 0x09, 0x05, 0x03, 0x00],
  [0x36, 0x49, 0x49, 0x49, 0x36, 0x00], [0x06, 0x49, 0x49, 0x29, 0x1E, 0x00],
  [0x00, 0x36, 0x36, 0x00, 0x00, 0x00], [0x00, 0x56, 0x36, 0x00, 0x00, 0x00],
  [0x08, 0x14, 0x22, 0x41, 0x00, 0x00], [0x14, 0x14, 0x14, 0x14, 0x14, 0x00],
  [0x00, 0x41, 0x22, 0x14, 0x08, 0x00], [0x02, 0x01, 0x51, 0x09, 0x06, 0x00],
  [0x32, 0x49, 0x79, 0x41, 0x3E, 0x00], [0x7E, 0x11, 0x11, 0x11, 0x7E, 0x00],
  [0x7F, 0x49, 0x49, 0x49, 0x36, 0x00], [0x3E, 0x41, 0x41, 0x41, 0x22, 0x00],
  [0x7F, 0x41, 0x41, 0x22, 0x1C, 0x00], [0x7F, 0x49, 0x49, 0x49, 0x41, 0x00],
  [0x7F, 0x09, 0x09, 0x09, 0x01, 0x00], [0x3E, 0x41, 0x49, 0x49, 0x7A, 0x00],
  [0x7F, 0x08, 0x08, 0x08, 0x7F, 0x00], [0x00, 0x41, 0x7F, 0x41, 0x00, 0x00],
  [0x20, 0x40, 0x41, 0x3F, 0x01, 0x00], [0x7F, 0x08, 0x14, 0x22, 0x41, 0x00],
  [0x7F, 0x40, 0x40, 0x40, 0x40, 0x00], [0x7F, 0x02, 0x0C, 0x02, 0x7F, 0x00],
  [0x7F, 0x04, 0x08, 0x10, 0x7F, 0x00], [0x3E, 0x41, 0x41, 0x41, 0x3E, 0x00],
  [0x7F, 0x09, 0x09, 0x09, 0x06, 0x00], [0x3E, 0x41, 0x51, 0x21, 0x5E, 0x00],
  [0x7F, 0x09, 0x19, 0x29, 0x46, 0x00], [0x46, 0x49, 0x49, 0x49, 0x31, 0x00],
  [0x01, 0x01, 0x7F, 0x01, 0x01, 0x00], [0x3F, 0x40, 0x40, 0x40, 0x3F, 0x00],
  [0x1F, 0x20, 0x40, 0x20, 0x1F, 0x00], [0x3F, 0x40, 0x38, 0x40, 0x3F, 0x00],
  [0x63, 0x14, 0x08, 0x14, 0x63, 0x00], [0x07, 0x08, 0x70, 0x08, 0x07, 0x00],
  [0x61, 0x51, 0x49, 0x45, 0x43, 0x00], [0x00, 0x7F, 0x41, 0x41, 0x00, 0x00],
  [0x02, 0x04, 0x08, 0x10, 0x20, 0x00], [0x00, 0x41, 0x41, 0x7F, 0x00, 0x00],
  [0x04, 0x02, 0x01, 0x02, 0x04, 0x00], [0x40, 0x40, 0x40, 0x40, 0x40, 0x00],
  [0x00, 0x01, 0x02, 0x04, 0x00, 0x00], [0x20, 0x54, 0x54, 0x54, 0x78, 0x00],
  [0x7F, 0x48, 0x44, 0x44, 0x38, 0x00], [0x38, 0x44, 0x44, 0x44, 0x20, 0x00],
  [0x38, 0x44, 0x44, 0x48, 0x7F, 0x00], [0x38, 0x54, 0x54, 0x54, 0x18, 0x00],
  [0x08, 0x7E, 0x09, 0x01, 0x02, 0x00], [0x0C, 0x52, 0x52, 0x52, 0x3E, 0x00],
  [0x7F, 0x08, 0x04, 0x04, 0x78, 0x00], [0x00, 0x44, 0x7D, 0x40, 0x00, 0x00],
  [0x20, 0x40, 0x44, 0x3D, 0x00, 0x00], [0x7F, 0x10, 0x28, 0x44, 0x00, 0x00],
  [0x00, 0x41, 0x7F, 0x40, 0x00, 0x00], [0x7C, 0x04, 0x18, 0x04, 0x78, 0x00],
  [0x7C, 0x08, 0x04, 0x04, 0x78, 0x00], [0x38, 0x44, 0x44, 0x44, 0x38, 0x00],
  [0x7C, 0x14, 0x14, 0x14, 0x08, 0x00], [0x08, 0x14, 0x14, 0x18, 0x7C, 0x00],
  [0x7C, 0x08, 0x04, 0x04, 0x08, 0x00], [0x48, 0x54, 0x54, 0x54, 0x20, 0x00],
  [0x04, 0x3F, 0x44, 0x40, 0x20, 0x00], [0x3C, 0x40, 0x40, 0x20, 0x7C, 0x00],
  [0x1C, 0x20, 0x40, 0x20, 0x1C, 0x00], [0x3C, 0x40, 0x30, 0x40, 0x3C, 0x00],
  [0x44, 0x28, 0x10, 0x28, 0x44, 0x00], [0x0C, 0x50, 0x50, 0x50, 0x3C, 0x00],
  [0x44, 0x64, 0x54, 0x4C, 0x44, 0x00], [0x00, 0x08, 0x36, 0x41, 0x00, 0x00],
  [0x00, 0x00, 0x7F, 0x00, 0x00, 0x00], [0x00, 0x41, 0x36, 0x08, 0x00, 0x00],
  [0x10, 0x08, 0x08, 0x10, 0x08, 0x00]]

def hollowBox : List Nat := [0x7F, 0x41, 0x41, 0x41, 0x7F, 0x00]

def ofChar (c : Char) : List Nat :=
  if ' ' ≤ c ∧ c ≤ '~' then printable.getD (c.toNat - ' '.toNat) hollowBox else hollowBox

/-- The pixel in a column and a row is set; outside the cell none is. -/
def isSet (glyph : List Nat) (column row : Nat) : Bool :=
  decide (column < width) && decide (row < height) && (glyph.getD column 0).testBit row

/-- The places of a cell, rows from top to bottom and columns from left to right. -/
def places : List (Nat × Nat) :=
  (List.range height).flatMap fun row => (List.range width).map fun column => (column, row)

def raster (c : Char) : List Bool :=
  let glyph := ofChar c
  places.map fun (column, row) => isSet glyph column row

/-- The width of a text in pixels. The characters are counted in sixteen bits. -/
def textWidth (text : String) : Nat := Number.times (text.length % 65536) width

end FrontPanel.Glyph
