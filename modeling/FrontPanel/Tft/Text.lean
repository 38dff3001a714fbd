import FrontPanel.Display.Glyphs
import FrontPanel.Tft.Area

/-!
# Text on the display

A character whose cell lies on the screen is sent as one window. One that does not, or that is drawn
without its background, is painted pixel by pixel.
-/

namespace FrontPanel

set_option autoImplicit false

namespace Tft

def holdsCell (t : Tft) (x y : Nat) : Bool :=
  decide (x + Glyph.width ≤ t.width) && decide (y + Glyph.height ≤ t.height)

def sendCell (x y : Nat) (c : Char) : Action TftError Tft Unit := do
  let (set, clear) := (← get).paint.characterColors
  transaction do
    sendWindow x y Glyph.width Glyph.height
    onBus (SerialBus.write
      ((Glyph.raster c).flatMap fun on => twoBytes (if on then set else clear).toNat))

/-- Paints one pixel of a cell, if its coordinates exist and its color is wanted. -/
def paintPlace (x y : Nat) (glyph : List Nat) (place : Nat × Nat) : Action TftError Tft Unit := do
  let t ← get
  let (set, clear) := t.paint.characterColors
  let px := x + place.1
  let py := y + place.2
  if Number.maxCoordinate < px ∨ Number.maxCoordinate < py then pure ()
  else if Glyph.isSet glyph place.1 place.2 then fillRect px py 1 1 set
  else if t.paint.withBackground then fillRect px py 1 1 clear

def drawCharacter (x y : Nat) (c : Char) : Action TftError Tft Unit := do
  let t ← get
  if t.initialized = false then throw .notInitialized
  else if t.paint.withBackground && t.holdsCell x y then sendCell x y c
  else Glyph.places.forM (paintPlace x y (Glyph.ofChar c))

/-- Draws characters from the cursor on. A newline moves the cursor down by one cell, a carriage return is
left out, and the cursor stays in front of a character that could not be drawn. -/
def drawText : List Char → Action TftError Tft Unit
  | [] => pure ()
  | c :: rest => do
    if c = '\n' then
      modify (mapPaint fun p => { p with cursorY := Number.plus p.cursorY Glyph.height })
    else if c ≠ '\r' then
      let p := (← get).paint
      drawCharacter p.cursorX p.cursorY c
      modify (mapPaint fun p => { p with cursorX := Number.plus p.cursorX Glyph.width })
    drawText rest

end Tft

end FrontPanel
