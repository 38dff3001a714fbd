import FrontPanel.Tft.Text

/-!
# The serial graphics display as a display

Starting the controller, and the operations of a display with graphics, colors and draw modes.
-/

namespace FrontPanel

set_option autoImplicit false

namespace Tft

/-- Reset, out of sleep, sixteen bits a pixel, memory window 240 by 320, no inversion, display on. -/
def startTable : List UInt8 :=
  [9,
    Command.softwareReset, 128, 150,
    Command.sleepOut, 128, 255,
    Command.pixelFormat, 129, 0x55, 10,
    Command.scanOrder, 1, 0x08,
    Command.columns, 4, 0, 0, 0, 240,
    Command.rows, 4, 0, 0, 1, 64,
    Command.inversionOff, 128, 10,
    Command.normalMode, 128, 10,
    Command.displayOn, 128, 255]

def clear : Action TftError Tft Unit := do
  let t ← get
  fillRect 0 0 t.width t.height t.paint.background
  modify (mapPaint (Paint.moveTo 0 0))

/-- Resets the controller, runs the start table, and then counts as started; the orientation is set and
the screen cleared after that. -/
def start : Action TftError Tft Unit := do
  modify fun t => { t with initialized := false }
  modify hardReset
  runTable startTable
  modify fun t => { t with initialized := true }
  setRotation (← get).config.rotation
  clear

def drawing {α : Type} (x : Action TftError Tft α) : Draw Tft α :=
  x.failingAs TftError.toDisplayError

def fillArea (x y width height : Nat) (mode : DrawMode) : Draw Tft Unit := do
  let color := (← get).paint.areaColor mode
  drawing (fillRect x y width height color)

def publish (buttons : ButtonMask) (steps : Int) (t : Tft) : Tft :=
  { t with input := t.input.map (InputAccumulator.publish buttons steps) }

def readButtons (t : Tft) : ButtonMask × Tft :=
  match t.input with
  | some a => (a.buttons, t)
  | none => (0, t)

def readSteps (t : Tft) : Int × Tft :=
  match t.input with
  | some a => (a.take.1, { t with input := some a.take.2 })
  | none => (0, t)

end Tft

open Tft in
instance : Display Tft where
  start := drawing start
  clear := drawing clear
  home := modify (mapPaint (Paint.moveTo 0 0))
  setCursor column row :=
    modify (mapPaint
      (Paint.moveTo (Number.times column Glyph.width) (Number.times row Glyph.height)))
  write text := drawing (drawText text.toList)
  readButtons := readButtons
  readSteps := readSteps
  resolution t := t.config.resolution
  capabilities _ := .graphics ||| .fullGraphics ||| .color ||| .drawMode
  textLines t := t.height / Glyph.height
  dimensions t := .ok (t.width, t.height)
  setCursorAt x y := modify (mapPaint (Paint.moveTo x y))
  cursor t := .ok (t.paint.cursorX, t.paint.cursorY)
  pixel x y mode := fillArea x y 1 1 mode
  horizontal x y length mode := fillArea x y length 1 mode
  vertical x y length mode := fillArea x y 1 length mode
  box x y width height mode := fillArea x y width height mode
  character x y c := drawing (drawCharacter x y c)
  setForeground color := modify (mapPaint fun p => { p with foreground := color })
  foreground t := .ok t.paint.foreground
  setBackground color := modify (mapPaint fun p => { p with background := color })
  background t := .ok t.paint.background
  setMode mode := modify (mapPaint fun p => { p with mode := mode })
  mode t := .ok t.paint.mode
  paintBackground on := modify (mapPaint fun p => { p with withBackground := on })

end FrontPanel
