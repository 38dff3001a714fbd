import FrontPanel.Bus.Faults
import FrontPanel.Display.Glyphs
import FrontPanel.Display.Paint

/-!
# A recording display

A display that draws nothing and keeps the list of calls it received. It offers exactly the operations of
its capabilities, its calls can be made to fail, and its cursor moves as that of a real display.
-/

namespace FrontPanel

set_option autoImplicit false

inductive DisplayCall where
  | start
  | clear
  | home
  | cursor (column row : Nat)
  | write (text : String)
  | cursorAt (x y : Nat)
  | pixel (x y : Nat) (mode : DrawMode)
  | horizontal (x y length : Nat) (mode : DrawMode)
  | vertical (x y length : Nat) (mode : DrawMode)
  | box (x y width height : Nat) (mode : DrawMode)
  | mode (mode : DrawMode)
  deriving DecidableEq

structure Recorder where
  capabilities : Capabilities
  dimensions : Option (Nat × Nat)
  textLines : Nat
  resolution : Nat
  calls : List DisplayCall := []
  faults : Faults := {}
  cursorX : Nat := 0
  cursorY : Nat := 0
  buttons : ButtonMask := 0
  steps : Int := 0

namespace Recorder

/-- Receives a call, unless it fails, and then moves the cursor. -/
def receive (call : DisplayCall) (move : Recorder → Recorder) : Draw Recorder Unit := fun r =>
  let r' := { r with faults := r.faults.next }
  if r.faults.now then .error .bus r' else .ok () (move { r' with calls := call :: r'.calls })

def receiveWith (needed : Capabilities) (call : DisplayCall) (move : Recorder → Recorder) :
    Draw Recorder Unit := fun r =>
  if r.capabilities.includes needed then receive call move r else .error .unsupported r

def moveTo (x y : Nat) (r : Recorder) : Recorder := { r with cursorX := x, cursorY := y }

def feed (buttons : ButtonMask) (steps : Int) (r : Recorder) : Recorder :=
  { r with buttons := buttons, steps := steps }

def history (r : Recorder) : List DisplayCall := r.calls.reverse

end Recorder

open Recorder in
instance : Display Recorder where
  start := receive .start id
  clear := receive .clear id
  home := receive .home (moveTo 0 0)
  setCursor column row :=
    receive (.cursor column row)
      (moveTo (Number.times column Glyph.width) (Number.times row Glyph.height))
  write text :=
    receive (.write text) fun r =>
      r.moveTo (Number.plus r.cursorX (Glyph.textWidth text)) r.cursorY
  readButtons r := (r.buttons, r)
  readSteps r := (r.steps, { r with steps := 0 })
  resolution := Recorder.resolution
  capabilities := Recorder.capabilities
  textLines := Recorder.textLines
  dimensions r :=
    match r.dimensions with
    | some size => .ok size
    | none => .error .unsupported
  setCursorAt x y := receiveWith .graphics (.cursorAt x y) (moveTo x y)
  cursor r :=
    if r.capabilities.includes .graphics then .ok (r.cursorX, r.cursorY) else .error .unsupported
  pixel x y mode := receiveWith .fullGraphics (.pixel x y mode) id
  horizontal x y length mode := receiveWith .fullGraphics (.horizontal x y length mode) id
  vertical x y length mode := receiveWith .fullGraphics (.vertical x y length mode) id
  box x y width height mode := receiveWith .fullGraphics (.box x y width height mode) id
  setMode mode := receiveWith .drawMode (.mode mode) id

end FrontPanel
