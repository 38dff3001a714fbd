import FrontPanel.Action
import FrontPanel.Control.Buttons

/-!
# Displays

Every panel display has a text cursor, writes text and reads out the controls. All else is optional: a
display tells its capabilities, and an optional operation that it lacks fails as unsupported.
-/

namespace FrontPanel

set_option autoImplicit false

/-- A color in the wire format of the displays: five bits red, six green, five blue. -/
abbrev Color := UInt16

def Color.white : Color := 0xFFFF

def Color.black : Color := 0

inductive DrawMode where
  | erase
  | draw
  /-- The foreground color for areas, the two colors exchanged for text. -/
  | invert
  deriving DecidableEq

inductive DisplayError where
  | bus
  | unsupported
  | notInitialized
  deriving DecidableEq

/-- The optional operations of a display, a bit for each group. -/
abbrev Capabilities := BitVec 8

namespace Capabilities

def graphics : Capabilities := 0x01

def fullGraphics : Capabilities := 0x02

def color : Capabilities := 0x04

def drawMode : Capabilities := 0x08

def includes (all part : Capabilities) : Bool := all &&& part == part

end Capabilities

abbrev Draw (σ α : Type) := Action DisplayError σ α

def Draw.unsupported {σ α : Type} : Draw σ α := throw .unsupported

/-- The operations of a display. Coordinates are pixels unless a column or a row is asked for. -/
class Display (σ : Type) where
  start : Draw σ Unit
  clear : Draw σ Unit
  home : Draw σ Unit
  setCursor (column row : Nat) : Draw σ Unit
  write (text : String) : Draw σ Unit
  readButtons : σ → ButtonMask × σ
  readSteps : σ → Int × σ
  resolution : σ → Nat
  capabilities : σ → Capabilities
  textLines : σ → Nat := fun _ => 4
  dimensions : σ → Except DisplayError (Nat × Nat) := fun _ => .error .unsupported
  setCursorAt (x y : Nat) : Draw σ Unit := Draw.unsupported
  cursor : σ → Except DisplayError (Nat × Nat) := fun _ => .error .unsupported
  pixel (x y : Nat) (mode : DrawMode) : Draw σ Unit := Draw.unsupported
  horizontal (x y length : Nat) (mode : DrawMode) : Draw σ Unit := Draw.unsupported
  vertical (x y length : Nat) (mode : DrawMode) : Draw σ Unit := Draw.unsupported
  box (x y width height : Nat) (mode : DrawMode) : Draw σ Unit := Draw.unsupported
  character (x y : Nat) (c : Char) : Draw σ Unit := Draw.unsupported
  setForeground (color : Color) : Draw σ Unit := Draw.unsupported
  foreground : σ → Except DisplayError Color := fun _ => .error .unsupported
  setBackground (color : Color) : Draw σ Unit := Draw.unsupported
  background : σ → Except DisplayError Color := fun _ => .error .unsupported
  setMode (mode : DrawMode) : Draw σ Unit := Draw.unsupported
  mode : σ → Except DisplayError DrawMode := fun _ => .error .unsupported
  /-- Paints or leaves out the background of characters. -/
  paintBackground (on : Bool) : Draw σ Unit := Draw.unsupported
  buzz (milliseconds hertz : Nat) : Draw σ Unit := Draw.unsupported
  setLamp (index : Nat) (on : Bool) : Draw σ Unit := Draw.unsupported
  setVariant (variant : Nat) : Draw σ Unit := Draw.unsupported
  contrast : σ → Except DisplayError Nat := fun _ => .error .unsupported
  setContrast (contrast : Nat) : Draw σ Unit := Draw.unsupported

namespace Display

variable {σ : Type} [Display σ]

def hasGraphics (s : σ) : Bool := (capabilities s).includes .graphics

/-- The display has what a framed, partly repainted menu needs. -/
def hasFullGraphics (s : σ) : Bool := (capabilities s).includes .fullGraphics

end Display

/-- A display with the required operations only. They succeed without an effect. -/
structure BareDisplay where
  capabilities : Capabilities
  deriving DecidableEq

instance : Display BareDisplay where
  start := pure ()
  clear := pure ()
  home := pure ()
  setCursor _ _ := pure ()
  write _ := pure ()
  readButtons s := (0, s)
  readSteps s := (0, s)
  resolution _ := 4
  capabilities := BareDisplay.capabilities

end FrontPanel
