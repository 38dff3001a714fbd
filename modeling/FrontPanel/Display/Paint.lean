import FrontPanel.Display.Basic

/-!
# Cursor and colors

What a graphics display remembers between operations, and the colors that its modes come down to.
-/

namespace FrontPanel

set_option autoImplicit false

structure Paint where
  cursorX : Nat := 0
  cursorY : Nat := 0
  foreground : Color := .white
  background : Color := .black
  mode : DrawMode := .draw
  /-- The clear pixels of a character are painted too. -/
  withBackground : Bool := true
  deriving DecidableEq

namespace Paint

def areaColor (p : Paint) : DrawMode → Color
  | .erase => p.background
  | .draw | .invert => p.foreground

def characterColors (p : Paint) : Color × Color :=
  match p.mode with
  | .draw => (p.foreground, p.background)
  | .erase | .invert => (p.background, p.foreground)

def moveTo (x y : Nat) (p : Paint) : Paint := { p with cursorX := x, cursorY := y }

end Paint

end FrontPanel
