import FrontPanel.Display.Basic

/-!
# A grid of characters

A character display keeps a character in each of its cells. Writing goes to the right from the cursor and
replaces what the cells held before.
-/

namespace FrontPanel

set_option autoImplicit false

/-- Cells by column and row, and the cursor. -/
structure Grid where
  cells : Nat → Nat → Char := fun _ _ => ' '
  column : Nat := 0
  row : Nat := 0

namespace Grid

def cleared (g : Grid) : Grid := { g with cells := fun _ _ => ' ' }

def moved (column row : Nat) (g : Grid) : Grid := { g with column := column, row := row }

def written (text : List Char) (g : Grid) : Grid where
  cells column row :=
    if row = g.row ∧ g.column ≤ column then
      text[column - g.column]?.getD (g.cells column row)
    else g.cells column row
  column := g.column + text.length
  row := g.row

instance : Display Grid where
  start := modify cleared
  clear := modify cleared
  home := modify (moved 0 0)
  setCursor column row := modify (moved column row)
  write text := modify (written text.toList)
  readButtons g := (0, g)
  readSteps g := (0, g)
  resolution _ := 4
  capabilities _ := 0

end Grid

end FrontPanel
