/-!
# The window over a menu

A menu shows a part of its rows and highlights one of them. The window moves only as far as it must to
keep the highlight in sight. It also remembers the pair of first row and highlight that was drawn last,
so that a redraw can tell what has changed.
-/

namespace FrontPanel

set_option autoImplicit false

structure Window where
  rows : Nat
  capacity : Nat
  start : Nat
  current : Nat
  /-- The first row as drawn last. -/
  drawnStart : Nat
  /-- The highlighted row as drawn last. -/
  drawnCurrent : Nat
  deriving DecidableEq

namespace Window

def ofRows (rows capacity : Nat) : Window := ⟨rows, capacity, 0, 0, 0, 0⟩

def shown (w : Window) : Nat := min w.capacity w.rows

def visibleRows (w : Window) : List Nat := List.range' w.start w.shown

def scrolls (w : Window) : Bool := w.capacity < w.rows

def startFor (w : Window) (row : Nat) : Nat :=
  let start :=
    if row < w.start then row
    else if 0 < w.shown ∧ w.start + w.shown ≤ row then row + 1 - w.shown
    else w.start
  min start (w.rows - w.shown)

/-- Highlights a row, the last one if there is no such row; tells whether the highlight moved. -/
def select (row : Nat) (w : Window) : Bool × Window :=
  if w.rows = 0 then (false, w)
  else
    let row := min row (w.rows - 1)
    (row != w.current, { w with start := w.startFor row, current := row })

/-- Moves the highlight, at most to either end; tells whether it moved. -/
def move (delta : Int) (w : Window) : Bool × Window :=
  if w.rows = 0 ∨ delta = 0 then (false, w)
  else w.select (max 0 (min (w.current + delta) (w.rows - 1))).toNat

def startChanged (w : Window) : Bool := w.start != w.drawnStart

def currentChanged (w : Window) : Bool := w.current != w.drawnCurrent

def commit (w : Window) : Window := { w with drawnStart := w.start, drawnCurrent := w.current }

/-- The screen line of a row, if it is in sight. -/
def lineOf (w : Window) (row : Nat) : Option Nat :=
  if w.start ≤ row ∧ row < w.start + w.shown then some (row - w.start) else none

end Window

end FrontPanel
