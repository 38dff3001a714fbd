import FrontPanel.Display.Glyphs

/-!
# The layout of a framed menu

A title bar on top, a border on the other sides, text lines with one pixel above each, and a scroll bar at
the right edge. On a screen too small for one of these parts, its size or place stops at zero.
-/

namespace FrontPanel

set_option autoImplicit false

structure Layout where
  width : Nat := 128
  height : Nat := 64
  deriving DecidableEq

namespace Layout

/-- Height of a line: a character and one pixel of highlight above it. -/
def lineHeight : Nat := Glyph.height + 1

def titleHeight : Nat := lineHeight

def textX : Nat := 2

def visibleLines (l : Layout) : Nat := (l.height - (titleHeight + 1)) / lineHeight

def lineTop (line : Nat) : Nat := titleHeight + lineHeight * line

def textTop (line : Nat) : Nat := lineTop line + 1

def trackTop : Nat := titleHeight + 1

def trackLength (l : Layout) : Nat := l.height - (titleHeight + 3)

def barX (l : Layout) : Nat := l.width - 6

def thumbX (l : Layout) : Nat := l.width - 4

def thumbWidth : Nat := 2

/-- Width of a highlight, beside a scroll bar or without one. -/
def highlightWidth (l : Layout) (beside : Bool) : Nat :=
  if beside then l.width - 7 else l.width - 2

def sideLength (l : Layout) : Nat := l.height - (titleHeight + 1)

end Layout

/-- Where the thumb of a scroll bar begins on its track, and how long it is. The length is rounded up, so
that the thumb never understates how much is in sight. -/
def scrollThumb (track capacity rows start : Nat) : Nat × Nat :=
  if rows = 0 then (0, track)
  else
    let scaled := track * capacity
    (track * start / rows, scaled / rows + if 0 < scaled % rows then 1 else 0)

/-- The thumb in sixteen bits. -/
def scrollThumb16 (track capacity rows start : Nat) : Nat × Nat :=
  let thumb := scrollThumb track capacity rows start
  (thumb.1 % 65536, thumb.2 % 65536)

theorem scrollThumb_offset_le {track capacity rows start : Nat} (h : start ≤ rows) :
    (scrollThumb track capacity rows start).1 ≤ track := by
  unfold scrollThumb
  split
  · exact Nat.zero_le track
  · refine Nat.div_le_of_le_mul ?_
    rw [Nat.mul_comm rows]
    exact Nat.mul_le_mul_left track h

theorem scrollThumb16_offset_le {track capacity rows start : Nat} (h : start ≤ rows) :
    (scrollThumb16 track capacity rows start).1 ≤ track :=
  Nat.le_trans (Nat.mod_le _ _) (scrollThumb_offset_le h)

end FrontPanel
