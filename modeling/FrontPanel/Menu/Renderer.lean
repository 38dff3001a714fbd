import FrontPanel.Display.Basic
import FrontPanel.Menu.Layout
import FrontPanel.Menu.Window

/-!
# Drawing a menu

On a display with full graphics a menu is framed, and only what has changed since it was drawn last is
painted again:

* everything, if asked to clear;
* scroll bar, highlight and all lines, if the window has moved;
* scroll bar, the old and the new highlighted line, if only the highlight has moved;
* nothing otherwise.

On any other display every line is written again, with `>` in front of the highlighted row. A page that is
no menu is written without marks and highlights.
-/

namespace FrontPanel

set_option autoImplicit false

structure Content (σ : Type) where
  title : String := ""
  writeRow : Nat → Draw σ Unit

inductive Redraw where
  | full
  | window
  | lines
  | text
  | unchanged
  deriving DecidableEq

structure Renderer where
  layout : Layout
  fullGraphics : Bool
  textLines : Nat
  deriving DecidableEq

namespace Renderer

variable {σ : Type} [Display σ]

/-- The renderer for a display; one that has no size is taken to be of the standard size. -/
def forDisplay (s : σ) : Renderer where
  layout :=
    match Display.dimensions s with
    | .ok (width, height) => { width, height }
    | .error _ => {}
  fullGraphics := Display.hasFullGraphics s
  textLines := Display.textLines s

def visibleLines (r : Renderer) : Nat :=
  if r.fullGraphics then r.layout.visibleLines else r.textLines

def fill (x y width height : Nat) (mode : DrawMode) : Draw σ Unit :=
  if width = 0 ∨ height = 0 then pure () else Display.box x y width height mode

/-- The title bar with rounded corners, the border, and the title in erase mode. -/
def drawFrame (r : Renderer) (title : String) : Draw σ Unit := do
  let right := r.layout.width - 1
  Display.box 0 0 r.layout.width Layout.titleHeight .draw
  Display.vertical 0 Layout.titleHeight r.layout.sideLength .draw
  Display.vertical right Layout.titleHeight r.layout.sideLength .draw
  Display.horizontal 1 (r.layout.height - 1) (r.layout.width - 2) .draw
  Display.pixel 0 0 .erase
  Display.pixel right 0 .erase
  Display.setMode .erase
  Display.setCursorAt Layout.textX 1
  Display.write title
  Display.setMode .draw

/-- The line beside the scroll track, and the track above, at and below the thumb. -/
def drawScrollBar (r : Renderer) (w : Window) : Draw σ Unit := do
  let origin := Layout.trackTop
  let track := r.layout.trackLength
  let x := r.layout.thumbX
  let thumb := scrollThumb16 track w.capacity w.rows w.start
  let top := origin + thumb.1
  let bottom := min (top + thumb.2) (origin + track)
  Display.vertical r.layout.barX Layout.titleHeight r.layout.sideLength .draw
  fill x origin Layout.thumbWidth (top - origin) .erase
  fill x top Layout.thumbWidth (bottom - top) .draw
  fill x bottom Layout.thumbWidth (origin + track - bottom) .erase

def drawScrollBarIfNeeded (r : Renderer) (w : Window) : Draw σ Unit :=
  if w.scrolls then r.drawScrollBar w else pure ()

def drawHighlight (r : Renderer) (w : Window) (line : Nat) (mode : DrawMode) : Draw σ Unit :=
  Display.box 1 (Layout.lineTop line) (r.layout.highlightWidth w.scrolls) Layout.lineHeight mode

/-- The text of a row. On the highlight it is written in erase mode, and the mode is set back once the
text is written. -/
def drawRow (w : Window) (content : Content σ) (row : Nat) (highlighted : Bool) : Draw σ Unit := do
  Display.setCursorAt Layout.textX (Layout.textTop (row - w.start))
  if highlighted then
    Display.setMode .erase
    content.writeRow row
    Display.setMode .draw
  else content.writeRow row

/-- A row that is not highlighted, over whatever its line showed before: the edges that a highlight has
beyond the text, the text, and the rest of the line behind it. -/
def drawRowPadded (r : Renderer) (w : Window) (content : Content σ) (row : Nat) : Draw σ Unit := do
  let top := Layout.lineTop (row - w.start)
  Display.horizontal 1 top (r.layout.highlightWidth true) .erase
  Display.vertical 1 top Layout.lineHeight .erase
  drawRow w content row false
  let (x, y) ← Action.ofExcept (Display.cursor (← get))
  fill x y (r.layout.barX - x) Glyph.height .erase

def drawAll (r : Renderer) (w : Window) (content : Content σ) : Draw σ Unit := do
  Display.clear
  r.drawFrame content.title
  r.drawScrollBarIfNeeded w
  r.drawHighlight w (w.current - w.start) .invert
  w.visibleRows.forM fun row => drawRow w content row (row == w.current)

def drawMoved (r : Renderer) (w : Window) (content : Content σ) : Draw σ Unit := do
  r.drawScrollBarIfNeeded w
  r.drawHighlight w (w.current - w.start) .invert
  w.visibleRows.forM fun row =>
    if row = w.current then drawRow w content row true else r.drawRowPadded w content row

def drawHighlightMoved (r : Renderer) (w : Window) (content : Content σ) : Draw σ Unit := do
  r.drawScrollBarIfNeeded w
  match w.lineOf w.drawnCurrent with
  | some line =>
    r.drawHighlight w line .erase
    r.drawHighlight w (w.current - w.start) .draw
    drawRow w content w.drawnCurrent false
  | none => r.drawHighlight w (w.current - w.start) .draw
  drawRow w content w.current true

def redrawFramed (r : Renderer) (w : Window) (content : Content σ) (clear : Bool) :
    Draw σ Redraw := do
  if clear then
    r.drawAll w content
    return .full
  else if w.startChanged then
    r.drawMoved w content
    return .window
  else if w.currentChanged then
    r.drawHighlightMoved w content
    return .lines
  else return .unchanged

def redrawText (w : Window) (content : Content σ) (clear : Bool) : Draw σ Unit := do
  if clear then Display.clear
  w.visibleRows.forM fun row => do
    Display.setCursor 0 (row - w.start)
    Display.write (if row = w.current then ">" else " ")
    Display.setCursor 2 (row - w.start)
    content.writeRow row

def redrawPage (w : Window) (content : Content σ) (clear : Bool) : Draw σ Unit := do
  if clear then Display.clear
  w.visibleRows.forM fun row => do
    Display.setCursor 0 (row - w.start)
    content.writeRow row

def redraw (r : Renderer) (w : Window) (content : Content σ) (clear : Bool) : Draw σ Redraw :=
  if r.fullGraphics then r.redrawFramed w content clear
  else do
    redrawText w content clear
    return .text

/-- Redraws a menu and takes its window as drawn, also if the redraw was cut short by a failure. -/
def refresh (r : Renderer) (content : Content σ) (clear : Bool) :
    Action DisplayError (Window × σ) Redraw := fun (w, s) =>
  match r.redraw w content clear s with
  | .ok redraw s => .ok redraw (w.commit, s)
  | .error e s => .error e (w.commit, s)

end Renderer

end FrontPanel
