import FrontPanel.Proofs.Menu.ScrollBar

/-!
# A framed menu in checked arithmetic

The redraws of a framed menu once more, with every sum, product and difference of coordinates checked to
stay within sixteen bits; differences that stop at zero need no check. On a layout that holds the lines of
the window they are the redraws of the renderer: no check fails, whatever is redrawn.
-/

namespace FrontPanel

set_option autoImplicit false

open FrontPanel.Number

namespace Layout

def lineTop? (line : Nat) : Option Nat := do
  let below ← product? lineHeight line
  sum? titleHeight below

def textTop? (line : Nat) : Option Nat := do
  let top ← lineTop? line
  sum? top 1

/-- There is room on the layout for at least one line, and for all lines of the window. -/
structure Holds (l : Layout) (w : Window) : Prop where
  width : 8 ≤ l.width
  height : l.height < 65536
  lines : 0 < l.visibleLines
  sound : w.Sound
  capacity : w.capacity = l.visibleLines

/-- The bottom border stays free below the last line. -/
theorem lineTop_add_lt {l : Layout} {line : Nat} (h : line < l.visibleLines) :
    lineTop line + lineHeight < l.height := by
  simp only [visibleLines, lineTop, titleHeight, lineHeight, Glyph.height] at h ⊢
  omega

theorem lineTop?_eq {line : Nat} (h : lineTop line < 65536) : lineTop? line = some (lineTop line) := by
  have hbelow : lineHeight * line < 65536 := (Nat.le_add_left _ _).trans_lt h
  unfold lineTop?
  rw [product?_eq hbelow]
  exact sum?_eq h

theorem textTop?_eq {line : Nat} (h : textTop line < 65536) : textTop? line = some (textTop line) := by
  unfold textTop?
  rw [lineTop?_eq ((Nat.le_add_right _ _).trans_lt h)]
  exact sum?_eq h

namespace Holds

variable {l : Layout} {w : Window}

theorem shown_le (h : l.Holds w) : w.shown ≤ l.visibleLines :=
  h.capacity ▸ Nat.min_le_left w.capacity w.rows

theorem current_line (h : l.Holds w) : w.start ≤ w.current ∧ w.current - w.start < l.visibleLines := by
  have hshown := h.shown_le
  have hlines := h.lines
  have hbounds := h.sound.bounds.shown_le
  by_cases hrows : 0 < w.rows
  · obtain ⟨hle, hlt⟩ := h.sound.bounds.inSight hrows (h.capacity ▸ h.lines)
    omega
  · have hcurrent := h.sound.bounds.current_eq (Nat.eq_zero_of_not_pos hrows)
    omega

theorem row_line (h : l.Holds w) {row : Nat} (hrow : row ∈ w.visibleRows) :
    w.start ≤ row ∧ row - w.start < l.visibleLines := by
  have hshown := h.shown_le
  have hmem := Window.mem_visibleRows.mp hrow
  omega

theorem lineOf_line (h : l.Holds w) {row line : Nat} (hline : w.lineOf row = some line) :
    row ∈ w.visibleRows ∧ line < l.visibleLines := by
  unfold Window.lineOf at hline
  split at hline
  · next hmem =>
    have hrow := Window.mem_visibleRows.mpr hmem
    cases hline
    exact ⟨hrow, (h.row_line hrow).2⟩
  · cases hline

theorem lineTop?_eq (h : l.Holds w) {line : Nat} (hline : line < l.visibleLines) :
    lineTop? line = some (lineTop line) := by
  have hlt := lineTop_add_lt hline
  have hheight := h.height
  exact Layout.lineTop?_eq (by omega)

theorem textTop?_eq (h : l.Holds w) {line : Nat} (hline : line < l.visibleLines) :
    textTop? line = some (textTop line) := by
  have hlt := lineTop_add_lt hline
  have hheight := h.height
  exact Layout.textTop?_eq (by simp only [textTop, lineHeight] at hlt ⊢; omega)

end Holds

end Layout

namespace Renderer

variable {σ : Type} [Display σ]

def drawScrollBarIfNeeded? (r : Renderer) (w : Window) : Option (Draw σ Unit) :=
  if w.scrolls then do
    let parts ← r.layout.stretches? w
    return do
      Display.vertical r.layout.barX Layout.titleHeight r.layout.sideLength .draw
      parts.forM fun p => fill r.layout.thumbX p.top Layout.thumbWidth p.length p.mode
  else return pure ()

def drawHighlight? (r : Renderer) (w : Window) (line : Nat) (mode : DrawMode) :
    Option (Draw σ Unit) := do
  let top ← Layout.lineTop? line
  return Display.box 1 top (r.layout.highlightWidth w.scrolls) Layout.lineHeight mode

def drawRow? (w : Window) (content : Content σ) (row : Nat) (highlighted : Bool) :
    Option (Draw σ Unit) := do
  let line ← difference? row w.start
  let top ← Layout.textTop? line
  return do
    Display.setCursorAt Layout.textX top
    if highlighted then
      Display.setMode .erase
      content.writeRow row
      Display.setMode .draw
    else content.writeRow row

def drawRowPadded? (r : Renderer) (w : Window) (content : Content σ) (row : Nat) :
    Option (Draw σ Unit) := do
  let line ← difference? row w.start
  let top ← Layout.lineTop? line
  let text ← drawRow? w content row false
  return do
    Display.horizontal 1 top (r.layout.highlightWidth true) .erase
    Display.vertical 1 top Layout.lineHeight .erase
    text
    let (x, y) ← Action.ofExcept (Display.cursor (← get))
    fill x y (r.layout.barX - x) Glyph.height .erase

/-- Everything, with the highlight on the given line. -/
def drawAll? (r : Renderer) (w : Window) (content : Content σ) (line : Nat) :
    Option (Draw σ Unit) := do
  let bar ← r.drawScrollBarIfNeeded? w
  let highlight ← r.drawHighlight? w line .invert
  let rows ← w.visibleRows?
  let texts ← rows.mapM fun row => drawRow? w content row (row == w.current)
  return do
    Display.clear
    r.drawFrame content.title
    bar
    highlight
    texts.forM id

def drawMoved? (r : Renderer) (w : Window) (content : Content σ) (line : Nat) :
    Option (Draw σ Unit) := do
  let bar ← r.drawScrollBarIfNeeded? w
  let highlight ← r.drawHighlight? w line .invert
  let rows ← w.visibleRows?
  let texts ← rows.mapM fun row =>
    if row = w.current then drawRow? w content row true else r.drawRowPadded? w content row
  return do
    bar
    highlight
    texts.forM id

def drawHighlightMoved? (r : Renderer) (w : Window) (content : Content σ) (line : Nat) :
    Option (Draw σ Unit) := do
  let bar ← r.drawScrollBarIfNeeded? w
  let highlight ← r.drawHighlight? w line .draw
  let text ← drawRow? w content w.current true
  match ← w.lineOf? w.drawnCurrent with
  | some old => do
    let erased ← r.drawHighlight? w old .erase
    let before ← drawRow? w content w.drawnCurrent false
    return do
      bar
      erased
      highlight
      before
      text
  | none => return do
      bar
      highlight
      text

def redrawFramed? (r : Renderer) (w : Window) (content : Content σ) (clear : Bool) :
    Option (Draw σ Redraw) := do
  let line ← difference? w.current w.start
  if clear then
    let all ← r.drawAll? w content line
    return do
      all
      return .full
  else if w.startChanged then
    let moved ← r.drawMoved? w content line
    return do
      moved
      return .window
  else if w.currentChanged then
    let moved ← r.drawHighlightMoved? w content line
    return do
      moved
      return .lines
  else return return .unchanged

theorem mapM_eq_map {α β : Type} {f : α → Option β} {g : α → β} {items : List α}
    (h : ∀ i ∈ items, f i = some (g i)) : items.mapM f = some (items.map g) := by
  induction items with
  | nil => rfl
  | cons i items ih =>
    obtain ⟨hi, hitems⟩ := List.forall_mem_cons.mp h
    rw [List.mapM_cons, hi, ih hitems]
    rfl

variable {r : Renderer} {w : Window} (h : r.layout.Holds w)
include h

theorem drawScrollBarIfNeeded?_eq :
    r.drawScrollBarIfNeeded? w = some (r.drawScrollBarIfNeeded w : Draw σ Unit) := by
  unfold drawScrollBarIfNeeded? drawScrollBarIfNeeded
  split
  · next hscrolls =>
    obtain ⟨hrows, hend⟩ := h.sound.end_le_rows hscrolls
    rw [Layout.stretches?_eq hrows hend h.sound.rows_lt h.height, drawScrollBar_eq r hrows hend]
    rfl
  · rfl

theorem drawHighlight?_eq {line : Nat} (hline : line < r.layout.visibleLines) (mode : DrawMode) :
    r.drawHighlight? w line mode = some (r.drawHighlight w line mode : Draw σ Unit) := by
  unfold drawHighlight?
  rw [h.lineTop?_eq hline]
  rfl

variable (content : Content σ)

theorem drawRow?_eq {row : Nat} (hrow : w.start ≤ row ∧ row - w.start < r.layout.visibleLines)
    (highlighted : Bool) :
    drawRow? w content row highlighted = some (drawRow w content row highlighted) := by
  unfold drawRow?
  rw [difference?_eq hrow.1]
  change (Layout.textTop? (row - w.start) >>= _) = _
  rw [h.textTop?_eq hrow.2]
  rfl

theorem drawRowPadded?_eq {row : Nat}
    (hrow : w.start ≤ row ∧ row - w.start < r.layout.visibleLines) :
    r.drawRowPadded? w content row = some (r.drawRowPadded w content row) := by
  unfold drawRowPadded?
  rw [drawRow?_eq h content hrow, difference?_eq hrow.1]
  change (Layout.lineTop? (row - w.start) >>= _) = _
  rw [h.lineTop?_eq hrow.2]
  rfl

theorem drawAll?_eq :
    r.drawAll? w content (w.current - w.start) = some (r.drawAll w content) := by
  have hrows : (w.visibleRows.mapM fun row => drawRow? w content row (row == w.current)) =
      some (w.visibleRows.map fun row => drawRow w content row (row == w.current)) :=
    mapM_eq_map fun row hrow => drawRow?_eq h content (h.row_line hrow) _
  unfold drawAll? drawAll
  simp only [drawScrollBarIfNeeded?_eq h, drawHighlight?_eq h h.current_line.2,
    Window.visibleRows?_eq h.sound, hrows, Option.bind_eq_bind, Option.bind_some, Option.pure_def,
    List.forM_eq_forM, List.forM_map, id]

theorem drawMoved?_eq :
    r.drawMoved? w content (w.current - w.start) = some (r.drawMoved w content) := by
  have hrows : (w.visibleRows.mapM fun row =>
      if row = w.current then drawRow? w content row true else r.drawRowPadded? w content row) =
      some (w.visibleRows.map fun row =>
        if row = w.current then drawRow w content row true else r.drawRowPadded w content row) := by
    apply mapM_eq_map
    intro row hrow
    rw [drawRow?_eq h content (h.row_line hrow), drawRowPadded?_eq h content (h.row_line hrow)]
    split <;> rfl
  unfold drawMoved? drawMoved
  simp only [drawScrollBarIfNeeded?_eq h, drawHighlight?_eq h h.current_line.2,
    Window.visibleRows?_eq h.sound, hrows, Option.bind_eq_bind, Option.bind_some, Option.pure_def,
    List.forM_eq_forM, List.forM_map, id]

theorem drawHighlightMoved?_eq :
    r.drawHighlightMoved? w content (w.current - w.start) = some (r.drawHighlightMoved w content) := by
  have hcurrent := drawRow?_eq h content h.current_line true
  unfold drawHighlightMoved? drawHighlightMoved
  simp only [drawScrollBarIfNeeded?_eq h, drawHighlight?_eq h h.current_line.2, hcurrent,
    Window.lineOf?_eq h.sound, Option.bind_eq_bind, Option.bind_some, Option.pure_def]
  cases hline : w.lineOf w.drawnCurrent with
  | none => rfl
  | some old =>
    obtain ⟨hrow, hold⟩ := h.lineOf_line hline
    have hbefore := drawRow?_eq h content (h.row_line hrow) false
    simp only [drawHighlight?_eq h hold, hbefore, Option.bind_some]

/-- No sum, product or difference leaves sixteen bits in a redraw of a window on a layout that holds it. -/
theorem redrawFramed?_eq (clear : Bool) :
    r.redrawFramed? w content clear = some (r.redrawFramed w content clear) := by
  unfold redrawFramed? redrawFramed
  rw [difference?_eq h.current_line.1]
  simp only [drawAll?_eq h, drawMoved?_eq h, drawHighlightMoved?_eq h, Option.bind_eq_bind,
    Option.bind_some, Option.pure_def]
  split
  · rfl
  split
  · rfl
  split <;> rfl

end Renderer

end FrontPanel
