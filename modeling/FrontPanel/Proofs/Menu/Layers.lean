import FrontPanel.Menu.Renderer
import FrontPanel.Proofs.Tft.Painting

/-!
# The layers of a framed menu

What each part of a framed menu puts on the screen of the serial display, for rows whose text depends on
their number alone.
-/

namespace FrontPanel

set_option autoImplicit false

/-- Characters that only advance the cursor to the right. -/
def IsPlain (text : String) : Prop := ∀ c ∈ text.toList, c ≠ '\n' ∧ c ≠ '\r'

def Content.ofLabels {σ : Type} [Display σ] (title : String) (label : Nat → String) :
    Content σ where
  title := title
  writeRow row := Display.write (label row)

/-- What the picture of a menu depends on besides its window. -/
structure MenuLook where
  layout : Layout
  ink : Color
  paper : Color
  title : String
  label : Nat → String

namespace MenuLook

open Layer

variable (m : MenuLook)

def content {σ : Type} [Display σ] : Content σ := Content.ofLabels m.title m.label

structure Matches (d : Tft) : Prop where
  width : m.layout.width = d.width
  height : m.layout.height = d.height
  ink : m.ink = d.paint.foreground
  paper : m.paper = d.paint.background

def color (mode : DrawMode) : Color :=
  match mode with
  | .erase => m.paper
  | .draw | .invert => m.ink

def textColors (highlighted : Bool) : Color × Color :=
  if highlighted then (m.paper, m.ink) else (m.ink, m.paper)

def frame : Layer :=
  pile [
    rect 0 0 m.layout.width Layout.titleHeight m.ink,
    rect 0 Layout.titleHeight 1 m.layout.sideLength m.ink,
    rect (m.layout.width - 1) Layout.titleHeight 1 m.layout.sideLength m.ink,
    rect 1 (m.layout.height - 1) (m.layout.width - 2) 1 m.ink,
    rect 0 0 1 1 m.paper,
    rect (m.layout.width - 1) 0 1 1 m.paper,
    text (m.textColors true) Layout.textX 1 m.title.toList]

def scrollBar (w : Window) : Layer :=
  let origin := Layout.trackTop
  let track := m.layout.trackLength
  let thumb := scrollThumb16 track w.capacity w.rows w.start
  let top := origin + thumb.1
  let bottom := min (top + thumb.2) (origin + track)
  pile [
    rect m.layout.barX Layout.titleHeight 1 m.layout.sideLength m.ink,
    rect m.layout.thumbX origin Layout.thumbWidth (top - origin) m.paper,
    rect m.layout.thumbX top Layout.thumbWidth (bottom - top) m.ink,
    rect m.layout.thumbX bottom Layout.thumbWidth (origin + track - bottom) m.paper]

def scrollBarIfNeeded (w : Window) : Layer := if w.scrolls then m.scrollBar w else blank

def highlight (w : Window) (line : Nat) (color : Color) : Layer :=
  rect 1 (Layout.lineTop line) (m.layout.highlightWidth w.scrolls) Layout.lineHeight color

def row (w : Window) (highlighted : Bool) (row : Nat) : Layer :=
  text (m.textColors highlighted) Layout.textX (Layout.textTop (row - w.start)) (m.label row).toList

def rowEnd (row : Nat) : Nat := Glyph.textEnd Layout.textX (m.label row).toList

def rowPadded (w : Window) (row : Nat) : Layer :=
  let top := Layout.lineTop (row - w.start)
  pile [
    rect 1 top (m.layout.highlightWidth true) 1 m.paper,
    rect 1 top 1 Layout.lineHeight m.paper,
    m.row w false row,
    rect (m.rowEnd row) (Layout.textTop (row - w.start)) (m.layout.barX - m.rowEnd row) Glyph.height
      m.paper]

def all (w : Window) : Layer :=
  pile [
    rect 0 0 m.layout.width m.layout.height m.paper,
    m.frame,
    m.scrollBarIfNeeded w,
    m.highlight w (w.current - w.start) m.ink,
    pile (w.visibleRows.map fun row => m.row w (row == w.current) row)]

def moved (w : Window) : Layer :=
  pile [
    m.scrollBarIfNeeded w,
    m.highlight w (w.current - w.start) m.ink,
    pile (w.visibleRows.map fun row =>
      if row = w.current then m.row w true row else m.rowPadded w row)]

def highlightMoved (w : Window) (line : Nat) : Layer :=
  pile [
    m.scrollBarIfNeeded w,
    m.highlight w line m.paper,
    m.highlight w (w.current - w.start) m.ink,
    m.row w false w.drawnCurrent,
    m.row w true w.current]

end MenuLook

namespace Renderer

open Tft

def Drawing (pen : Pen) : Prop := pen.mode = .draw

section Parts

variable {memory : Nat → Nat → Color} {d : Tft} (hd : d.Ready) {m : MenuLook} (hm : m.Matches d)
variable {P : Pen → Prop}
include hd hm

theorem fillArea_look (x y width height : Nat) (mode : DrawMode) :
    Draws memory d P (fillArea x y width height mode) (fun _ => P)
      (Layer.rect x y width height (m.color mode)) := by
  have hcolor : d.paint.areaColor mode = m.color mode := by
    cases mode
    · exact hm.paper.symm
    · exact hm.ink.symm
    · exact hm.ink.symm
  exact hcolor ▸ fillArea_draws hd x y width height mode

theorem fill_draws (x y width height : Nat) (mode : DrawMode) :
    Draws memory d P (fill x y width height mode) (fun _ => P)
      (Layer.rect x y width height (m.color mode)) := by
  unfold fill
  refine Draws.ite (fun hempty => ?_) fun _ => fillArea_look hd hm x y width height mode
  refine (Draws.pure (Q := fun _ => P) fun _ h => h).congr fun px py _ _ => ?_
  exact (Layer.rect_of_not_mem _ (by omega)).symm

omit hd hm in
theorem setMode_draws (mode : DrawMode) :
    Draws memory d P (Display.setMode mode : Draw Tft Unit) (fun _ pen => pen.mode = mode)
      Layer.blank :=
  Draws.move (g := fun pen => { pen with mode := mode }) (fun _ => rfl) fun _ _ => rfl

omit hd hm in
theorem setCursorAt_draws {mode : DrawMode} (hP : ∀ pen, P pen → pen.mode = mode) (x y : Nat) :
    Draws memory d P (Display.setCursorAt x y : Draw Tft Unit) (fun _ => (· = ⟨mode, x, y⟩))
      Layer.blank := by
  refine Draws.move (g := fun pen => { pen with x := x, y := y }) (fun _ => rfl) fun pen hpen => ?_
  rw [← hP pen hpen]

def textMode (highlighted : Bool) : DrawMode := if highlighted then .erase else .draw

theorem write_draws (highlighted : Bool) {text : String} (htext : IsPlain text) (x y : Nat) :
    Draws memory d (· = ⟨textMode highlighted, x, y⟩) (Display.write text : Draw Tft Unit)
      (fun _ => (· = ⟨textMode highlighted, Glyph.textEnd x text.toList, y⟩))
      (Layer.text (m.textColors highlighted) x y text.toList) := by
  have hcolors : d.modeColors (textMode highlighted) = m.textColors highlighted := by
    cases highlighted
    · simp only [MenuLook.textColors, hm.ink, hm.paper]
      rfl
    · simp only [MenuLook.textColors, hm.ink, hm.paper]
      rfl
  rw [← hcolors]
  exact (drawText_draws hd _ x y htext).failingAs

theorem drawFrame_draws {r : Renderer} (hr : r.layout = m.layout) (htitle : IsPlain m.title) :
    Draws memory d Drawing (r.drawFrame m.title) (fun _ => Drawing) m.frame := by
  unfold drawFrame
  rw [hr]
  refine Draws.bind (fillArea_look hd hm _ _ _ _ _) fun _ => ?_
  refine Draws.bind (fillArea_look hd hm _ _ _ _ _) fun _ => ?_
  refine Draws.bind (fillArea_look hd hm _ _ _ _ _) fun _ => ?_
  refine Draws.bind (fillArea_look hd hm _ _ _ _ _) fun _ => ?_
  refine Draws.bind (fillArea_look hd hm _ _ _ _ _) fun _ => ?_
  refine Draws.bind (fillArea_look hd hm _ _ _ _ _) fun _ => ?_
  refine Draws.bind_blank (setMode_draws _) fun _ => ?_
  refine Draws.bind_blank (setCursorAt_draws (fun _ h => h) _ _) fun _ => ?_
  refine Draws.bind (write_draws hd hm true htitle _ _) fun _ => ?_
  exact setMode_draws _

theorem drawScrollBar_draws {r : Renderer} (hr : r.layout = m.layout) (w : Window) :
    Draws memory d P (r.drawScrollBar w) (fun _ => P) (m.scrollBar w) := by
  unfold drawScrollBar
  rw [hr]
  refine Draws.bind (fillArea_look hd hm _ _ _ _ _) fun _ => ?_
  refine Draws.bind (fill_draws hd hm _ _ _ _ _) fun _ => ?_
  refine Draws.bind (fill_draws hd hm _ _ _ _ _) fun _ => ?_
  exact fill_draws hd hm _ _ _ _ _

theorem drawScrollBarIfNeeded_draws {r : Renderer} (hr : r.layout = m.layout) (w : Window) :
    Draws memory d P (r.drawScrollBarIfNeeded w) (fun _ => P) (m.scrollBarIfNeeded w) := by
  unfold drawScrollBarIfNeeded MenuLook.scrollBarIfNeeded
  split
  · exact drawScrollBar_draws hd hm hr w
  · exact Draws.pure fun _ h => h

theorem drawHighlight_draws {r : Renderer} (hr : r.layout = m.layout) (w : Window) (line : Nat)
    (mode : DrawMode) :
    Draws memory d P (r.drawHighlight w line mode) (fun _ => P)
      (m.highlight w line (m.color mode)) := by
  unfold drawHighlight
  rw [hr]
  exact fillArea_look hd hm _ _ _ _ _

theorem drawRow_draws (w : Window) (highlighted : Bool) {row : Nat} (hrow : IsPlain (m.label row)) :
    Draws memory d Drawing (drawRow w m.content row highlighted)
      (fun _ pen => Drawing pen ∧ (highlighted = false →
        pen.x = m.rowEnd row ∧ pen.y = Layout.textTop (row - w.start)))
      (m.row w highlighted row) := by
  unfold drawRow
  refine Draws.bind_blank (setCursorAt_draws (fun _ h => h) _ _) fun _ => ?_
  cases highlighted
  · refine (write_draws hd hm false hrow _ _).mono (fun _ h => h) ?_
    rintro _ _ rfl
    exact ⟨rfl, fun _ => ⟨rfl, rfl⟩⟩
  · refine Draws.bind_blank
      (Q := fun _ => (· = ⟨textMode true, Layout.textX, Layout.textTop (row - w.start)⟩))
      (Draws.move (g := fun pen => { pen with mode := .erase }) (fun _ => rfl) ?_) fun _ => ?_
    · rintro _ rfl
      rfl
    · refine Draws.bind_end (write_draws hd hm true hrow _ _) fun _ => ?_
      exact (setMode_draws .draw).mono (fun _ h => h) fun _ _ h => ⟨h, fun hf => by cases hf⟩

theorem drawRowPadded_draws {r : Renderer} (hr : r.layout = m.layout) (w : Window) {row : Nat}
    (hrow : IsPlain (m.label row)) :
    Draws memory d Drawing (r.drawRowPadded w m.content row) (fun _ => Drawing)
      (m.rowPadded w row) := by
  unfold drawRowPadded
  rw [hr]
  refine Draws.bind (fillArea_look hd hm _ _ _ _ _) fun _ => ?_
  refine Draws.bind (fillArea_look hd hm _ _ _ _ _) fun _ => ?_
  refine Draws.bind (drawRow_draws hd hm w false hrow) fun _ => ?_
  -- the rest of the line starts at the cursor that the text has left
  refine Draws.get_bind fun t pen hpen ht => ?_
  have hcursor : Display.cursor t = .ok (m.rowEnd row, Layout.textTop (row - w.start)) := by
    obtain ⟨hx, hy⟩ := hpen.2 rfl
    rw [ht, ← hx, ← hy]
    rfl
  rw [hcursor]
  refine Draws.bind_blank (Q := fun a pen' =>
      a = (m.rowEnd row, Layout.textTop (row - w.start)) ∧ Drawing pen') (Draws.pure ?_) fun a => ?_
  · rintro _ rfl
    exact ⟨rfl, hpen.1⟩
  · intro pen' s ⟨ha, hpen'⟩
    subst ha
    exact fill_draws hd hm _ _ _ _ _ pen' s hpen'

theorem clear_draws :
    Draws memory d Drawing (Display.clear : Draw Tft Unit) (fun _ => Drawing)
      (Layer.rect 0 0 m.layout.width m.layout.height m.paper) := by
  rw [hm.width, hm.height, hm.paper]
  apply Draws.failingAs
  unfold clear
  refine Draws.get_bind fun t pen hpen ht => ?_
  have hw : t.width = d.width := by rw [ht]
  have hh : t.height = d.height := by rw [ht]
  have hcolor : t.paint.background = d.paint.background := by
    rw [ht]
    rfl
  rw [hw, hh, hcolor]
  refine Draws.bind_end (fillRect_draws hd _ _ _ _ _) fun _ => ?_
  apply Draws.move (g := fun pen => { pen with x := 0, y := 0 })
  · intro pen
    rfl
  · rintro pen rfl
    exact hpen

variable {r : Renderer} (hr : r.layout = m.layout) {w : Window}
include hr

theorem drawAll_draws (htitle : IsPlain m.title)
    (hrows : ∀ row ∈ w.visibleRows, IsPlain (m.label row)) :
    Draws memory d Drawing (r.drawAll w m.content) (fun _ => Drawing) (m.all w) := by
  unfold drawAll
  rw [MenuLook.all]
  refine Draws.bind (clear_draws hd hm) fun _ => ?_
  refine Draws.bind (drawFrame_draws hd hm hr htitle) fun _ => ?_
  refine Draws.bind (drawScrollBarIfNeeded_draws hd hm hr w) fun _ => ?_
  refine Draws.bind (drawHighlight_draws hd hm hr w _ .invert) fun _ => ?_
  apply Draws.forM
  intro row hrow
  exact (drawRow_draws hd hm w _ (hrows row hrow)).mono (fun _ h => h) fun _ _ h => h.1

theorem drawMoved_draws (hrows : ∀ row ∈ w.visibleRows, IsPlain (m.label row)) :
    Draws memory d Drawing (r.drawMoved w m.content) (fun _ => Drawing) (m.moved w) := by
  unfold drawMoved
  rw [MenuLook.moved]
  refine Draws.bind (drawScrollBarIfNeeded_draws hd hm hr w) fun _ => ?_
  refine Draws.bind (drawHighlight_draws hd hm hr w _ .invert) fun _ => ?_
  apply Draws.forM
  intro row hrow
  by_cases h : row = w.current
  · rw [if_pos h, if_pos h]
    exact (drawRow_draws hd hm w true (hrows row hrow)).mono (fun _ h => h) fun _ _ h => h.1
  · rw [if_neg h, if_neg h]
    exact drawRowPadded_draws hd hm hr w (hrows row hrow)

theorem drawHighlightMoved_draws {line : Nat} (hline : w.lineOf w.drawnCurrent = some line)
    (hold : IsPlain (m.label w.drawnCurrent)) (hnew : IsPlain (m.label w.current)) :
    Draws memory d Drawing (r.drawHighlightMoved w m.content) (fun _ => Drawing)
      (m.highlightMoved w line) := by
  unfold drawHighlightMoved
  rw [MenuLook.highlightMoved, hline]
  refine Draws.bind (drawScrollBarIfNeeded_draws hd hm hr w) fun _ => ?_
  refine Draws.bind (drawHighlight_draws hd hm hr w line .erase) fun _ => ?_
  refine Draws.bind (drawHighlight_draws hd hm hr w _ .draw) fun _ => ?_
  refine Draws.bind (drawRow_draws hd hm w false hold) fun _ => ?_
  apply (drawRow_draws hd hm w true hnew).mono
  · intro pen h
    exact h.1
  · intro _ pen h
    exact h.1

end Parts

end Renderer

end FrontPanel
