import FrontPanel.Proofs.Display.Observed
import FrontPanel.Proofs.Menu.Mode
import FrontPanel.Proofs.Menu.Scroll

/-!
# What a redraw asks for

Which redraw a window is due, and the rows that its content is asked for, whatever the display and the
content are. That the row highlighted before is still in sight when only the highlight has moved is no
check of the redraw; it holds because the pair drawn last is within the bounds of the window.
-/

namespace FrontPanel

set_option autoImplicit false

open FrontPanel.Action

/-- If only the highlight has moved, the row that was highlighted before is still in sight. -/
theorem Window.Sound.drawnCurrent_line {w : Window} (h : w.Sound) (hcapacity : 0 < w.capacity)
    (hstart : w.startChanged = false) (hcurrent : w.currentChanged = true) :
    ∃ line, w.lineOf w.drawnCurrent = some line := by
  have hsame : w.drawnStart = w.start := (bne_eq_false_iff_eq.mp hstart).symm
  have hmoved : w.current ≠ w.drawnCurrent := bne_iff_ne.mp hcurrent
  have hrows : 0 < w.rows := by
    apply Nat.pos_of_ne_zero
    intro hnone
    exact hmoved ((h.bounds.current_eq hnone).trans (h.drawnBounds.current_eq hnone).symm)
  have hdrawn : w.drawn.Valid := h.drawnBounds.valid hrows hcapacity
  exact ⟨_, if_pos (Window.mem_visibleRows.mp (hdrawn.drawnCurrent_mem hsame))⟩

namespace Renderer

/-- Rows that are asked for one by one are asked for in order. -/
theorem forM_observes {σ : Type} {f : Nat → Draw (Observed σ) PUnit} {g : Nat → Draw σ PUnit}
    (rows : List Nat) (h : ∀ row, Observes (f row) (g row) [row]) :
    Observes (rows.forM f) (rows.forM g) rows := by
  have hrows : Observes (rows.forM f) (rows.forM g) (rows.flatMap fun row => [row]) :=
    Observes.forM fun row _ => h row
  rwa [List.flatMap_singleton'] at hrows

variable {σ : Type} [Display σ]

theorem fill_observes (x y width height : Nat) (mode : DrawMode) :
    Observes (fill x y width height mode) (fill x y width height mode : Draw σ Unit) [] :=
  Observes.ite (fun _ => Observes.pure _) fun _ => Observes.noting _ _

theorem drawFrame_observes (r : Renderer) (title : String) :
    Observes (r.drawFrame title) (r.drawFrame title : Draw σ Unit) [] := by
  unfold drawFrame
  refine Observes.bind_quiet (Observes.noting _ _) fun _ => ?_
  refine Observes.bind_quiet (Observes.noting _ _) fun _ => ?_
  refine Observes.bind_quiet (Observes.noting _ _) fun _ => ?_
  refine Observes.bind_quiet (Observes.noting _ _) fun _ => ?_
  refine Observes.bind_quiet (Observes.noting _ _) fun _ => ?_
  refine Observes.bind_quiet (Observes.noting _ _) fun _ => ?_
  refine Observes.bind_quiet (Observes.noting _ _) fun _ => ?_
  refine Observes.bind_quiet (Observes.noting _ _) fun _ => ?_
  refine Observes.bind_quiet (Observes.noting _ _) fun _ => ?_
  exact Observes.noting _ _

theorem drawScrollBarIfNeeded_observes (r : Renderer) (w : Window) :
    Observes (r.drawScrollBarIfNeeded w) (r.drawScrollBarIfNeeded w : Draw σ Unit) [] := by
  refine Observes.ite (fun _ => ?_) fun _ => Observes.pure _
  unfold drawScrollBar
  refine Observes.bind_quiet (Observes.noting _ _) fun _ => ?_
  refine Observes.bind_quiet (fill_observes _ _ _ _ _) fun _ => ?_
  refine Observes.bind_quiet (fill_observes _ _ _ _ _) fun _ => ?_
  exact fill_observes _ _ _ _ _

theorem drawHighlight_observes (r : Renderer) (w : Window) (line : Nat) (mode : DrawMode) :
    Observes (r.drawHighlight w line mode) (r.drawHighlight w line mode : Draw σ Unit) [] :=
  Observes.noting _ _

theorem drawRow_observes (w : Window) (content : Content σ) (row : Nat) (highlighted : Bool) :
    Observes (drawRow w content.observed row highlighted) (drawRow w content row highlighted)
      [row] := by
  unfold drawRow
  refine Observes.bind_quiet (Observes.noting _ _) fun _ => ?_
  refine Observes.ite (fun _ => ?_) fun _ => Observes.noting _ _
  refine Observes.bind_quiet (Observes.noting _ _) fun _ => ?_
  exact Observes.bind_last (Observes.noting _ _) fun _ => Observes.noting _ _

theorem drawRowPadded_observes (r : Renderer) (w : Window) (content : Content σ) (row : Nat) :
    Observes (r.drawRowPadded w content.observed row) (r.drawRowPadded w content row) [row] := by
  unfold drawRowPadded
  refine Observes.bind_quiet (Observes.noting _ _) fun _ => ?_
  refine Observes.bind_quiet (Observes.noting _ _) fun _ => ?_
  refine Observes.bind_last (drawRow_observes w content row false) fun _ => ?_
  refine Observes.get_bind fun s seen => ?_
  exact Observes.bind_quiet (Observes.ofExcept _) fun _ => fill_observes _ _ _ _ _

theorem drawAll_observes (r : Renderer) (w : Window) (content : Content σ) :
    Observes (r.drawAll w content.observed) (r.drawAll w content) w.visibleRows := by
  unfold drawAll
  refine Observes.bind_quiet (Observes.noting _ _) fun _ => ?_
  refine Observes.bind_quiet (drawFrame_observes r content.title) fun _ => ?_
  refine Observes.bind_quiet (drawScrollBarIfNeeded_observes r w) fun _ => ?_
  refine Observes.bind_quiet (drawHighlight_observes r w _ _) fun _ => ?_
  exact forM_observes _ fun row => drawRow_observes w content row _

theorem drawMoved_observes (r : Renderer) (w : Window) (content : Content σ) :
    Observes (r.drawMoved w content.observed) (r.drawMoved w content) w.visibleRows := by
  unfold drawMoved
  refine Observes.bind_quiet (drawScrollBarIfNeeded_observes r w) fun _ => ?_
  refine Observes.bind_quiet (drawHighlight_observes r w _ _) fun _ => ?_
  refine forM_observes _ fun row => ?_
  exact Observes.ite (fun _ => drawRow_observes w content row true) fun _ =>
    drawRowPadded_observes r w content row

theorem drawHighlightMoved_observes (r : Renderer) {w : Window} (content : Content σ) {line : Nat}
    (hline : w.lineOf w.drawnCurrent = some line) :
    Observes (r.drawHighlightMoved w content.observed) (r.drawHighlightMoved w content)
      [w.drawnCurrent, w.current] := by
  unfold drawHighlightMoved
  simp only [hline]
  refine Observes.bind_quiet (drawScrollBarIfNeeded_observes r w) fun _ => ?_
  refine Observes.bind_quiet (drawHighlight_observes r w _ _) fun _ => ?_
  refine Observes.bind_quiet (drawHighlight_observes r w _ _) fun _ => ?_
  refine Observes.bind (drawRow_observes w content w.drawnCurrent false) fun _ => ?_
  exact drawRow_observes w content w.current true

def rowsDue (w : Window) (clear : Bool) : List Nat :=
  match redrawDue w clear with
  | .full | .window | .text => w.visibleRows
  | .lines => [w.drawnCurrent, w.current]
  | .unchanged => []

theorem redrawFramed_observes (r : Renderer) {w : Window} (content : Content σ) (clear : Bool)
    (hsight : w.startChanged = false → w.currentChanged = true →
      ∃ line, w.lineOf w.drawnCurrent = some line) :
    Observes (r.redrawFramed w content.observed clear) (r.redrawFramed w content clear)
      (rowsDue w clear) := by
  unfold redrawFramed rowsDue redrawDue
  cases clear with
  | true => exact Observes.bind_last (drawAll_observes r w content) fun _ => Observes.pure _
  | false =>
    simp only [Bool.false_eq_true, if_false]
    cases hstart : w.startChanged with
    | true => exact Observes.bind_last (drawMoved_observes r w content) fun _ => Observes.pure _
    | false =>
      simp only [Bool.false_eq_true, if_false]
      cases hcurrent : w.currentChanged with
      | true =>
        obtain ⟨line, hline⟩ := hsight hstart hcurrent
        exact Observes.bind_last (drawHighlightMoved_observes r content hline) fun _ => Observes.pure _
      | false => exact Observes.pure _

theorem kind_of_redrawFramed {r : Renderer} {w : Window} {content : Content σ} {clear : Bool}
    {s t : σ} {kind : Redraw} (h : r.redrawFramed w content clear s = .ok kind t) :
    kind = redrawDue w clear := by
  rw [redrawFramed_eq_strokes] at h
  cases hr : forM (r.strokes w content clear) Stroke.run s with
  | ok a t' =>
    rw [bind_of_ok hr] at h
    cases h
    rfl
  | error e t' =>
    rw [bind_of_error hr] at h
    cases h

section Due

variable (w : Window) (clear : Bool)

theorem redrawDue_full_iff : redrawDue w clear = .full ↔ clear = true := by
  unfold redrawDue
  cases clear <;> cases w.startChanged <;> cases w.currentChanged <;> simp

theorem redrawDue_window_iff :
    redrawDue w clear = .window ↔ clear = false ∧ w.start ≠ w.drawnStart := by
  have hstart : w.startChanged = true ↔ w.start ≠ w.drawnStart := bne_iff_ne
  unfold redrawDue
  rw [← hstart]
  cases clear <;> cases w.startChanged <;> cases w.currentChanged <;> simp

theorem redrawDue_lines_iff :
    redrawDue w clear = .lines ↔
      clear = false ∧ w.start = w.drawnStart ∧ w.current ≠ w.drawnCurrent := by
  have hstart : w.startChanged = false ↔ w.start = w.drawnStart := bne_eq_false_iff_eq
  have hcurrent : w.currentChanged = true ↔ w.current ≠ w.drawnCurrent := bne_iff_ne
  unfold redrawDue
  rw [← hstart, ← hcurrent]
  cases clear <;> cases w.startChanged <;> cases w.currentChanged <;> simp

theorem redrawDue_unchanged_iff :
    redrawDue w clear = .unchanged ↔
      clear = false ∧ w.start = w.drawnStart ∧ w.current = w.drawnCurrent := by
  have hstart : w.startChanged = false ↔ w.start = w.drawnStart := bne_eq_false_iff_eq
  have hcurrent : w.currentChanged = false ↔ w.current = w.drawnCurrent := bne_eq_false_iff_eq
  unfold redrawDue
  rw [← hstart, ← hcurrent]
  cases clear <;> cases w.startChanged <;> cases w.currentChanged <;> simp

end Due

/-- A redraw that is not due leaves a display alone, whichever it is. -/
theorem redrawFramed_of_unchanged {r : Renderer} {w : Window} (content : Content σ) {clear : Bool}
    (h : redrawDue w clear = .unchanged) (s : σ) :
    r.redrawFramed w content clear s = .ok .unchanged s := by
  rw [redrawFramed_eq_strokes, h]
  obtain ⟨rfl, hstart, hcurrent⟩ := (redrawDue_unchanged_iff w clear).mp h
  simp only [strokes, Window.startChanged, Window.currentChanged, hstart, hcurrent, bne_self_eq_false,
    Bool.false_eq_true, if_false, List.forM_nil]
  rfl

theorem window_after_refresh (r : Renderer) (content : Content σ) (clear : Bool) (w : Window)
    (s : σ) : ((r.refresh content clear).after (w, s)).1 = w.commit := by
  unfold Action.after refresh
  dsimp only
  cases r.redraw w content clear s <;> rfl

theorem refresh_eq_ok {r : Renderer} (hg : r.fullGraphics = true) {content : Content σ}
    {clear : Bool} {w v : Window} {s t : σ} {kind : Redraw} :
    r.refresh content clear (w, s) = .ok kind (v, t) ↔
      r.redrawFramed w content clear s = .ok kind t ∧ v = w.commit := by
  have hredraw : r.redraw w content clear = r.redrawFramed w content clear := if_pos hg
  unfold refresh
  simp only [hredraw]
  cases r.redrawFramed w content clear s with
  | ok kind' t' =>
    simp only [EStateM.Result.ok.injEq, Prod.mk.injEq]
    grind
  | error e t' => simp

/-- After any calls of a window with lines to show: which redraw is made is decided by the change of the
window alone. In order, a full redraw and one of a moved window ask for every row in sight, one of a moved
highlight asks for the row highlighted before and the one highlighted now, and one of nothing makes no call
at all. Whether it answers or fails, the window is then taken as drawn. -/
theorem requests_of_refresh {r : Renderer} (hg : r.fullGraphics = true) (rows capacity : UInt16)
    (calls : List WindowCall) (content : Content σ) (clear : Bool) (s : σ) :
    let w := calls.foldl WindowCall.apply (Window.ofRows rows.toNat capacity.toNat)
    0 < w.capacity →
      ((r.refresh content clear).after (w, s)).1 =
        { w with drawnStart := w.start, drawnCurrent := w.current } ∧
      ∀ kind v t, r.refresh content clear (w, s) = .ok kind (v, t) →
        (kind = .full ↔ clear = true) ∧
        (kind = .window ↔ clear = false ∧ w.start ≠ w.drawnStart) ∧
        (kind = .lines ↔ clear = false ∧ w.start = w.drawnStart ∧ w.current ≠ w.drawnCurrent) ∧
        (kind = .unchanged ↔
          clear = false ∧ w.start = w.drawnStart ∧ w.current = w.drawnCurrent) ∧
        ∃ seen, r.refresh content.observed clear (w, ⟨s, []⟩) = .ok kind (v, ⟨t, seen⟩) ∧
          (kind = .full ∨ kind = .window → requested seen = List.range' w.start w.shown) ∧
          (kind = .lines → requested seen = [w.drawnCurrent, w.current]) ∧
          (kind = .unchanged → seen = [] ∧ t = s) := by
  intro w hcapacity
  have hw : w.Sound := (Window.ofRows_sound rows capacity).run calls
  refine ⟨window_after_refresh r content clear w s, ?_⟩
  rintro kind v t hrun
  obtain ⟨hredraw, rfl⟩ := (refresh_eq_ok hg).mp hrun
  have hobserves := redrawFramed_observes r content clear (hw.drawnCurrent_line hcapacity)
  obtain ⟨seen, hseen, hrows⟩ := hobserves.of_ok hredraw []
  rw [List.nil_append] at hseen
  have hdue : kind = redrawDue w clear := kind_of_redrawFramed hredraw
  rw [rowsDue, ← hdue] at hrows
  refine ⟨hdue ▸ redrawDue_full_iff w clear, hdue ▸ redrawDue_window_iff w clear,
    hdue ▸ redrawDue_lines_iff w clear, hdue ▸ redrawDue_unchanged_iff w clear, seen,
    (refresh_eq_ok hg).mpr ⟨hseen, rfl⟩, ?_, ?_, ?_⟩
  · rintro (rfl | rfl)
    · exact hrows
    · exact hrows
  · rintro rfl
    exact hrows
  · rintro rfl
    -- a redraw that is not due answers at once, on the display and under observation
    rw [redrawFramed_of_unchanged content.observed hdue.symm] at hseen
    rw [redrawFramed_of_unchanged content hdue.symm] at hredraw
    cases hseen
    cases hredraw
    exact ⟨rfl, rfl⟩

/-- Ten rows on six lines; the eighth was drawn as the highlighted one, and the knob then turns back. -/
def turnedBack : Window :=
  [.pick 8, .commit, .turn (-2)].foldl WindowCall.apply
    (Window.ofRows (10 : UInt16).toNat (6 : UInt16).toNat)

def fullRecorder : Recorder where
  capabilities := .graphics ||| .fullGraphics ||| .drawMode
  dimensions := some (128, 64)
  textLines := 8
  resolution := 4

def numbered : Content Recorder := { writeRow := fun row => Display.write (if row = 8 then "8" else "6") }

theorem requests_of_turnedBack :
    (forDisplay fullRecorder).fullGraphics = true ∧ 0 < turnedBack.capacity ∧
      ∃ v t seen, (forDisplay fullRecorder).refresh numbered.observed false
          (turnedBack, ⟨fullRecorder, []⟩) = .ok .lines (v, ⟨t, seen⟩) ∧
        requested seen = [8, 6] := by
  have hgraphics : (forDisplay fullRecorder).fullGraphics = true := by decide
  have hcapacity : 0 < turnedBack.capacity := by decide
  have hlines : ((forDisplay fullRecorder).refresh numbered false).outcome
      (turnedBack, fullRecorder) = .ok .lines := by decide +kernel
  obtain ⟨_, _, _, _, seen, hseen, _, hrows, _⟩ :=
    (requests_of_refresh hgraphics 10 6 [.pick 8, .commit, .turn (-2)] numbered false fullRecorder
      hcapacity).2 _ _ _ (eq_ok_of_outcome hlines)
  exact ⟨hgraphics, hcapacity, _, _, seen, hseen, hrows rfl⟩

end Renderer

end FrontPanel
