import FrontPanel.Proofs.Display.Painted
import FrontPanel.Proofs.Menu.Checked
import FrontPanel.Proofs.Menu.Requests

/-!
# A framed menu stays on its screen

A display need not clip what is drawn beyond its edges, and a framed menu does not rely on it. First the
frame and the scroll bar are painted, as far as the redraw calls for them, then highlights and rows; the
latter keep between the title bar, the borders and the scroll bar. How much is erased behind a row is told
by the cursor of the display, so that the contents must not move it to the left.
-/

namespace FrontPanel

set_option autoImplicit false

open FrontPanel.Action

namespace Layout

def screen (l : Layout) : Pane := ⟨0, 0, l.width, l.height⟩

/-- Where highlights and rows may be: between the title bar and the borders, and left of a scroll bar. -/
def inner (l : Layout) (beside : Bool) : Pane where
  left := 1
  top := titleHeight
  right := if beside then l.barX else l.width - 1
  bottom := l.height - 1

theorem inner_within_screen (l : Layout) (beside : Bool) : (l.inner beside).Within l.screen := by
  refine ⟨Nat.zero_le _, Nat.zero_le _, ?_, Nat.sub_le _ _⟩
  simp only [inner, screen, barX]
  split <;> omega

theorem inner_true_within (l : Layout) (beside : Bool) : (l.inner true).Within (l.inner beside) := by
  refine ⟨Nat.le_refl _, Nat.le_refl _, ?_, Nat.le_refl _⟩
  cases beside with
  | true => exact Nat.le_refl _
  | false => exact Nat.sub_le_sub_left (by decide) l.width

theorem rest_inside {l : Layout} {line x : Nat} (hline : line < l.visibleLines) (hx : textX ≤ x)
    (hright : l.barX - x ≠ 0) (mode : DrawMode) :
    (DisplayCall.box x (textTop line) (l.barX - x) Glyph.height mode).Inside (l.inner true) := by
  have hbottom := lineTop_add_lt hline
  simp only [DisplayCall.Inside, inner, textTop, textX, lineHeight, if_true] at hx hbottom ⊢
  refine ⟨by omega, by omega, ?_, by omega⟩
  exact (Nat.le_add_right _ _).trans (Nat.le_succ _)

namespace Holds

variable {l : Layout} {w : Window}

theorem height_le (h : l.Holds w) : 19 ≤ l.height := by
  have hlines := h.lines
  simp only [visibleLines, titleHeight, lineHeight, Glyph.height] at hlines
  omega

section Line

variable {line : Nat} (h : l.Holds w) (hline : line < l.visibleLines)
include h hline

theorem highlight_inside (beside : Bool) (mode : DrawMode) :
    (DisplayCall.box 1 (lineTop line) (l.highlightWidth beside) lineHeight mode).Inside
      (l.inner beside) := by
  have hwidth := h.width
  have hbottom := lineTop_add_lt hline
  refine ⟨Nat.le_refl _, ?_, Nat.le_add_right _ _, Nat.le_pred_of_lt hbottom⟩
  simp only [highlightWidth, inner, barX]
  split <;> omega

theorem edge_inside (mode : DrawMode) :
    (DisplayCall.horizontal 1 (lineTop line) (l.highlightWidth true) mode).Inside (l.inner true) ∧
      (DisplayCall.vertical 1 (lineTop line) lineHeight mode).Inside (l.inner true) := by
  obtain ⟨hleft, hright, htop, hbottom⟩ := h.highlight_inside hline true mode
  have hwidth := h.width
  refine ⟨⟨hleft, hright, htop, ?_⟩, ⟨hleft, ?_, htop, hbottom⟩⟩
  · exact (Nat.lt_add_of_pos_right (by decide)).trans_le hbottom
  · simp only [inner, barX, if_true]
    omega

end Line

end Holds

end Layout

namespace Renderer

/-- What is painted of the frame. -/
def frameCalls (r : Renderer) : List DisplayCall :=
  let right := r.layout.width - 1
  [.box 0 0 r.layout.width Layout.titleHeight .draw,
    .vertical 0 Layout.titleHeight r.layout.sideLength .draw,
    .vertical right Layout.titleHeight r.layout.sideLength .draw,
    .horizontal 1 (r.layout.height - 1) (r.layout.width - 2) .draw,
    .pixel 0 0 .erase, .pixel right 0 .erase]

/-- What is painted before any highlight or row: a frame on a cleared screen, and the scroll bar of a
window that scrolls. -/
def backdrop (r : Renderer) (w : Window) (clear : Bool) : List DisplayCall :=
  (if clear then r.frameCalls else []) ++ if w.scrolls then r.scrollBarCalls w else []

theorem frameCalls_inside {r : Renderer} {w : Window} (h : r.layout.Holds w) :
    ∀ call ∈ r.frameCalls, call.Inside r.layout.screen := by
  have hwidth := h.width
  have hheight := h.height_le
  simp only [frameCalls, List.forall_mem_cons]
  refine ⟨?_, ?_, ?_, ?_, ?_, ?_, nofun⟩ <;>
    simp only [DisplayCall.Inside, Layout.screen, Layout.sideLength, Layout.titleHeight,
      Layout.lineHeight, Glyph.height] <;>
    omega

theorem scrollBarCalls_inside {r : Renderer} {w : Window} (h : r.layout.Holds w)
    (hscrolls : w.scrolls = true) : ∀ call ∈ r.scrollBarCalls w, call.Inside r.layout.screen := by
  have hwidth := h.width
  have hheight := h.height_le
  obtain ⟨hrows, hend⟩ := h.sound.end_le_rows hscrolls
  refine List.forall_mem_cons.mpr ⟨?_, fun call hcall => ?_⟩
  · simp only [DisplayCall.Inside, Layout.screen, Layout.barX, Layout.sideLength, Layout.titleHeight,
      Layout.lineHeight, Glyph.height]
    omega
  · obtain ⟨p, hp, hcall⟩ := List.mem_flatMap.mp hcall
    have hstop := ((r.layout.stretches_tile hrows hend).mem hp).2
    unfold Stretch.calls at hcall
    split at hcall
    · cases hcall
    · cases List.mem_singleton.mp hcall
      simp only [Layout.trackTop, Layout.trackLength, Layout.titleHeight, Layout.lineHeight,
        Glyph.height] at hstop
      simp only [DisplayCall.Inside, Layout.screen, Layout.thumbX, Layout.thumbWidth]
      omega

theorem backdrop_inside {r : Renderer} {w : Window} (h : r.layout.Holds w) (clear : Bool) :
    ∀ call ∈ r.backdrop w clear, call.Inside r.layout.screen := by
  intro call hcall
  unfold backdrop at hcall
  rcases List.mem_append.mp hcall with hcall | hcall
  · split at hcall
    · exact frameCalls_inside h call hcall
    · cases hcall
  · split at hcall
    · next hscrolls => exact scrollBarCalls_inside h hscrolls call hcall
    · cases hcall

variable {σ : Type} [Display σ]

def frameSights (r : Renderer) (title : String) : List Sight :=
  r.frameCalls.map .call ++ [.call (.mode .erase), .call (.cursorAt Layout.textX 1),
    .call (.write title), .call (.mode .draw)]

theorem drawFrame_notes (r : Renderer) (title : String) :
    Notes (r.drawFrame title : Draw (Observed σ) Unit) (r.frameSights title) := by
  unfold drawFrame
  refine Notes.congr ?_ (rfl : [_] ++ ([_] ++ ([_] ++ ([_] ++ ([_] ++ ([_] ++ ([_] ++ ([_] ++
    ([_] ++ [_])))))))) = _)
  refine (Notes.noting _ _).bind fun _ => ?_
  refine (Notes.noting _ _).bind fun _ => ?_
  refine (Notes.noting _ _).bind fun _ => ?_
  refine (Notes.noting _ _).bind fun _ => ?_
  refine (Notes.noting _ _).bind fun _ => ?_
  refine (Notes.noting _ _).bind fun _ => ?_
  refine (Notes.noting _ _).bind fun _ => ?_
  refine (Notes.noting _ _).bind fun _ => ?_
  refine (Notes.noting _ _).bind fun _ => ?_
  exact Notes.noting _ _

theorem drawScrollBarIfNeeded_notes (r : Renderer) {w : Window} (h : w.Sound) :
    Notes (r.drawScrollBarIfNeeded w : Draw (Observed σ) Unit)
      ((if w.scrolls then r.scrollBarCalls w else []).map .call) := by
  unfold drawScrollBarIfNeeded
  split
  · next hscrolls =>
    obtain ⟨hrows, hend⟩ := h.end_le_rows hscrolls
    exact r.drawScrollBar_notes hrows hend
  · exact Notes.pure ()

theorem painted_scrollBarCalls (r : Renderer) (w : Window) :
    painted ((r.scrollBarCalls w).map .call) = r.scrollBarCalls w := by
  refine painted_calls (List.forall_mem_cons.mpr ⟨rfl, fun call hcall => ?_⟩)
  obtain ⟨p, _, hcall⟩ := List.mem_flatMap.mp hcall
  unfold Stretch.calls at hcall
  split at hcall
  · cases hcall
  · cases List.mem_singleton.mp hcall
    rfl

theorem painted_scrollBarIfNeeded (r : Renderer) (w : Window) :
    painted ((if w.scrolls then r.scrollBarCalls w else []).map .call) = r.backdrop w false := by
  change _ = if w.scrolls then r.scrollBarCalls w else []
  split
  · exact r.painted_scrollBarCalls w
  · rfl

section Rows

variable {r : Renderer} {w : Window} {base : List DisplayCall} {content : Content σ}

theorem drawHighlight_stays (h : r.layout.Holds w) {line : Nat} (hline : line < r.layout.visibleLines)
    (mode : DrawMode) :
    Keeps (PaintedOnly base (DisplayCall.Inside (r.layout.inner w.scrolls)))
      (r.drawHighlight w line mode : Draw (Observed σ) Unit) :=
  PaintedOnly.keeps_call _ (h.highlight_inside hline w.scrolls mode)

theorem drawRow_stays (w : Window) (content : Content σ) (p : Pane) (row : Nat) (highlighted : Bool) :
    Keeps (PaintedOnly base (DisplayCall.Inside p)) (drawRow w content.observed row highlighted) := by
  unfold drawRow
  refine (PaintedOnly.keeps_call _ trivial).bind fun _ => ?_
  refine Keeps.ite ?_ (PaintedOnly.keeps_noting _ nofun)
  refine (PaintedOnly.keeps_call _ trivial).bind fun _ => ?_
  exact (PaintedOnly.keeps_noting _ nofun).bind fun _ => PaintedOnly.keeps_call _ trivial

/-- A row leaves the cursor on its line, at or behind the place where its text began. -/
theorem drawRow_cursor (hplaces : PlacesCursor σ) (hcontent : content.MovesRight) (p : Pane) (row : Nat) :
    Ensures (PaintedOnly base (DisplayCall.Inside p)) (drawRow w content.observed row false)
      (fun _ o => PaintedOnly base (DisplayCall.Inside p) o ∧
        ∀ x y, Display.cursor o.display = .ok (x, y) →
          Layout.textX ≤ x ∧ y = Layout.textTop (row - w.start))
      fun _ => PaintedOnly base (DisplayCall.Inside p) := by
  have hplace : Ensures (fun _ => True)
      (Display.setCursorAt Layout.textX (Layout.textTop (row - w.start)) : Draw σ Unit)
      (fun _ t => Display.cursor t = .ok (Layout.textX, Layout.textTop (row - w.start)))
      fun _ _ => True := by
    intro s _
    cases hrun : Display.setCursorAt Layout.textX (Layout.textTop (row - w.start)) s with
    | ok a t => exact hplaces _ _ s t hrun
    | error e t => trivial
  have hwrite : Ensures
      (fun s => Display.cursor s = .ok (Layout.textX, Layout.textTop (row - w.start)))
      (content.writeRow row)
      (fun _ t => ∀ x y, Display.cursor t = .ok (x, y) →
        Layout.textX ≤ x ∧ y = Layout.textTop (row - w.start))
      fun _ _ => True := by
    intro s hs
    cases hrun : content.writeRow row s with
    | ok a t => exact fun x y hcursor => hcontent row s t _ _ x y (by decide) hs hrun hcursor
    | error e t => trivial
  unfold drawRow
  refine Ensures.bind (Ensures.mono_pre (PaintedOnly.noting (fun call hcall => ?_) hplace)
    fun o ho => ⟨ho, trivial⟩) fun _ => ?_
  · exact Sight.eq_of_paint? hcall ▸ trivial
  · exact PaintedOnly.noting nofun hwrite

theorem fill_stays {p : Pane} {x y width height : Nat} {mode : DrawMode}
    (h : width ≠ 0 → (DisplayCall.box x y width height mode).Inside p) :
    Keeps (PaintedOnly base (DisplayCall.Inside p))
      (fill x y width height mode : Draw (Observed σ) Unit) := by
  unfold fill
  refine Ensures.ite (fun _ => Keeps.pure ()) fun hne => ?_
  exact PaintedOnly.keeps_call _ (h fun hzero => hne (Or.inl hzero))

theorem drawRowPadded_stays (h : r.layout.Holds w) (hplaces : PlacesCursor σ)
    (hcontent : content.MovesRight) {row : Nat} (hline : row - w.start < r.layout.visibleLines) :
    Keeps (PaintedOnly base (DisplayCall.Inside (r.layout.inner w.scrolls)))
      (r.drawRowPadded w content.observed row) := by
  obtain ⟨htop, hside⟩ := h.edge_inside hline .erase
  have hwithin := r.layout.inner_true_within w.scrolls
  unfold drawRowPadded
  refine (PaintedOnly.keeps_call _ (htop.mono hwithin)).bind fun _ => ?_
  refine (PaintedOnly.keeps_call _ (hside.mono hwithin)).bind fun _ => ?_
  refine Ensures.bind (drawRow_cursor hplaces hcontent _ row) fun _ => ?_
  refine Ensures.get_bind fun o ho => ?_
  obtain ⟨hpainted, hcursor⟩ := ho
  change Ensures _ (ofExcept (Display.cursor o.display) >>= _) _ _
  cases hat : Display.cursor o.display with
  | error e =>
    rintro _ rfl
    exact hpainted
  | ok place =>
    obtain ⟨x, y⟩ := place
    obtain ⟨hx, rfl⟩ := hcursor x y hat
    refine Ensures.mono_pre (fill_stays fun hne => ?_) fun _ he => he ▸ hpainted
    exact (Layout.rest_inside hline hx hne .erase).mono hwithin

end Rows

section Redraws

variable {r : Renderer} {w : Window} (h : r.layout.Holds w) {content : Content σ}
include h

/-- A scroll bar, if the window scrolls, and then parts that paint only calls with `P`. -/
theorem scrollBar_paints {α : Type} {P : DisplayCall → Prop} {f : Unit → Draw (Observed σ) α}
    (hf : ∀ a base, Keeps (PaintedOnly base P) (f a)) :
    Paints (r.drawScrollBarIfNeeded w >>= f) (r.backdrop w false) P := by
  rw [← List.append_nil (r.backdrop w false), ← painted_scrollBarIfNeeded]
  exact Paints.bind (r.drawScrollBarIfNeeded_notes h.sound) fun a => Paints.of_keeps (hf a)

theorem drawAll_paints :
    Paints (r.drawAll w content.observed) (r.backdrop w true)
      (DisplayCall.Inside (r.layout.inner w.scrolls)) := by
  have hfront : r.backdrop w true = painted [.call .clear] ++
      (painted (r.frameSights content.title) ++ r.backdrop w false) := rfl
  unfold drawAll
  rw [hfront]
  refine Paints.bind (Notes.noting _ _) fun _ => ?_
  refine Paints.bind (r.drawFrame_notes _) fun _ => ?_
  refine scrollBar_paints h fun _ base => ?_
  refine (drawHighlight_stays h h.current_line.2 _).bind fun _ => ?_
  exact Ensures.forM fun row _ => drawRow_stays w content _ row _

variable (hplaces : PlacesCursor σ) (hcontent : content.MovesRight)

include hplaces hcontent in
theorem drawMoved_paints :
    Paints (r.drawMoved w content.observed) (r.backdrop w false)
      (DisplayCall.Inside (r.layout.inner w.scrolls)) := by
  unfold drawMoved
  refine scrollBar_paints h fun _ base => ?_
  refine (drawHighlight_stays h h.current_line.2 _).bind fun _ => ?_
  refine Ensures.forM fun row hrow => Keeps.ite (drawRow_stays w content _ row _) ?_
  exact drawRowPadded_stays h hplaces hcontent (h.row_line hrow).2

theorem drawHighlightMoved_paints :
    Paints (r.drawHighlightMoved w content.observed) (r.backdrop w false)
      (DisplayCall.Inside (r.layout.inner w.scrolls)) := by
  unfold drawHighlightMoved
  refine scrollBar_paints h fun _ base => ?_
  cases hline : w.lineOf w.drawnCurrent with
  | none =>
    refine (drawHighlight_stays h h.current_line.2 _).bind fun _ => ?_
    exact drawRow_stays w content _ _ _
  | some old =>
    refine (drawHighlight_stays h (h.lineOf_line hline).2 _).bind fun _ => ?_
    refine (drawHighlight_stays h h.current_line.2 _).bind fun _ => ?_
    refine (drawRow_stays w content _ _ _).bind fun _ => ?_
    exact drawRow_stays w content _ _ _

include hplaces hcontent in
theorem redrawFramed_paints (clear : Bool) :
    Paints (r.redrawFramed w content.observed clear) (r.backdrop w clear)
      (DisplayCall.Inside (r.layout.inner w.scrolls)) := by
  unfold redrawFramed
  cases clear with
  | true => exact (drawAll_paints h).answering _
  | false =>
    simp only [Bool.false_eq_true, if_false]
    split
    · exact (drawMoved_paints h hplaces hcontent).answering _
    split
    · exact (drawHighlightMoved_paints h).answering _
    · exact Paints.pure _ _ _

end Redraws

theorem display_after_refresh (r : Renderer) (content : Content σ) (clear : Bool) (w : Window) (s : σ) :
    ((r.refresh content clear).after (w, s)).2 = (r.redraw w content clear).after s := by
  unfold Action.after refresh
  dsimp only
  cases r.redraw w content clear s <;> rfl

/-- After any calls of a window that has as many lines as the layout: whether the redraw answers or fails,
what it paints is on the screen. It begins with the frame, if the screen is cleared, and with the scroll
bar, if the window scrolls; all that is painted behind these two, highlights and rows with what is erased of
them, stays below the title bar, between the borders and left of the scroll bar. No sum, product or
difference on the way leaves sixteen bits. -/
theorem framed_menu_stays_inside {r : Renderer} (hg : r.fullGraphics = true)
    (hwidth : 8 ≤ r.layout.width) (hheight : 19 ≤ r.layout.height) (hrange : r.layout.height < 65536)
    (hplaces : PlacesCursor σ) {content : Content σ} (hcontent : content.MovesRight)
    (rows capacity : UInt16) (calls : List WindowCall) (clear : Bool) (s : σ) :
    let w := calls.foldl WindowCall.apply (Window.ofRows rows.toNat capacity.toNat)
    w.capacity = r.layout.visibleLines →
      (∃ first lines,
        painted ((r.refresh content.observed clear).after (w, ⟨s, []⟩)).2.seen = first ++ lines ∧
        first <+: r.backdrop w clear ∧ (lines ≠ [] → first = r.backdrop w clear) ∧
        (∀ call ∈ first ++ lines, call.Inside r.layout.screen) ∧
        ∀ call ∈ lines, call.Inside (r.layout.inner w.scrolls)) ∧
      r.redrawFramed? w content clear = some (r.redraw w content clear) := by
  intro w hcapacity
  have hlines : 0 < r.layout.visibleLines := by
    simp only [Layout.visibleLines, Layout.titleHeight, Layout.lineHeight, Glyph.height]
    omega
  have h : r.layout.Holds w :=
    ⟨hwidth, hrange, hlines, (Window.ofRows_sound rows capacity).run calls, hcapacity⟩
  have hredraw : ∀ {τ : Type} [Display τ] (content : Content τ),
      r.redraw w content clear = r.redrawFramed w content clear := fun _ => if_pos hg
  constructor
  · obtain ⟨first, lines, hpainted, hfirst, hall, hinner⟩ :=
      redrawFramed_paints h hplaces hcontent clear ⟨s, []⟩
    refine ⟨first, lines, ?_, hfirst, hall, fun call hcall => ?_, hinner⟩
    · rw [display_after_refresh, hredraw, hpainted]
      rfl
    · rcases List.mem_append.mp hcall with hcall | hcall
      · exact backdrop_inside h clear call (hfirst.subset hcall)
      · exact (hinner call hcall).mono (r.layout.inner_within_screen w.scrolls)
  · rw [hredraw]
    exact redrawFramed?_eq h content clear

/-- Ten rows on the six lines of a screen of 128 by 64 pixels, moved to the last page: behind the three
calls for the scroll bar, the highlight is painted and three parts of each other row are erased. -/
theorem last_page_stays_inside :
    let r := forDisplay fullRecorder
    let w := [WindowCall.pick 9].foldl WindowCall.apply
      (Window.ofRows (10 : UInt16).toNat (6 : UInt16).toNat)
    r.fullGraphics = true ∧ 8 ≤ r.layout.width ∧ 19 ≤ r.layout.height ∧ r.layout.height < 65536 ∧
      PlacesCursor Recorder ∧ numbered.MovesRight ∧ w.capacity = r.layout.visibleLines ∧
      w.scrolls = true ∧
      (∃ lines,
        painted ((r.refresh numbered.observed false).after (w, ⟨fullRecorder, []⟩)).2.seen =
          r.backdrop w false ++ lines ∧
        lines.length = 16 ∧ ∀ call ∈ lines, call.Inside (r.layout.inner true)) ∧
      r.redrawFramed? w numbered false = some (r.redraw w numbered false) := by
  intro r w
  have hgraphics : r.fullGraphics = true := by decide
  have hcontent : numbered.MovesRight :=
    Recorder.movesRight_of_write "" fun row => if row = 8 then "8" else "6"
  obtain ⟨⟨first, lines, hpainted, hfirst, hall, _, hinner⟩, hchecked⟩ :=
    framed_menu_stays_inside hgraphics (by decide) (by decide) (by decide) Recorder.placesCursor
      hcontent 10 6 [.pick 9] false fullRecorder (by decide)
  have hlength : (first ++ lines).length = 3 + 16 := by
    rw [← hpainted]
    decide +kernel
  have hbackdrop : (r.backdrop w false).length = 3 := by decide
  have hfew : first.length ≤ 3 := hbackdrop ▸ hfirst.length_le
  have hmore : lines ≠ [] := by
    rintro rfl
    rw [List.append_nil] at hlength
    omega
  refine ⟨hgraphics, by decide, by decide, by decide, Recorder.placesCursor, hcontent, by decide,
    by decide, ⟨lines, ?_, ?_, hinner⟩, hchecked⟩
  · rw [← hall hmore]
    exact hpainted
  · rw [List.length_append, congrArg List.length (hall hmore), hbackdrop] at hlength
    exact Nat.add_left_cancel hlength

end Renderer

end FrontPanel
