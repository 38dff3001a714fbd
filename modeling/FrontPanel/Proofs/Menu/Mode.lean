import Mathlib.Control.Monad.Basic
import FrontPanel.Menu.Renderer
import FrontPanel.Proofs.Tft.Steady

/-!
# The draw mode that a redraw leaves behind

A framed menu is drawn step by step. Most steps paint in the mode that they find; the title and the
highlighted row are written in erase mode, and the mode is set back behind them. A redraw that fails
stops where it is, so that the mode it leaves tells which kind of step has failed.
-/

namespace FrontPanel

set_option autoImplicit false

open FrontPanel.Action

/-- A step paints as it is, or it writes in erase mode. -/
inductive Stroke (σ : Type) where
  | plain (x : Draw σ Unit)
  | inverted (x : Draw σ Unit)

namespace Stroke

variable {σ : Type}

def isInverted : Stroke σ → Bool
  | plain _ => false
  | inverted _ => true

def body : Stroke σ → Draw σ Unit
  | plain x => x
  | inverted x => x

def run [Display σ] : Stroke σ → Draw σ Unit
  | plain x => x
  | inverted x => do
    Display.setMode .erase
    x
    Display.setMode .draw

/-- The step that stops a run of steps, if one does. -/
def firstFailure [Display σ] : List (Stroke σ) → σ → Option (Stroke σ)
  | [], _ => none
  | k :: rest, s =>
    match k.run s with
    | .ok _ s' => firstFailure rest s'
    | .error _ _ => some k

theorem forM_flatMap_run [Display σ] {α : Type} (items : List α) {f : α → List (Stroke σ)}
    {g : α → Draw σ Unit} (h : ∀ i, forM (f i) run = g i) :
    forM (items.flatMap f) run = items.forM g := by
  induction items with
  | nil => rfl
  | cons i rest ih =>
    rw [List.flatMap_cons, List.forM_append, ih, h, List.forM_eq_forM, List.forM_cons]

end Stroke

namespace Renderer

variable {σ : Type} [Display σ]

def frameStrokes (r : Renderer) (title : String) : List (Stroke σ) :=
  let right := r.layout.width - 1
  [.plain (Display.box 0 0 r.layout.width Layout.titleHeight .draw),
    .plain (Display.vertical 0 Layout.titleHeight r.layout.sideLength .draw),
    .plain (Display.vertical right Layout.titleHeight r.layout.sideLength .draw),
    .plain (Display.horizontal 1 (r.layout.height - 1) (r.layout.width - 2) .draw),
    .plain (Display.pixel 0 0 .erase),
    .plain (Display.pixel right 0 .erase),
    .inverted do
      Display.setCursorAt Layout.textX 1
      Display.write title]

def rowStrokes (w : Window) (content : Content σ) (row : Nat) (highlighted : Bool) :
    List (Stroke σ) :=
  .plain (Display.setCursorAt Layout.textX (Layout.textTop (row - w.start))) ::
    if highlighted then [.inverted (content.writeRow row)] else [.plain (content.writeRow row)]

def movedRowStrokes (r : Renderer) (w : Window) (content : Content σ) (row : Nat) :
    List (Stroke σ) :=
  if row = w.current then rowStrokes w content row true
  else [.plain (r.drawRowPadded w content row)]

def highlightStrokes (r : Renderer) (w : Window) (content : Content σ) : List (Stroke σ) :=
  match w.lineOf w.drawnCurrent with
  | some line =>
    [.plain (r.drawHighlight w line .erase),
      .plain (r.drawHighlight w (w.current - w.start) .draw)] ++
        rowStrokes w content w.drawnCurrent false
  | none => [.plain (r.drawHighlight w (w.current - w.start) .draw)]

/-- The steps of the redraw that is due. -/
def strokes (r : Renderer) (w : Window) (content : Content σ) (clear : Bool) : List (Stroke σ) :=
  if clear then
    .plain Display.clear :: (r.frameStrokes content.title ++
      .plain (r.drawScrollBarIfNeeded w) :: .plain (r.drawHighlight w (w.current - w.start) .invert) ::
        w.visibleRows.flatMap fun row => rowStrokes w content row (row == w.current))
  else if w.startChanged then
    .plain (r.drawScrollBarIfNeeded w) :: .plain (r.drawHighlight w (w.current - w.start) .invert) ::
      w.visibleRows.flatMap (r.movedRowStrokes w content)
  else if w.currentChanged then
    .plain (r.drawScrollBarIfNeeded w) :: (r.highlightStrokes w content ++
      rowStrokes w content w.current true)
  else []

def redrawDue (w : Window) (clear : Bool) : Redraw :=
  if clear then .full
  else if w.startChanged then .window
  else if w.currentChanged then .lines
  else .unchanged

theorem forM_frameStrokes (r : Renderer) (title : String) :
    forM (r.frameStrokes title) Stroke.run = (r.drawFrame title : Draw σ Unit) := by
  simp only [frameStrokes, drawFrame, List.forM_cons, List.forM_nil, Stroke.run, bind_assoc,
    bind_pure_unit]

theorem forM_rowStrokes (w : Window) (content : Content σ) (row : Nat) (highlighted : Bool) :
    forM (rowStrokes w content row highlighted) Stroke.run =
      drawRow w content row highlighted := by
  cases highlighted <;>
    simp only [rowStrokes, drawRow, List.forM_cons, List.forM_nil, Stroke.run, bind_assoc,
      bind_pure_unit, if_true, Bool.false_eq_true, if_false]

theorem forM_movedRowStrokes (r : Renderer) (w : Window) (content : Content σ) (row : Nat) :
    forM (r.movedRowStrokes w content row) Stroke.run =
      if row = w.current then drawRow w content row true else r.drawRowPadded w content row := by
  unfold movedRowStrokes
  split
  · exact forM_rowStrokes w content row true
  · simp only [List.forM_cons, List.forM_nil, Stroke.run, bind_pure_unit]

theorem forM_strokes_full (r : Renderer) (w : Window) (content : Content σ) :
    forM (r.strokes w content true) Stroke.run = r.drawAll w content := by
  unfold strokes drawAll
  simp only [if_true, List.forM_cons, List.forM_append, forM_frameStrokes, Stroke.run,
    Stroke.forM_flatMap_run _ fun row => forM_rowStrokes w content row (row == w.current)]

theorem forM_strokes_window (r : Renderer) {w : Window} (content : Content σ)
    (hmoved : w.startChanged = true) :
    forM (r.strokes w content false) Stroke.run = r.drawMoved w content := by
  unfold strokes drawMoved
  simp only [Bool.false_eq_true, if_false, if_pos hmoved, List.forM_cons, Stroke.run,
    Stroke.forM_flatMap_run _ (r.forM_movedRowStrokes w content)]

theorem forM_strokes_lines (r : Renderer) {w : Window} (content : Content σ)
    (hunmoved : w.startChanged = false) (hmoved : w.currentChanged = true) :
    forM (r.strokes w content false) Stroke.run = r.drawHighlightMoved w content := by
  unfold strokes drawHighlightMoved highlightStrokes
  simp only [Bool.false_eq_true, if_false, hunmoved, if_pos hmoved]
  cases w.lineOf w.drawnCurrent <;>
    simp only [List.forM_cons, List.forM_nil, List.forM_append, forM_rowStrokes, Stroke.run,
      bind_assoc, pure_bind]

theorem redrawFramed_eq_strokes (r : Renderer) (w : Window) (content : Content σ) (clear : Bool) :
    r.redrawFramed w content clear = do
      forM (r.strokes w content clear) Stroke.run
      return redrawDue w clear := by
  unfold redrawFramed redrawDue
  cases clear with
  | true => simp only [if_true, forM_strokes_full]
  | false =>
    simp only [Bool.false_eq_true, if_false]
    cases hstart : w.startChanged with
    | true => simp only [if_true, r.forM_strokes_window content hstart]
    | false =>
      simp only [Bool.false_eq_true, if_false]
      cases hcurrent : w.currentChanged with
      | true => simp only [if_true, r.forM_strokes_lines content hstart hcurrent]
      | false =>
        unfold strokes
        simp only [Bool.false_eq_true, if_false, hstart, hcurrent, List.forM_nil, pure_bind]

end Renderer

/-- Texts written one after another, also where the answer of one decides on the next, or where a failure
is taken care of. -/
inductive WritesOnly {σ : Type} [Display σ] : {α : Type} → Draw σ α → Prop
  | write (text : String) : WritesOnly (Display.write text)
  | pure {α : Type} (a : α) : WritesOnly (Pure.pure a)
  | throw {α : Type} (e : DisplayError) : WritesOnly (MonadExcept.throw e : Draw σ α)
  | bind {α β : Type} {x : Draw σ α} {f : α → Draw σ β} :
      WritesOnly x → (∀ a, WritesOnly (f a)) → WritesOnly (x >>= f)
  | tryCatch {α : Type} {x : Draw σ α} {f : DisplayError → Draw σ α} :
      WritesOnly x → (∀ e, WritesOnly (f e)) → WritesOnly (MonadExcept.tryCatch x f)

namespace Tft

theorem drawing_keeps {P : Tft → Prop} {α : Type} {x : Action TftError Tft α} (h : Keeps P x) :
    Keeps P (drawing x) :=
  Ensures.failingAs h

theorem writesOnly_keeps {P : Tft → Prop} (hP : IsSteady P) {α : Type} {x : Draw Tft α}
    (h : WritesOnly x) : Keeps P x := by
  induction h with
  | write text => exact drawing_keeps (drawText_keeps hP text.toList)
  | pure a => exact Keeps.pure a
  | throw e => exact Keeps.throw e
  | bind _ _ ihx ihf => exact Keeps.bind ihx ihf
  | tryCatch _ _ ihx ihf => exact Keeps.tryCatch ihx ihf

theorem fillArea_keeps {P : Tft → Prop} (hP : IsSteady P) (x y width height : Nat)
    (mode : DrawMode) : Keeps P (fillArea x y width height mode) := by
  unfold fillArea
  apply Keeps.get_bind
  intro t
  exact drawing_keeps (fillRect_keeps hP.bus x y width height _)

end Tft

namespace Renderer

open Tft

section Keeps

variable {P : Tft → Prop} (hP : IsSteady P)
include hP

theorem fill_keeps (x y width height : Nat) (mode : DrawMode) :
    Keeps P (fill x y width height mode) :=
  Keeps.ite (Keeps.pure _) (fillArea_keeps hP x y width height mode)

theorem setCursorAt_keeps (x y : Nat) : Keeps P (Display.setCursorAt x y : Draw Tft Unit) :=
  Keeps.modify fun t ht => hP.cursor t x y ht

theorem drawScrollBarIfNeeded_keeps (r : Renderer) (w : Window) :
    Keeps P (r.drawScrollBarIfNeeded w) := by
  unfold drawScrollBarIfNeeded
  apply Keeps.ite _ (Keeps.pure _)
  unfold drawScrollBar
  apply Keeps.bind (fillArea_keeps hP _ _ _ _ _)
  intro _
  apply Keeps.bind (fill_keeps hP _ _ _ _ _)
  intro _
  apply Keeps.bind (fill_keeps hP _ _ _ _ _)
  intro _
  exact fill_keeps hP _ _ _ _ _

theorem drawHighlight_keeps (r : Renderer) (w : Window) (line : Nat) (mode : DrawMode) :
    Keeps P (r.drawHighlight w line mode) :=
  fillArea_keeps hP _ _ _ _ mode

theorem drawRowPadded_keeps (r : Renderer) (w : Window) {content : Content Tft} {row : Nat}
    (hrow : WritesOnly (content.writeRow row)) : Keeps P (r.drawRowPadded w content row) := by
  unfold drawRowPadded
  apply Keeps.bind (fillArea_keeps hP _ _ _ _ _)
  intro _
  apply Keeps.bind (fillArea_keeps hP _ _ _ _ _)
  intro _
  apply Keeps.bind
  · exact Keeps.bind (setCursorAt_keeps hP _ _) fun _ => writesOnly_keeps hP hrow
  intro _
  apply Keeps.get_bind
  intro t
  exact Keeps.bind (Keeps.pure _) fun _ => fill_keeps hP _ _ _ _ _

theorem frameStrokes_keep (r : Renderer) (title : String) :
    ∀ k ∈ r.frameStrokes title, Keeps P k.body := by
  simp only [frameStrokes, List.forall_mem_cons]
  refine ⟨?_, ?_, ?_, ?_, ?_, ?_, ?_, ?_⟩
  case refine_7 =>
    exact Keeps.bind (setCursorAt_keeps hP _ _) fun _ => writesOnly_keeps hP (.write title)
  case refine_8 => intro k hk; cases hk
  all_goals exact fillArea_keeps hP _ _ _ _ _

variable {content : Content Tft} (hcontent : ∀ row, WritesOnly (content.writeRow row))
include hcontent

theorem rowStrokes_keep (w : Window) (row : Nat) (highlighted : Bool) :
    ∀ k ∈ rowStrokes w content row highlighted, Keeps P k.body := by
  have hrow := writesOnly_keeps hP (hcontent row)
  intro k hk
  rcases List.mem_cons.mp hk with rfl | hk
  · exact setCursorAt_keeps hP _ _
  · cases highlighted <;> cases List.mem_singleton.mp hk <;> exact hrow

theorem movedRowStrokes_keep (r : Renderer) (w : Window) (row : Nat) :
    ∀ k ∈ r.movedRowStrokes w content row, Keeps P k.body := by
  unfold movedRowStrokes
  split
  · exact rowStrokes_keep hP hcontent w row true
  · intro k hk
    cases List.mem_singleton.mp hk
    exact drawRowPadded_keeps hP r w (hcontent row)

theorem highlightStrokes_keep (r : Renderer) (w : Window) :
    ∀ k ∈ r.highlightStrokes w content, Keeps P k.body := by
  have hmark (line : Nat) (mode : DrawMode) : Keeps P (r.drawHighlight w line mode) :=
    drawHighlight_keeps hP r w line mode
  unfold highlightStrokes
  cases w.lineOf w.drawnCurrent with
  | some line =>
    simp only [List.cons_append, List.nil_append, List.forall_mem_cons]
    exact ⟨hmark _ _, hmark _ _, rowStrokes_keep hP hcontent w w.drawnCurrent false⟩
  | none =>
    intro k hk
    cases List.mem_singleton.mp hk
    exact hmark _ _

theorem strokes_keep (r : Renderer) (w : Window) (clear : Bool) :
    ∀ k ∈ r.strokes w content clear, Keeps P k.body := by
  have hbar : Keeps P (r.drawScrollBarIfNeeded w) := drawScrollBarIfNeeded_keeps hP r w
  have hmark : Keeps P (r.drawHighlight w (w.current - w.start) .invert) :=
    drawHighlight_keeps hP r w _ _
  have hrows {f : Nat → List (Stroke Tft)} (hf : ∀ row, ∀ k ∈ f row, Keeps P k.body) :
      ∀ k ∈ w.visibleRows.flatMap f, Keeps P k.body := by
    intro k hk
    obtain ⟨row, _, hk⟩ := List.mem_flatMap.mp hk
    exact hf row k hk
  unfold strokes
  split
  · simp only [List.forall_mem_cons, List.forall_mem_append]
    exact ⟨drawing_keeps (clear_keeps hP), frameStrokes_keep hP r content.title, hbar, hmark,
      hrows fun row => rowStrokes_keep hP hcontent w row _⟩
  split
  · simp only [List.forall_mem_cons]
    exact ⟨hbar, hmark, hrows (movedRowStrokes_keep hP hcontent r w)⟩
  split
  · simp only [List.forall_mem_cons, List.forall_mem_append]
    exact ⟨hbar, highlightStrokes_keep hP hcontent r w, rowStrokes_keep hP hcontent w _ true⟩
  · intro k hk
    cases hk

end Keeps

end Renderer

open Tft

theorem setMode_ensures {P : Tft → Prop} (mode : DrawMode) :
    Answers P (Display.setMode mode : Draw Tft Unit) fun _ t => t.paint.mode = mode :=
  Ensures.modified fun _ _ => rfl

/-- The mode in which a run of steps leaves the display: a text that fails leaves it in erase mode. -/
def Stroke.modeBehind {σ : Type} (failed : Option (Stroke σ)) : DrawMode :=
  if failed.any Stroke.isInverted then .erase else .draw

theorem Stroke.run_mode {k : Stroke Tft}
    (hk : ∀ mode, Keeps (fun t => t.paint.mode = mode) k.body) :
    Ensures (fun t => t.paint.mode = .draw) k.run (fun _ t => t.paint.mode = .draw)
      fun _ t => t.paint.mode = modeBehind (some k) := by
  cases k with
  | plain x => exact hk .draw
  | inverted x =>
    apply Ensures.bind (Q := fun _ t => t.paint.mode = .erase)
    · exact (setMode_ensures .erase).mono_error fun _ _ h => h.elim
    intro _
    apply Ensures.bind (hk .erase)
    intro _
    exact (setMode_ensures .draw).mono_error fun _ _ h => h.elim

theorem Stroke.forM_mode {strokes : List (Stroke Tft)}
    (h : ∀ k ∈ strokes, ∀ mode, Keeps (fun t => t.paint.mode = mode) k.body) {t : Tft}
    (ht : t.paint.mode = .draw) :
    match forM strokes Stroke.run t with
    | .ok _ t' => firstFailure strokes t = none ∧ t'.paint.mode = .draw
    | .error _ t' => ∃ k, firstFailure strokes t = some k ∧ t'.paint.mode = modeBehind (some k) := by
  induction strokes generalizing t with
  | nil => exact ⟨rfl, ht⟩
  | cons k rest ih =>
    have hk := Stroke.run_mode (h k List.mem_cons_self)
    rw [List.forM_cons]
    unfold firstFailure
    cases hr : k.run t with
    | ok a t' =>
      rw [bind_of_ok hr]
      exact ih (fun k' hk' => h k' (List.mem_cons_of_mem k hk')) (hk.of_ok ht hr)
    | error e t' =>
      rw [bind_of_error hr]
      exact ⟨k, rfl, hk.of_error ht hr⟩

namespace Renderer

/-- A redraw that starts in draw mode succeeds unless one of its steps fails. It leaves draw mode again,
also when it fails, except if what has failed is the title or the highlighted row: then the display is left
in erase mode. -/
theorem mode_after_refresh {r : Renderer} (hg : r.fullGraphics = true) {content : Content Tft}
    (hcontent : ∀ row, WritesOnly (content.writeRow row)) (w : Window) (clear : Bool) {t : Tft}
    (ht : t.paint.mode = .draw) :
    let failed := Stroke.firstFailure (r.strokes w content clear) t
    ((∃ kind, (r.refresh content clear).outcome (w, t) = .ok kind) ↔ failed = none) ∧
      ((r.refresh content clear).after (w, t)).2.paint.mode =
        if failed.any Stroke.isInverted then .erase else .draw := by
  intro failed
  have hmode := Stroke.forM_mode
    (fun k hk mode => strokes_keep (mode_steady mode) hcontent r w clear k hk) ht
  have hredraw : r.redraw w content clear = r.redrawFramed w content clear := if_pos hg
  unfold Action.outcome Action.after refresh
  simp only [hredraw, redrawFramed_eq_strokes]
  cases hr : forM (r.strokes w content clear) Stroke.run t with
  | ok a t' =>
    simp only [hr] at hmode
    obtain ⟨hnone, hdraw⟩ := hmode
    have hfailed : failed = none := hnone
    rw [bind_of_ok hr, hfailed]
    exact ⟨⟨fun _ => rfl, fun _ => ⟨_, rfl⟩⟩, hdraw⟩
  | error e t' =>
    simp only [hr] at hmode
    obtain ⟨k, hk, hbehind⟩ := hmode
    have hfailed : failed = some k := hk
    rw [bind_of_error hr, hfailed]
    refine ⟨⟨?_, fun h => by cases h⟩, hbehind⟩
    rintro ⟨kind, hkind⟩
    cases hkind

/-- A display of eight by nineteen pixels, started over a bus whose transfer number `n` is the only one to
fail. -/
def narrowTft (n : Nat) : Tft :=
  (Display.start : Draw Tft Unit).after
    (atRest { faults := { fails := fun i => i == n } } true true none
      { width := 8, height := 19, rotation := 0 })

def oneRow : Content Tft := { title := "a", writeRow := fun _ => Display.write "b" }

theorem oneRow_writes (row : Nat) : WritesOnly (oneRow.writeRow row) := WritesOnly.write "b"

def narrowRefresh (n : Nat) : Action DisplayError (Window × Tft) Redraw :=
  (forDisplay (narrowTft n)).refresh oneRow true

/-- The frame fails, and with it the redraw. -/
theorem failed_frame_leaves_draw :
    (∀ kind, (narrowRefresh 40).outcome (Window.ofRows 1 1, narrowTft 40) ≠ .ok kind) ∧
      ((narrowRefresh 40).after (Window.ofRows 1 1, narrowTft 40)).2.paint.mode = .draw := by
  have hfailed : (Stroke.firstFailure ((forDisplay (narrowTft 40)).strokes (Window.ofRows 1 1) oneRow
      true) (narrowTft 40)).map Stroke.isInverted = some false := by decide +kernel
  obtain ⟨k, hk, hplain⟩ := Option.map_eq_some_iff.mp hfailed
  obtain ⟨hanswers, hmode⟩ := mode_after_refresh (r := forDisplay (narrowTft 40)) (by decide)
    oneRow_writes (Window.ofRows 1 1) true (t := narrowTft 40) (by decide +kernel)
  rw [hk] at hanswers hmode
  refine ⟨fun kind hkind => ?_, ?_⟩
  · cases hanswers.mp ⟨kind, hkind⟩
  · rw [narrowRefresh, hmode, Option.any_some, hplain]
    rfl

/-- The title fails on a display that was started and stood in draw mode. The display stays in erase mode,
in which the rows that are not highlighted come out inverted. -/
theorem failed_title_leaves_erase :
    (narrowTft 73).initialized = true ∧ (narrowTft 73).paint.mode = .draw ∧
      (narrowRefresh 73).outcome (Window.ofRows 1 1, narrowTft 73) = .error .bus ∧
      ((narrowRefresh 73).after (Window.ofRows 1 1, narrowTft 73)).2.paint.mode = .erase := by
  refine ⟨?_, ?_, ?_, ?_⟩
  · decide +kernel
  · decide +kernel
  · decide +kernel
  · decide +kernel

end Renderer

end FrontPanel
