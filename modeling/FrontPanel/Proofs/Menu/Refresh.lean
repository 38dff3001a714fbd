import FrontPanel.Proofs.Menu.Redraw

/-!
# Menus on the serial display

Whatever the user does, a menu that was drawn once stays in the picture that a full redraw makes.
-/

namespace FrontPanel

set_option autoImplicit false

open FrontPanel.Action Tft

inductive WindowMove where
  | turn (delta : Int)
  | pick (row : Nat)

def WindowMove.apply (w : Window) : WindowMove → Window
  | .turn delta => (w.move delta).2
  | .pick row => (w.select row).2

inductive MenuStep where
  | move (m : WindowMove)
  | refresh (clear : Bool)

def MenuStep.run {σ : Type} [Display σ] (r : Renderer) (content : Content σ) :
    MenuStep → Action DisplayError (Window × σ) Unit
  | .move m => modify fun (w, s) => (m.apply w, s)
  | .refresh clear => do
    let _ ← r.refresh content clear
    pure ()

theorem WindowMove.moves (m : WindowMove) (w : Window) : w.Moves (m.apply w) := by
  cases m with
  | turn delta => exact Window.move_moves delta w
  | pick row => exact Window.select_moves row w

theorem Window.Moves.trans {u v w : Window} (h : u.Moves v) (h' : v.Moves w) : u.Moves w where
  alike := ⟨h'.alike.rows.trans h.alike.rows, h'.alike.capacity.trans h.alike.capacity⟩
  drawnStart := h'.drawnStart.trans h.drawnStart
  drawnCurrent := h'.drawnCurrent.trans h.drawnCurrent
  valid hu := h'.valid (h.valid hu)

theorem Window.moves_foldl (moves : List WindowMove) (w : Window) :
    w.Moves (moves.foldl WindowMove.apply w) := by
  induction moves generalizing w with
  | nil => exact Window.Moves.refl w
  | cons m rest ih => exact (m.moves w).trans (ih (m.apply w))

def MenuLook.screen (m : MenuLook) (w : Window) : Screen := (m.all w).on fun _ _ => 0

theorem MenuLook.screen_of_all {m : MenuLook} {w : Window} {s : Screen} {x y : Nat}
    (hx : x < m.layout.width) (hy : y < m.layout.height) : (m.all w).on s x y = m.screen w x y := by
  have hsome : (m.all w x y).isSome = true :=
    Layer.onto_isSome.mpr (Or.inr (Layer.rect_isSome.mpr (by omega)))
  obtain ⟨color, hcolor⟩ := Option.isSome_iff_exists.mp hsome
  simp only [MenuLook.screen, Layer.on, hcolor, Option.getD_some]

namespace Renderer

/-- What is painted over the screen drawn last makes the screen of the window. -/
theorem answers_screen {memory : Nat → Nat → Color} {d : Tft} {m : MenuLook} {w : Window}
    {pen : Pen} (hpen : Drawing pen) {x : Draw Tft Unit} {l : Layer} (kind : Redraw)
    (hx : Draws memory d Drawing x (fun _ => Drawing) l) (hl : l.onto (m.all w.drawn) = m.all w) :
    Answers (Shows memory d pen (m.screen w.drawn)) (do x; return kind) fun _ t =>
      ∃ pen', Drawing pen' ∧ Shows memory d pen' (m.screen w) t := by
  have hdo : Draws memory d Drawing (do x; return kind) (fun _ => Drawing) l :=
    Draws.bind_end hx fun _ => Draws.pure fun _ h => h
  refine (hdo pen _ hpen).mono_post fun _ t ⟨pen', hpen', ht⟩ => ⟨pen', hpen', ?_⟩
  rw [MenuLook.screen, ← Layer.onto_on, hl] at ht
  exact ht

section Redraw

variable {memory : Nat → Nat → Color} {d : Tft} (hd : d.Ready) {m : MenuLook} (hm : m.Matches d)
variable {r : Renderer} (hr : r.layout = m.layout) {w : Window} (hfits : m.Fits w.rows)
variable (hw : w.Valid) {pen : Pen} (hpen : Drawing pen)
include hd hm hr hfits hw hpen

theorem redrawFramed_full {s : Screen} :
    Answers (Shows memory d pen s) (r.redrawFramed w m.content true) fun _ t =>
      ∃ pen', Drawing pen' ∧ Shows memory d pen' (m.screen w) t := by
  have hall : Draws memory d Drawing (r.redrawFramed w m.content true) (fun _ => Drawing)
      (m.all w) := by
    unfold redrawFramed
    rw [if_pos rfl]
    refine Draws.bind_end ?_ fun _ => Draws.pure fun _ h => h
    exact drawAll_draws hd hm hr hfits.title fun row hrow => hfits.label row (hw.row_lt hrow)
  refine (hall pen s hpen).mono_post fun _ t ⟨pen', hpen', ht⟩ => ⟨pen', hpen', ht.congr ?_⟩
  intro x y hx hy
  exact MenuLook.screen_of_all (hm.width ▸ hx) (hm.height ▸ hy)

/-- A partial redraw makes the screen of a full one, if the screen of the window drawn last was one. -/
theorem redrawFramed_partial (hv : w.drawn.Valid) (hc : w.capacity = m.layout.visibleLines) :
    Answers (Shows memory d pen (m.screen w.drawn)) (r.redrawFramed w m.content false) fun _ t =>
      ∃ pen', Drawing pen' ∧ Shows memory d pen' (m.screen w) t := by
  have hlabel : ∀ row ∈ w.visibleRows, IsPlain (m.label row) :=
    fun row hrow => hfits.label row (hw.row_lt hrow)
  unfold redrawFramed
  rw [if_neg Bool.false_ne_true]
  by_cases hstart : w.drawn.start = w.start
  · have hunmoved : w.startChanged = false := by
      unfold Window.startChanged
      exact bne_eq_false_iff_eq.mpr hstart.symm
    rw [hunmoved, if_neg Bool.false_ne_true]
    by_cases hcurrent : w.current = w.drawnCurrent
    · have hsame : w.currentChanged = false := bne_eq_false_iff_eq.mpr hcurrent
      rw [hsame, if_neg Bool.false_ne_true, Window.drawn_eq_self hstart hcurrent.symm]
      exact Ensures.pure fun t ht => ⟨pen, hpen, ht⟩
    · have hmoved : w.currentChanged = true := bne_iff_ne.mpr hcurrent
      have hmem := hv.drawnCurrent_mem hstart
      have hline : w.lineOf w.drawnCurrent = some (w.drawnCurrent - w.start) :=
        if_pos (Window.mem_visibleRows.mp hmem)
      rw [hmoved, if_pos rfl]
      exact answers_screen hpen .lines
        (drawHighlightMoved_draws hd hm hr hline (hlabel _ hmem) (hlabel _ hw.current_mem))
        (MenuLook.highlightMoved_onto_all hfits hw hv hc hstart hcurrent)
  · have hmoved : w.startChanged = true := bne_iff_ne.mpr fun h => hstart h.symm
    have hscrolls := hw.scrolls_of_start_ne hv hstart
    rw [hmoved, if_pos rfl]
    exact answers_screen hpen .window (drawMoved_draws hd hm hr hlabel)
      (MenuLook.moved_onto_all hfits hw hv hc hscrolls)

end Redraw

/-- The window moves within its rows, and the screen shows what was drawn last as a full redraw shows
it. -/
structure Drawn (memory : Nat → Nat → Color) (d : Tft) (m : MenuLook) (rows : Nat)
    (s : Window × Tft) : Prop where
  rows : s.1.rows = rows
  capacity : s.1.capacity = m.layout.visibleLines
  valid : s.1.Valid
  drawnValid : s.1.drawn.Valid
  shows : ∃ pen, Drawing pen ∧ Shows memory d pen (m.screen s.1.drawn) s.2

theorem refresh_of_framed {σ : Type} [Display σ] {r : Renderer} (hg : r.fullGraphics = true)
    {w : Window} {content : Content σ} {clear : Bool} {s s' : σ} {kind : Redraw}
    (h : r.redrawFramed w content clear s = .ok kind s') :
    r.refresh content clear (w, s) = .ok kind (w.commit, s') := by
  have hredraw : r.redraw w content clear = r.redrawFramed w content clear := if_pos hg
  unfold refresh
  simp only [hredraw, h]

section Run

variable {memory : Nat → Nat → Color} {d : Tft} (hd : d.Ready) {m : MenuLook} (hm : m.Matches d)
variable {r : Renderer} (hr : r.layout = m.layout) (hg : r.fullGraphics = true)
include hd hm hr hg

theorem refresh_full {w : Window} (hfits : m.Fits w.rows) (hw : w.Valid) {pen : Pen}
    (hpen : Drawing pen) {s : Screen} {t : Tft} (ht : Shows memory d pen s t) :
    ∃ kind t', r.refresh m.content true (w, t) = .ok kind (w.commit, t') ∧
      ∃ pen', Drawing pen' ∧ Shows memory d pen' (m.screen w) t' := by
  obtain ⟨kind, t', hrun, ht'⟩ := (redrawFramed_full hd hm hr hfits hw hpen).exists_ok ht
  exact ⟨kind, t', refresh_of_framed hg hrun, ht'⟩

theorem refresh_partial {rows : Nat} (hfits : m.Fits rows) {s : Window × Tft}
    (hs : Drawn memory d m rows s) :
    ∃ kind t', r.refresh m.content false s = .ok kind (s.1.commit, t') ∧
      ∃ pen', Drawing pen' ∧ Shows memory d pen' (m.screen s.1) t' := by
  obtain ⟨w, t⟩ := s
  obtain ⟨hrows, hc, hw, hv, pen, hpen, ht⟩ := hs
  obtain ⟨kind, t', hrun, ht'⟩ :=
    (redrawFramed_partial hd hm hr (hrows ▸ hfits) hw hpen hv hc).exists_ok ht
  exact ⟨kind, t', refresh_of_framed hg hrun, ht'⟩

theorem refresh_drawn {rows : Nat} (hfits : m.Fits rows) (clear : Bool) {s : Window × Tft}
    (hs : Drawn memory d m rows s) :
    ∃ kind s', r.refresh m.content clear s = .ok kind s' ∧ Drawn memory d m rows s' := by
  have hcommit : s.1.commit.Valid := hs.valid.commit
  cases clear with
  | false =>
    obtain ⟨kind, t', hrun, hshows⟩ := refresh_partial hd hm hr hg hfits hs
    exact ⟨kind, _, hrun, hs.rows, hs.capacity, hcommit, hs.valid.drawn_commit, hshows⟩
  | true =>
    obtain ⟨pen, hpen, ht⟩ := hs.shows
    obtain ⟨kind, t', hrun, hshows⟩ :=
      refresh_full hd hm hr hg (hs.rows ▸ hfits) hs.valid hpen ht
    exact ⟨kind, _, hrun, hs.rows, hs.capacity, hcommit, hs.valid.drawn_commit, hshows⟩

theorem step_drawn {rows : Nat} (hfits : m.Fits rows) (step : MenuStep) :
    Answers (Drawn memory d m rows) (step.run r m.content) fun _ => Drawn memory d m rows := by
  cases step with
  | move move =>
    apply Ensures.modified
    intro s hs
    have hmoves := move.moves s.1
    refine ⟨hmoves.alike.rows.trans hs.rows, hmoves.alike.capacity.trans hs.capacity,
      hmoves.valid hs.valid, ?_, ?_⟩
    · exact hmoves.drawn ▸ hs.drawnValid
    · exact hmoves.drawn ▸ hs.shows
  | refresh clear =>
    refine Ensures.bind (Q := fun _ => Drawn memory d m rows) ?_ fun _ => Ensures.pure fun _ h => h
    intro s hs
    obtain ⟨kind, s', hrun, hs'⟩ := refresh_drawn hd hm hr hg hfits clear hs
    rw [hrun]
    exact hs'

theorem steps_drawn {rows : Nat} (hfits : m.Fits rows) (steps : List MenuStep) :
    Answers (Drawn memory d m rows) (steps.forM (MenuStep.run r m.content)) fun _ =>
      Drawn memory d m rows :=
  Ensures.forM fun step _ => step_drawn hd hm hr hg hfits step

end Run

theorem fullGraphics_forDisplay (d : Tft) : (forDisplay d).fullGraphics = true := by
  have hincludes : Capabilities.includes (.graphics ||| .fullGraphics ||| .color ||| .drawMode)
      .fullGraphics = true := by decide
  exact hincludes

theorem visibleLines_forDisplay (d : Tft) :
    (forDisplay d).visibleLines = (forDisplay d).layout.visibleLines :=
  if_pos (fullGraphics_forDisplay d)

/-- A menu that was drawn once in full, and then moved and redrawn in any way: the next redraw leaves the
picture that a full redraw of the same window leaves. -/
theorem partial_picture_eq_full {d : Tft} (hd : d.Ready) (hmode : d.paint.mode = .draw)
    (hbus : d.bus.Faultless) (hwidth : 8 ≤ d.width) (hheight : 19 ≤ d.height)
    {rows : Nat} (hrows : 0 < rows) {title : String} (htitle : IsPlain title)
    {label : Nat → String} (hlabel : ∀ row, row < rows →
      IsPlain (label row) ∧ 2 + 6 * (label row).length ≤ d.width - 6)
    (memory : Nat → Nat → Color) (moves : List WindowMove) (steps : List MenuStep) :
    let r := forDisplay d
    let content := Content.ofLabels title label
    let w₀ := moves.foldl WindowMove.apply (Window.ofRows rows r.visibleLines)
    ∃ w t, (MenuStep.refresh true :: steps).forM (MenuStep.run r content) (w₀, d) = .ok ⟨⟩ (w, t) ∧
      ∃ kind t' kind' t'',
        r.refresh content false (w, t) = .ok kind (w.commit, t') ∧
        r.refresh content true (w, t) = .ok kind' (w.commit, t'') ∧
        ∀ x y, x < d.width → y < d.height → t'.picture memory x y = t''.picture memory x y := by
  intro r content w₀
  let m : MenuLook := ⟨r.layout, d.paint.foreground, d.paint.background, title, label⟩
  have hm : m.Matches d := ⟨rfl, rfl, rfl, rfl⟩
  have hwidth' : d.width ≤ 65536 := Nat.le_trans (Nat.le_add_left _ _) hd.width_le
  have hfits : m.Fits rows :=
    ⟨hwidth, hwidth', hheight, htitle, fun row h => (hlabel row h).1, fun row h => (hlabel row h).2⟩
  have hg : r.fullGraphics = true := fullGraphics_forDisplay d
  have hlines : r.visibleLines = m.layout.visibleLines := visibleLines_forDisplay d
  have hcapacity : 0 < r.visibleLines := by
    rw [hlines]
    change 0 < (d.height - (8 + 1 + 1)) / (8 + 1)
    omega
  have hmoves : (Window.ofRows rows r.visibleLines).Moves w₀ := Window.moves_foldl moves _
  have hrows₀ : w₀.rows = rows := hmoves.alike.rows
  have hcapacity₀ : w₀.capacity = m.layout.visibleLines := hmoves.alike.capacity.trans hlines
  have hw₀ : w₀.Valid := hmoves.valid (Window.valid_ofRows hrows hcapacity)
  -- the first redraw finds the display in any state
  have hpen₀ : Drawing ⟨d.paint.mode, d.paint.cursorX, d.paint.cursorY⟩ := hmode
  have ht₀ : Shows memory d ⟨d.paint.mode, d.paint.cursorX, d.paint.cursorY⟩ (d.picture memory) d :=
    ⟨rfl, hbus, fun _ _ _ _ => rfl⟩
  obtain ⟨_, t₁, hrun₁, hshows₁⟩ := refresh_full hd hm rfl hg (hrows₀ ▸ hfits) hw₀ hpen₀ ht₀
  have hdrawn₁ : Drawn memory d m rows (w₀.commit, t₁) :=
    ⟨hrows₀, hcapacity₀, hw₀.commit, hw₀.drawn_commit, hshows₁⟩
  obtain ⟨_, ⟨w, t⟩, hrun₂, hdrawn₂⟩ :=
    (steps_drawn hd hm rfl hg hfits steps).exists_ok hdrawn₁
  have hrun : (MenuStep.refresh true :: steps).forM (MenuStep.run r content) (w₀, d) =
      .ok ⟨⟩ (w, t) := by
    have hfirst : MenuStep.run r content (.refresh true) (w₀, d) = .ok ⟨⟩ (w₀.commit, t₁) :=
      bind_of_ok hrun₁
    rw [List.forM_eq_forM, List.forM_cons, bind_of_ok hfirst]
    exact hrun₂
  obtain ⟨kind, t', hpartial, _, _, ht'⟩ := refresh_partial hd hm rfl hg hfits hdrawn₂
  obtain ⟨pen, hpen, ht⟩ := hdrawn₂.shows
  obtain ⟨kind', t'', hfull, _, _, ht''⟩ :=
    refresh_full hd hm rfl hg (hdrawn₂.rows ▸ hfits) hdrawn₂.valid hpen ht
  refine ⟨w, t, hrun, kind, t', kind', t'', hpartial, hfull, ?_⟩
  intro x y hx hy
  exact (ht'.picture x y hx hy).trans (ht''.picture x y hx hy).symm

def smallTft : Tft :=
  { atRest {} true true none { width := 20, height := 28 } with initialized := true }

theorem partial_picture_of_three_rows :
    let r := forDisplay smallTft
    let content := Content.ofLabels "Menu" fun _ => "a"
    let w₀ := [].foldl WindowMove.apply (Window.ofRows 3 r.visibleLines)
    ∃ w t, [MenuStep.refresh true, .move (.turn 1), .refresh false, .move (.pick 2)].forM
        (MenuStep.run r content) (w₀, smallTft) = .ok ⟨⟩ (w, t) ∧
      ∃ kind t' kind' t'',
        r.refresh content false (w, t) = .ok kind (w.commit, t') ∧
        r.refresh content true (w, t) = .ok kind' (w.commit, t'') ∧
        ∀ x y, x < 20 → y < 28 → t'.picture (fun _ _ => 0) x y = t''.picture (fun _ _ => 0) x y := by
  have hd : smallTft.Ready := ⟨rfl, rfl, by decide, by decide⟩
  have htitle : IsPlain "Menu" := by simp [IsPlain]
  have hlabel : IsPlain "a" ∧ 2 + 6 * "a".length ≤ smallTft.width - 6 :=
    ⟨by simp [IsPlain], by decide⟩
  exact partial_picture_eq_full hd rfl (fun _ _ => rfl) (by decide) (by decide) (by decide) htitle
    (fun _ _ => hlabel) (fun _ _ => 0) [] [.move (.turn 1), .refresh false, .move (.pick 2)]

end Renderer

end FrontPanel
