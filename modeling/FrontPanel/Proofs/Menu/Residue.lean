import FrontPanel.Proofs.Display.Grid
import FrontPanel.Proofs.Menu.Refresh

/-!
# What a menu in text leaves behind

Without graphics every refresh writes all lines again, and it neither clears them nor pads them. A label
replaces only as many characters as it has, so that the end of a longer one stays in sight. A refresh
leaves the screen of a cleared one exactly if all that sticks out is blank.
-/

namespace FrontPanel

set_option autoImplicit false

open FrontPanel.Action

/-- What can be read after texts were written over one another from the same place, the latest text
first. -/
def overwritten : List (List Char) → List Char
  | [] => []
  | latest :: older => latest ++ (overwritten older).drop latest.length

theorem getD_overwritten (latest : List Char) (older : List (List Char)) (i : Nat) :
    (overwritten (latest :: older)).getD i ' ' = latest[i]?.getD ((overwritten older).getD i ' ') := by
  change (latest ++ (overwritten older).drop latest.length).getD i ' ' = _
  rw [List.getD_eq_getElem?_getD, List.getD_eq_getElem?_getD]
  rcases Nat.lt_or_ge i latest.length with hlt | hge
  · rw [List.getElem?_append_left hlt, List.getElem?_eq_getElem hlt]
    rfl
  · rw [List.getElem?_append_right hge, List.getElem?_drop, Nat.add_sub_cancel' hge,
      List.getElem?_eq_none hge]
    rfl

theorem length_overwritten_le {texts : List (List Char)} {n : Nat} (h : ∀ t ∈ texts, t.length ≤ n) :
    (overwritten texts).length ≤ n := by
  induction texts with
  | nil => exact Nat.zero_le n
  | cons latest older ih =>
    have hlatest := h latest List.mem_cons_self
    have holder := ih fun t ht => h t (List.mem_cons_of_mem _ ht)
    simp only [overwritten, List.length_append, List.length_drop]
    omega

/-- Blanks at the end of a text do not show. -/
theorem getD_append_eq_iff (text rest : List Char) :
    (∀ i, (text ++ rest).getD i ' ' = text.getD i ' ') ↔ ∀ c ∈ rest, c = ' ' := by
  constructor
  · intro h c hc
    obtain ⟨i, hi, rfl⟩ := List.getElem_of_mem hc
    have hcell := h (text.length + i)
    simpa [hi] using hcell
  · intro h i
    rw [List.getD_eq_getElem?_getD, List.getD_eq_getElem?_getD]
    rcases Nat.lt_or_ge i text.length with hlt | hge
    · rw [List.getElem?_append_left hlt]
    · rw [List.getElem?_append_right hge, List.getElem?_eq_none hge]
      cases hget : rest[i - text.length]? with
      | none => rfl
      | some c => exact h c (List.mem_of_getElem? hget)

namespace Window

theorem Alike.shown {w v : Window} (h : w.Alike v) : w.shown = v.shown := by
  unfold Window.shown
  rw [h.rows, h.capacity]

theorem nodup_visibleRows (w : Window) : w.visibleRows.Nodup := List.nodup_range'

/-- The line of a window on which its highlight stands begins with a mark. -/
def mark (w : Window) (line : Nat) : Char := if w.start + line = w.current then '>' else ' '

end Window

section Lines

variable (label : Nat → String)

def labelOn (line : Nat) (w : Window) : List Char := (label (w.start + line)).toList

/-- What a line shows after windows were drawn on a cleared screen, the latest window first. -/
def lineText (line : Nat) : List Window → List Char
  | [] => []
  | w :: older => w.mark line :: ' ' :: overwritten ((w :: older).map (labelOn label line))

theorem lineText_singleton (line : Nat) (w : Window) :
    lineText label line [w] = w.mark line :: ' ' :: labelOn label line w := by
  simp [lineText, overwritten]

/-- The screen shows what windows of some height leave of one another. -/
def Grid.Shows (height : Nat) (drawn : List Window) (g : Grid) : Prop :=
  ∀ column line, g.cells column line =
    if line < height then (lineText label line drawn).getD column ' ' else ' '

variable {label}

theorem Grid.shows_cleared (height : Nat) (g : Grid) : g.cleared.Shows label height [] :=
  fun _ _ => (ite_self _).symm

end Lines

namespace Renderer

section Redraw

variable (label : Nat → String) (title : String) (w : Window)

/-- A row as it is written on its line. -/
def writtenRow (row : Nat) (g : Grid) : Grid :=
  ((((g.moved 0 (row - w.start)).written [if row = w.current then '>' else ' ']).moved 2
    (row - w.start)).written (label row).toList)

theorem cells_writtenRow (row : Nat) (g : Grid) (column line : Nat) :
    (writtenRow label w row g).cells column line =
      if line = row - w.start then
        match column with
        | 0 => if row = w.current then '>' else ' '
        | 1 => g.cells 1 line
        | i + 2 => (label row).toList[i]?.getD (g.cells (i + 2) line)
      else g.cells column line := by
  unfold writtenRow Grid.written Grid.moved
  by_cases hline : line = row - w.start
  · match column with
    | 0 => simp [hline]
    | 1 => simp [hline]
    | i + 2 => simp [hline]
  · simp [hline]

/-- The rows of a window written on their lines. -/
def writtenRows (rows : List Nat) (g : Grid) : Grid :=
  rows.foldl (fun g row => writtenRow label w row g) g

theorem cells_writtenRows {rows : List Nat} (hrows : rows.Nodup)
    (hstart : ∀ row ∈ rows, w.start ≤ row) (g : Grid) (column line : Nat) :
    (writtenRows label w rows g).cells column line =
      if w.start + line ∈ rows then
        match column with
        | 0 => w.mark line
        | 1 => g.cells 1 line
        | i + 2 => (labelOn label line w)[i]?.getD (g.cells (i + 2) line)
      else g.cells column line := by
  induction rows generalizing g with
  | nil => rfl
  | cons row rest ih =>
    obtain ⟨hfresh, hrest⟩ := List.nodup_cons.mp hrows
    have hle : w.start ≤ row := hstart row List.mem_cons_self
    refine (ih hrest (fun other hother => hstart other (List.mem_cons_of_mem _ hother))
      (writtenRow label w row g)).trans ?_
    by_cases hrow : w.start + line = row
    · subst hrow
      rw [if_neg hfresh, if_pos List.mem_cons_self, cells_writtenRow, if_pos (by omega)]
      rfl
    · have hsame (column : Nat) :
          (writtenRow label w row g).cells column line = g.cells column line := by
        rw [cells_writtenRow, if_neg (by omega)]
      simp only [hsame, List.mem_cons, hrow, false_or]

theorem redrawText_eq (clear : Bool) (g : Grid) :
    redrawText w (Content.ofLabels title label) clear g =
      .ok () (writtenRows label w w.visibleRows (if clear then g.cleared else g)) := by
  have hrows (g : Grid) : (w.visibleRows.forM fun row => do
      Display.setCursor 0 (row - w.start)
      Display.write (if row = w.current then ">" else " ")
      Display.setCursor 2 (row - w.start)
      (Content.ofLabels title label).writeRow row : Draw Grid Unit) g =
        .ok () (writtenRows label w w.visibleRows g) := by
    refine forM_of_ok (fun row g => ?_) _ _
    by_cases hcurrent : row = w.current
    · simp only [hcurrent, writtenRow, if_true]
      rfl
    · simp only [hcurrent, writtenRow, if_false]
      rfl
  cases clear with
  | false => exact hrows g
  | true => exact hrows g.cleared

theorem refresh_eq {r : Renderer} (hr : r.fullGraphics = false) (clear : Bool) (g : Grid) :
    r.refresh (Content.ofLabels title label) clear (w, g) = .ok .text
      (w.commit, writtenRows label w w.visibleRows (if clear then g.cleared else g)) := by
  have hredraw : r.redraw w (Content.ofLabels title label) clear g = .ok .text
      (writtenRows label w w.visibleRows (if clear then g.cleared else g)) := by
    unfold redraw
    rw [hr, if_neg Bool.false_ne_true]
    exact bind_of_ok (redrawText_eq label title w clear g)
  unfold refresh
  simp only [hredraw]

variable {label w}

theorem shows_writtenRows {drawn : List Window} {g : Grid} (h : g.Shows label w.shown drawn) :
    (writtenRows label w w.visibleRows g).Shows label w.shown (w :: drawn) := by
  intro column line
  have hstart : ∀ row ∈ w.visibleRows, w.start ≤ row := fun row hrow =>
    (Window.mem_visibleRows.mp hrow).1
  rw [cells_writtenRows label w w.nodup_visibleRows hstart]
  by_cases hline : line < w.shown
  · rw [if_pos (Window.mem_visibleRows.mpr ⟨Nat.le_add_right _ _, Nat.add_lt_add_left hline _⟩),
      if_pos hline]
    match column with
    | 0 => rfl
    | 1 =>
      refine (h 1 line).trans ?_
      rw [if_pos hline]
      cases drawn <;> rfl
    | i + 2 =>
      have hold : g.cells (i + 2) line =
          (overwritten (drawn.map (labelOn label line))).getD i ' ' := by
        rw [h, if_pos hline]
        cases drawn <;> rfl
      refine Eq.trans ?_ (getD_overwritten (labelOn label line w) _ i).symm
      rw [← hold]
  · rw [if_neg fun hmem => hline (by have := (Window.mem_visibleRows.mp hmem).2; omega),
      if_neg hline, h, if_neg hline]

end Redraw

theorem residue_eq_nil {label : Nat → String} {line : Nat} {w : Window} {drawn : List Window}
    (h : ∀ v ∈ drawn, (labelOn label line v).length ≤ (labelOn label line w).length) :
    (overwritten (drawn.map (labelOn label line))).drop (labelOn label line w).length = [] := by
  refine List.drop_of_length_le (length_overwritten_le fun t ht => ?_)
  obtain ⟨v, hv, rfl⟩ := List.mem_map.mp ht
  exact h v hv

section Refresh

variable {r : Renderer} (hr : r.fullGraphics = false) (title : String)
include hr

theorem shows_refresh_cleared (label : Nat → String) (w : Window) (g : Grid) :
    ∃ g', r.refresh (Content.ofLabels title label) true (w, g) = .ok .text (w.commit, g') ∧
      g'.Shows label w.shown [w] :=
  ⟨_, refresh_eq label title w hr true g, shows_writtenRows (Grid.shows_cleared _ g)⟩

theorem shows_refresh {label : Nat → String} {w : Window} {drawn : List Window} {g : Grid}
    (clear : Bool) (h : g.Shows label w.shown drawn) :
    ∃ g', r.refresh (Content.ofLabels title label) clear (w, g) = .ok .text (w.commit, g') ∧
      g'.Shows label w.shown (w :: if clear then [] else drawn) := by
  cases clear with
  | false => exact ⟨_, refresh_eq label title w hr false g, shows_writtenRows h⟩
  | true => exact shows_refresh_cleared hr title label w g

end Refresh

/-- Two screens are alike exactly if all that older labels leave beyond the label of their line is blank. -/
theorem cells_eq_iff {label : Nat → String} {w : Window} {drawn : List Window} {g g' : Grid}
    (h : g.Shows label w.shown (w :: drawn)) (h' : g'.Shows label w.shown [w]) :
    g.cells = g'.cells ↔ ∀ line, line < w.shown →
      ∀ c ∈ (overwritten (drawn.map (labelOn label line))).drop (labelOn label line w).length,
        c = ' ' := by
  have hlines : g.cells = g'.cells ↔ ∀ line, line < w.shown → ∀ column,
      (lineText label line (w :: drawn)).getD column ' ' =
        (lineText label line [w]).getD column ' ' := by
    constructor
    · intro heq line hline column
      have hcell := congrFun (congrFun heq column) line
      rwa [h, h', if_pos hline, if_pos hline] at hcell
    · intro hall
      funext column line
      rw [h, h']
      by_cases hline : line < w.shown
      · rw [if_pos hline, if_pos hline, hall line hline]
      · rw [if_neg hline, if_neg hline]
  rw [hlines]
  refine forall_congr' fun line => forall_congr' fun _ => ?_
  rw [lineText_singleton, ← getD_append_eq_iff (labelOn label line w)]
  constructor
  · exact fun hall i => hall (i + 2)
  · intro hall column
    match column with
    | 0 => rfl
    | 1 => rfl
    | i + 2 => exact hall i

/-- A menu in text: its window, and the windows that were drawn since the screen was cleared, the latest
first. -/
structure TextMenu where
  window : Window
  drawn : List Window := []

namespace TextMenu

def step (m : TextMenu) : MenuStep → TextMenu
  | .move move => { m with window := move.apply m.window }
  | .refresh clear => ⟨m.window.commit, m.window :: if clear then [] else m.drawn⟩

section Run

variable {r : Renderer} (hr : r.fullGraphics = false) (title : String)
variable {label : Nat → String} {m : TextMenu} {g : Grid}
include hr

theorem step_run (a : MenuStep) (h : g.Shows label m.window.shown m.drawn) :
    ∃ g', a.run r (Content.ofLabels title label) (m.window, g) = .ok () ((m.step a).window, g') ∧
      g'.Shows label (m.step a).window.shown (m.step a).drawn := by
  cases a with
  | move move =>
    have hshown : (m.step (.move move)).window.shown = m.window.shown :=
      (move.moves m.window).alike.shown
    exact ⟨g, rfl, hshown ▸ h⟩
  | refresh clear =>
    obtain ⟨g', hrun, hshows⟩ := shows_refresh hr title clear h
    exact ⟨g', bind_of_ok hrun, hshows⟩

theorem steps_run (steps : List MenuStep) (h : g.Shows label m.window.shown m.drawn) :
    let m' := steps.foldl step m
    ∃ g', steps.forM (MenuStep.run r (Content.ofLabels title label)) (m.window, g) =
        .ok ⟨⟩ (m'.window, g') ∧ g'.Shows label m'.window.shown m'.drawn := by
  induction steps generalizing m g with
  | nil => exact ⟨g, rfl, h⟩
  | cons a rest ih =>
    obtain ⟨g', hrun, hshows⟩ := step_run hr title a h
    obtain ⟨g'', hrest, hshows'⟩ := ih hshows
    exact ⟨g'', (forM_cons_of_ok hrun).trans hrest, hshows'⟩

end Run

/-- The menu that a first refresh of a window, with a clear, and then some steps make. -/
def ofSteps (w : Window) (steps : List MenuStep) : TextMenu :=
  steps.foldl step ⟨w.commit, [w]⟩

end TextMenu

/-- A menu in text that was drawn once on a cleared screen, and then moved and redrawn in any way: the next
redraw writes mark, blank and label on every line, and behind the label stays what older and longer labels
of the line left there. The screen is the one of a redraw that clears exactly if all of that is blank. -/
theorem text_redraw_eq_cleared_iff {r : Renderer} (hr : r.fullGraphics = false) (title : String)
    (label : Nat → String) (w₀ : Window) (g₀ : Grid) (steps : List MenuStep) :
    let content := Content.ofLabels title label
    let m := TextMenu.ofSteps w₀ steps
    ∃ g, (MenuStep.refresh true :: steps).forM (MenuStep.run r content) (w₀, g₀) =
        .ok ⟨⟩ (m.window, g) ∧
      ∃ g' g'', r.refresh content false (m.window, g) = .ok .text (m.window.commit, g') ∧
        r.refresh content true (m.window, g) = .ok .text (m.window.commit, g'') ∧
        (∀ column line, g'.cells column line = if line < m.window.shown then
          (m.window.mark line :: ' ' ::
            overwritten ((m.window :: m.drawn).map (labelOn label line))).getD column ' ' else ' ') ∧
        (∀ column line, g''.cells column line = if line < m.window.shown then
          (m.window.mark line :: ' ' :: labelOn label line m.window).getD column ' ' else ' ') ∧
        (g'.cells = g''.cells ↔ ∀ line, line < m.window.shown →
          ∀ c ∈ (overwritten (m.drawn.map (labelOn label line))).drop
            (labelOn label line m.window).length, c = ' ') ∧
        ((∀ line, line < m.window.shown → ∀ w ∈ m.drawn,
          (labelOn label line w).length ≤ (labelOn label line m.window).length) →
            g'.cells = g''.cells) := by
  intro content m
  obtain ⟨g₁, hfirst, hshows₁⟩ := shows_refresh_cleared hr title label w₀ g₀
  obtain ⟨g, hrest, hshows⟩ := TextMenu.steps_run (m := ⟨w₀.commit, [w₀]⟩) hr title steps hshows₁
  change g.Shows label m.window.shown m.drawn at hshows
  obtain ⟨g', hredraw, hshows'⟩ := shows_refresh hr title false hshows
  change g'.Shows label m.window.shown (m.window :: m.drawn) at hshows'
  obtain ⟨g'', hclear, hshows''⟩ := shows_refresh_cleared hr title label m.window g
  have heq := cells_eq_iff hshows' hshows''
  refine ⟨g, ?_, g', g'', hredraw, hclear, hshows', ?_, heq, fun hlength => ?_⟩
  · have hrun : MenuStep.run r content (.refresh true) (w₀, g₀) = .ok ⟨⟩ (w₀.commit, g₁) :=
      bind_of_ok hfirst
    exact (forM_cons_of_ok hrun).trans hrest
  · intro column line
    rw [hshows'', lineText_singleton]
  · refine heq.mpr fun line hline => ?_
    rw [residue_eq_nil fun w hw => hlength line hline w hw]
    exact List.forall_mem_nil _

def oneLine : Renderer where
  layout := {}
  fullGraphics := false
  textLines := 1

theorem equal_labels_leave_nothing :
    oneLine.fullGraphics = false ∧
      let content := Content.ofLabels "" fun row => if row = 0 then "ab" else "cd"
      ∃ w g, [MenuStep.refresh true, .move (.turn 1)].forM (MenuStep.run oneLine content)
          (Window.ofRows 2 1, ({} : Grid)) = .ok ⟨⟩ (w, g) ∧
        ∃ g' g'', oneLine.refresh content false (w, g) = .ok .text (w.commit, g') ∧
          oneLine.refresh content true (w, g) = .ok .text (w.commit, g'') ∧ g'.cells = g''.cells := by
  refine ⟨rfl, ?_⟩
  obtain ⟨g, hrun, g', g'', hredraw, hclear, -, -, -, heq⟩ := text_redraw_eq_cleared_iff
    (r := oneLine) rfl "" (fun row => if row = 0 then "ab" else "cd") (Window.ofRows 2 1) {}
    [.move (.turn 1)]
  exact ⟨_, g, hrun, g', g'', hredraw, hclear, heq (by decide)⟩

/-- The end of the first label stays behind the second one. -/
theorem shorter_label_leaves_end :
    let content := Content.ofLabels "" fun row => if row = 0 then "abc" else "d"
    ∃ w g, [MenuStep.refresh true, .move (.turn 1)].forM (MenuStep.run oneLine content)
        (Window.ofRows 2 1, ({} : Grid)) = .ok ⟨⟩ (w, g) ∧
      ∃ g' g'', oneLine.refresh content false (w, g) = .ok .text (w.commit, g') ∧
        oneLine.refresh content true (w, g) = .ok .text (w.commit, g'') ∧
        (List.range 5).map (g'.cells · 0) = "> dbc".toList ∧
        (List.range 5).map (g''.cells · 0) = "> d  ".toList ∧ g'.cells ≠ g''.cells := by
  refine ⟨_, _, rfl, _, _, rfl, rfl, by decide, by decide, fun heq => ?_⟩
  have hcell := congrFun (congrFun heq 3) 0
  revert hcell
  decide

end Renderer

end FrontPanel
