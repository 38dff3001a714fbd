import FrontPanel.Proofs.Menu.Layers
import FrontPanel.Proofs.Menu.Window

/-!
# A partial redraw is a full one

The screen of a framed menu has three parts that do not overlap: the lines, the scroll bar, and all else,
which does not depend on the window. A redraw that was not asked to clear paints every pixel of the parts
that may have changed, as a full redraw would.
-/

namespace FrontPanel.MenuLook

set_option autoImplicit false

open Layer

variable (m : MenuLook)

structure Fits (rows : Nat) : Prop where
  width : 8 ≤ m.layout.width
  width_le : m.layout.width ≤ 65536
  height : 19 ≤ m.layout.height
  title : IsPlain m.title
  label : ∀ row, row < rows → IsPlain (m.label row)
  labelWidth : ∀ row, row < rows →
    Layout.textX + Glyph.width * (m.label row).toList.length ≤ m.layout.barX

/-- The pixels of a screen line, which its highlight covers. -/
def OnLine (w : Window) (line x y : Nat) : Prop :=
  (1 ≤ x ∧ x < 1 + m.layout.highlightWidth w.scrolls) ∧
    Layout.lineTop line ≤ y ∧ y < Layout.lineTop line + Layout.lineHeight

/-- A row on the whole of its line. -/
def line (w : Window) (highlighted : Bool) (row : Nat) : Layer :=
  (m.row w highlighted row).onto
    (m.highlight w (row - w.start) (if highlighted then m.ink else m.paper))

def lines (w : Window) : Layer :=
  pile (w.visibleRows.map fun row => m.line w (row == w.current) row)

def base : Layer := m.frame.onto (rect 0 0 m.layout.width m.layout.height m.paper)

variable {m} {w : Window}

theorem highlight_isSome {line x y : Nat} {color : Color} :
    (m.highlight w line color x y).isSome = true ↔ m.OnLine w line x y := rect_isSome

theorem OnLine.unique {i j x y : Nat} (hi : m.OnLine w i x y) (hj : m.OnLine w j x y) : i = j := by
  have hi := hi.2
  have hj := hj.2
  simp only [Layout.lineTop, Layout.titleHeight, Layout.lineHeight, Glyph.height] at hi hj
  omega

theorem row_isSome (hm : m.Fits w.rows) (highlighted : Bool) {row x y : Nat} (hrow : row < w.rows) :
    (m.row w highlighted row x y).isSome = true ↔
      (Layout.textX ≤ x ∧ x < m.rowEnd row) ∧
        Layout.textTop (row - w.start) ≤ y ∧ y < Layout.textTop (row - w.start) + Glyph.height := by
  have hwidth := hm.labelWidth row hrow
  have hscreen := hm.width_le
  have hend : Layout.textX + Glyph.width * (m.label row).toList.length < 65536 := by
    unfold Layout.barX at hwidth
    omega
  rw [rowEnd, Glyph.textEnd_eq hend]
  exact text_isSome hend

theorem textX_le_rowEnd (hm : m.Fits w.rows) {row : Nat} (hrow : row < w.rows) :
    Layout.textX ≤ m.rowEnd row ∧ m.rowEnd row ≤ m.layout.barX := by
  have hwidth := hm.labelWidth row hrow
  have hscreen := hm.width_le
  rw [rowEnd, Glyph.textEnd_eq (by unfold Layout.barX at hwidth; omega)]
  exact ⟨Nat.le_add_right _ _, hwidth⟩

theorem onLine_of_row (hm : m.Fits w.rows) {highlighted : Bool} {row x y : Nat}
    (hrow : row < w.rows) (h : (m.row w highlighted row x y).isSome = true) :
    m.OnLine w (row - w.start) x y := by
  obtain ⟨hx, hy⟩ := (row_isSome hm highlighted hrow).mp h
  have hwidth := (textX_le_rowEnd hm hrow).2
  simp only [Layout.textX, Layout.textTop, Layout.barX, Glyph.height] at hx hy hwidth
  simp only [OnLine, Layout.lineHeight, Layout.highlightWidth, Glyph.height]
  split
  · omega
  · omega

theorem line_isSome (hm : m.Fits w.rows) (highlighted : Bool) {row x y : Nat}
    (hrow : row < w.rows) :
    (m.line w highlighted row x y).isSome = true ↔ m.OnLine w (row - w.start) x y := by
  unfold line
  rw [onto_isSome, highlight_isSome]
  constructor
  · rintro (h | h)
    · exact onLine_of_row hm hrow h
    · exact h
  · exact Or.inr

theorem line_none (hm : m.Fits w.rows) (highlighted : Bool) {row x y : Nat} (hrow : row < w.rows)
    (hoff : ¬ m.OnLine w (row - w.start) x y) : m.line w highlighted row x y = none := by
  apply Option.not_isSome_iff_eq_none.mp
  rw [line_isSome hm highlighted hrow]
  exact hoff

/-- Padding makes a row cover its line, as if the line had been erased before. -/
theorem rowPadded_eq (hm : m.Fits w.rows) (hs : w.scrolls = true) {row : Nat}
    (hrow : row < w.rows) : m.rowPadded w row = m.line w false row := by
  obtain ⟨hleft, hright⟩ := textX_le_rowEnd hm hrow
  have hmin := hm.width
  have hbar : m.layout.barX = 1 + m.layout.highlightWidth true := by
    unfold Layout.barX Layout.highlightWidth
    rw [if_pos rfl]
    omega
  unfold rowPadded line highlight
  rw [hs, hbar]
  rw [hbar] at hright
  exact pile_padding m.paper ⟨hleft, hright⟩ (by decide) fun x y => row_isSome hm false hrow

theorem row_unique {i j x y : Nat} (hi : i ∈ w.visibleRows) (hj : j ∈ w.visibleRows)
    (hoi : m.OnLine w (i - w.start) x y) (hoj : m.OnLine w (j - w.start) x y) : i = j := by
  have hline := hoi.unique hoj
  have hi := Window.mem_visibleRows.mp hi
  have hj := Window.mem_visibleRows.mp hj
  omega

def OnLines (w : Window) (layer : Nat → Layer) : Prop :=
  ∀ row, row ∈ w.visibleRows → ∀ x y, (layer row x y).isSome = true → m.OnLine w (row - w.start) x y

theorem pile_rows {layer : Nat → Layer} (hlayer : OnLines (m := m) w layer) {row x y : Nat}
    (hrow : row ∈ w.visibleRows) (hon : m.OnLine w (row - w.start) x y) :
    pile (w.visibleRows.map layer) x y = layer row x y := by
  apply pile_alone (List.mem_map_of_mem hrow)
  intro k hk
  obtain ⟨other, hother, rfl⟩ := List.mem_map.mp hk
  by_cases hsame : other = row
  · exact Or.inr (by rw [hsame])
  · left
    apply Option.not_isSome_iff_eq_none.mp
    intro hsome
    exact hsame (row_unique hother hrow (hlayer other hother x y hsome) hon)

theorem pile_rows_none {layer : Nat → Layer} (hlayer : OnLines (m := m) w layer) {x y : Nat}
    (hoff : ∀ row, row ∈ w.visibleRows → ¬ m.OnLine w (row - w.start) x y) :
    pile (w.visibleRows.map layer) x y = none := by
  apply pile_eq_none
  intro k hk
  obtain ⟨row, hrow, rfl⟩ := List.mem_map.mp hk
  apply Option.not_isSome_iff_eq_none.mp
  intro hsome
  exact hoff row hrow (hlayer row hrow x y hsome)

section Valid

variable (hm : m.Fits w.rows) (hw : w.Valid)
include hm hw

theorem line_onLines (highlight : Nat → Bool) :
    OnLines (m := m) w fun row => m.line w (highlight row) row :=
  fun _ hrow _ _ h => (line_isSome hm _ (hw.row_lt hrow)).mp h

/-- Piling the rows on the highlight, where all other lines are blank, gives the lines. -/
theorem lines_eq {layer : Nat → Layer} {below : Option Color} {x y : Nat}
    (hlayer : OnLines (m := m) w layer)
    (hcurrent : layer w.current x y = m.row w true w.current x y)
    (hother : ∀ row, row ∈ w.visibleRows → row ≠ w.current → m.OnLine w (row - w.start) x y →
      (layer row x y).or below = (m.line w false row x y).or below) :
    ((pile (w.visibleRows.map layer)).onto (m.highlight w (w.current - w.start) m.ink) x y).or below =
      (m.lines w x y).or below := by
  by_cases hon : ∃ row ∈ w.visibleRows, m.OnLine w (row - w.start) x y
  · obtain ⟨row, hrow, hon⟩ := hon
    have hlines : m.lines w x y = m.line w (row == w.current) row x y :=
      pile_rows (line_onLines hm hw _) hrow hon
    rw [onto, pile_rows hlayer hrow hon, hlines]
    by_cases hsame : row = w.current
    · subst hsame
      rw [hcurrent, beq_self_eq_true]
      rfl
    · have hnone : m.highlight w (w.current - w.start) m.ink x y = none := by
        apply Option.not_isSome_iff_eq_none.mp
        intro hsome
        exact hsame (row_unique hrow hw.current_mem hon (highlight_isSome.mp hsome))
      rw [hnone, Option.or_none, hother row hrow hsame hon, beq_false_of_ne hsame]
  · have hoff : ∀ row, row ∈ w.visibleRows → ¬ m.OnLine w (row - w.start) x y :=
      fun row hrow h => hon ⟨row, hrow, h⟩
    have hnone : m.highlight w (w.current - w.start) m.ink x y = none := by
      apply Option.not_isSome_iff_eq_none.mp
      intro hsome
      exact hoff w.current hw.current_mem (highlight_isSome.mp hsome)
    have hlines : m.lines w x y = none := pile_rows_none (line_onLines hm hw _) hoff
    rw [onto, pile_rows_none hlayer hoff, hnone, hlines, Option.none_or]

end Valid

theorem onLine_bounds (hm : m.Fits w.rows) (hc : w.capacity = m.layout.visibleLines)
    {line x y : Nat} (hline : line < w.shown) (hon : m.OnLine w line x y) :
    (1 ≤ x ∧ x + 1 < m.layout.width) ∧ (Layout.titleHeight ≤ y ∧ y + 1 < m.layout.height) ∧
      (w.scrolls = true → x < m.layout.barX) := by
  have hwidth := hm.width
  have hle : w.shown ≤ w.capacity := Nat.min_le_left _ _
  obtain ⟨hx, hy⟩ := hon
  simp only [Layout.visibleLines, Layout.titleHeight, Layout.lineTop, Layout.lineHeight,
    Layout.barX, Layout.highlightWidth, Glyph.height] at hc hx hy ⊢
  cases hs : w.scrolls with
  | true =>
    rw [hs, if_pos rfl] at hx
    omega
  | false =>
    rw [hs, if_neg Bool.false_ne_true] at hx
    exact ⟨by omega, by omega, fun h => by cases h⟩

theorem frame_none {x y : Nat} (hx : 1 ≤ x ∧ x + 1 < m.layout.width)
    (hy : Layout.titleHeight ≤ y ∧ y + 1 < m.layout.height) : m.frame x y = none := by
  have htext : text (m.textColors true) Layout.textX 1 m.title.toList x y = none := by
    apply Option.not_isSome_iff_eq_none.mp
    intro h
    have hrow := text_row h
    simp only [Layout.titleHeight, Layout.lineHeight, Glyph.height] at hy hrow
    omega
  have htitle : 1 ≤ Layout.titleHeight := by decide
  apply pile_eq_none
  intro l hl
  simp only [List.mem_cons, List.not_mem_nil, or_false] at hl
  rcases hl with rfl | rfl | rfl | rfl | rfl | rfl | rfl
  · exact rect_of_not_mem _ (by omega)
  · exact rect_of_not_mem _ (by omega)
  · exact rect_of_not_mem _ (by omega)
  · exact rect_of_not_mem _ (by omega)
  · exact rect_of_not_mem _ (by omega)
  · exact rect_of_not_mem _ (by omega)
  · exact htext

/-- The pixels that the scroll bar covers do not depend on where the thumb is. -/
theorem scrollBar_isSome {x y : Nat} (hrows : w.start ≤ w.rows) :
    (m.scrollBar w x y).isSome = true ↔
      ((m.layout.barX ≤ x ∧ x < m.layout.barX + 1) ∧
        Layout.titleHeight ≤ y ∧ y < Layout.titleHeight + m.layout.sideLength) ∨
      ((m.layout.thumbX ≤ x ∧ x < m.layout.thumbX + Layout.thumbWidth) ∧
        Layout.trackTop ≤ y ∧ y < Layout.trackTop + m.layout.trackLength) := by
  have hoffset : (scrollThumb16 m.layout.trackLength w.capacity w.rows w.start).1 ≤
      m.layout.trackLength := scrollThumb16_offset_le hrows
  unfold scrollBar
  generalize scrollThumb16 m.layout.trackLength w.capacity w.rows w.start = thumb at hoffset
  simp only [pile, onto_isSome, rect_isSome, blank, Option.isSome_none, Bool.false_eq_true, false_or]
  omega

theorem scrollBarIfNeeded_none (hm : m.Fits w.rows) (hw : w.Valid) {x y : Nat}
    (hbeside : w.scrolls = true → x < m.layout.barX) : m.scrollBarIfNeeded w x y = none := by
  have hwidth := hm.width
  have hstart := hw.start_le
  have hcurrent := hw.current_lt_rows
  unfold scrollBarIfNeeded
  split
  · apply Option.not_isSome_iff_eq_none.mp
    rw [scrollBar_isSome (by omega)]
    have hx := hbeside ‹_›
    simp only [Layout.barX, Layout.thumbX] at hx ⊢
    omega
  · rfl

theorem all_eq (hm : m.Fits w.rows) (hw : w.Valid) (hc : w.capacity = m.layout.visibleLines) :
    m.all w = (m.lines w).onto ((m.scrollBarIfNeeded w).onto m.base) := by
  funext x y
  have hsplit : m.all w x y =
      ((pile (w.visibleRows.map fun row => m.row w (row == w.current) row)).onto
        (m.highlight w (w.current - w.start) m.ink) x y).or
          ((m.scrollBarIfNeeded w).onto m.base x y) := by
    simp only [all, base, pile, onto, blank, Option.none_or, Option.or_assoc]
  rw [hsplit]
  apply lines_eq hm hw
  · intro row hrow x y h
    exact onLine_of_row hm (hw.row_lt hrow) h
  · rw [beq_self_eq_true]
  · -- beside its text, a line that is not highlighted shows the cleared screen
    intro row hrow hother hon
    have hmem := Window.mem_visibleRows.mp hrow
    obtain ⟨hx, hy, hbar⟩ := onLine_bounds hm hc (by omega) hon
    have hrest : (m.scrollBarIfNeeded w).onto m.base x y = some m.paper := by
      rw [onto, scrollBarIfNeeded_none hm hw hbar, Option.none_or, base, onto, frame_none hx hy,
        Option.none_or]
      exact rect_of_mem _ (by omega) (by omega)
    have hpaper : m.highlight w (row - w.start) m.paper x y = some m.paper :=
      rect_of_mem _ hon.1 hon.2
    rw [beq_false_of_ne hother, hrest, line, onto, if_neg Bool.false_ne_true, hpaper]
    cases m.row w false row x y with
    | none => rfl
    | some color => rfl

theorem moved_eq (hm : m.Fits w.rows) (hw : w.Valid) (hs : w.scrolls = true) :
    m.moved w = (m.lines w).onto (m.scrollBarIfNeeded w) := by
  funext x y
  have hsplit : m.moved w x y =
      ((pile (w.visibleRows.map fun row =>
        if row = w.current then m.row w true row else m.rowPadded w row)).onto
          (m.highlight w (w.current - w.start) m.ink) x y).or (m.scrollBarIfNeeded w x y) := by
    simp only [moved, pile, onto, blank, Option.none_or, Option.or_assoc]
  rw [hsplit]
  apply lines_eq hm hw
  · intro row hrow x y h
    have hlt := hw.row_lt hrow
    dsimp only at h
    by_cases hsame : row = w.current
    · rw [if_pos hsame] at h
      exact onLine_of_row hm hlt h
    · rw [if_neg hsame, rowPadded_eq hm hs hlt] at h
      exact (line_isSome hm false hlt).mp h
  · rw [if_pos rfl]
  · intro row hrow hother _
    rw [if_neg hother, rowPadded_eq hm hs (hw.row_lt hrow)]

theorem highlightMoved_eq (hm : m.Fits w.rows) (hw : w.Valid) {old : Nat} (hold : old ∈ w.visibleRows)
    (hdrawn : w.drawnCurrent = old) (hmoved : w.current ≠ old) :
    m.highlightMoved w (old - w.start) =
      ((m.line w true w.current).onto (m.line w false old)).onto (m.scrollBarIfNeeded w) := by
  funext x y
  -- the old text and the new highlight are on different lines
  have hapart : m.row w false old x y = none ∨
      m.highlight w (w.current - w.start) m.ink x y = none := by
    by_cases hrow : (m.row w false old x y).isSome = true
    · right
      apply Option.not_isSome_iff_eq_none.mp
      intro hcurrent
      have hon := onLine_of_row hm (hw.row_lt hold) hrow
      exact hmoved (row_unique hw.current_mem hold (highlight_isSome.mp hcurrent) hon)
    · exact Or.inl (Option.not_isSome_iff_eq_none.mp hrow)
  simp only [highlightMoved, line, pile, onto, blank, hdrawn, Option.none_or, Option.or_assoc,
    if_true, Bool.false_eq_true, if_false]
  rcases hapart with h | h
  · rw [h]
    rfl
  · rw [h]
    rfl

theorem lines_isSome (hm : m.Fits w.rows) (hw : w.Valid) {x y : Nat} :
    (m.lines w x y).isSome = true ↔ ∃ line, line < w.shown ∧ m.OnLine w line x y := by
  constructor
  · intro h
    apply Classical.byContradiction
    intro hoff
    have hnone : m.lines w x y = none := by
      apply pile_rows_none (line_onLines hm hw _)
      intro row hrow hon
      have hmem := Window.mem_visibleRows.mp hrow
      exact hoff ⟨row - w.start, by omega, hon⟩
    rw [hnone] at h
    cases h
  · rintro ⟨line, hline, hon⟩
    have hrow : w.start + line ∈ w.visibleRows := Window.mem_visibleRows.mpr (by omega)
    have hsub : w.start + line - w.start = line := Nat.add_sub_cancel_left _ _
    rw [← hsub] at hon
    unfold lines
    rw [pile_rows (line_onLines hm hw _) hrow hon]
    exact (line_isSome hm _ (hw.row_lt hrow)).mpr hon

theorem scrollBarIfNeeded_isSome {v : Window} (hw : w.Valid) (hv : v.Valid) (ha : v.Alike w)
    {x y : Nat} (h : (m.scrollBarIfNeeded v x y).isSome = true) :
    (m.scrollBarIfNeeded w x y).isSome = true := by
  have hstart := hw.start_le
  have hcurrent := hw.current_lt_rows
  have hstart' := hv.start_le
  have hcurrent' := hv.current_lt_rows
  unfold scrollBarIfNeeded at h ⊢
  rw [ha.scrolls] at h
  split at h
  · rw [if_pos ‹_›]
    rw [scrollBar_isSome (by omega)] at h
    exact (scrollBar_isSome (by omega)).mpr h
  · cases h

theorem moved_onto_all (hm : m.Fits w.rows) (hw : w.Valid) (hv : w.drawn.Valid)
    (hc : w.capacity = m.layout.visibleLines) (hs : w.scrolls = true) :
    (m.moved w).onto (m.all w.drawn) = m.all w := by
  rw [moved_eq hm hw hs, all_eq hm hw hc, all_eq (w := w.drawn) hm hv hc]
  rw [← onto_assoc (m.lines w.drawn), ← onto_assoc (m.lines w)]
  apply onto_of_covers
  intro x y h
  rw [onto_isSome] at h ⊢
  rcases h with h | h
  · left
    rw [lines_isSome (w := w.drawn) hm hv] at h
    exact (lines_isSome hm hw).mpr h
  · exact Or.inr (scrollBarIfNeeded_isSome hw hv w.drawn_alike h)

theorem lines_scrollBar_apart (hm : m.Fits w.rows) (hw : w.Valid)
    (hc : w.capacity = m.layout.visibleLines) (x y : Nat) :
    m.scrollBarIfNeeded w x y = none ∨ m.lines w x y = none := by
  by_cases hlines : (m.lines w x y).isSome = true
  · left
    obtain ⟨line, hline, hon⟩ := (lines_isSome hm hw).mp hlines
    obtain ⟨_, _, hbar⟩ := onLine_bounds hm hc hline hon
    exact scrollBarIfNeeded_none hm hw hbar
  · exact Or.inr (Option.not_isSome_iff_eq_none.mp hlines)

theorem lines_drawn (hstart : w.drawn.start = w.start) :
    m.lines w.drawn = pile (w.visibleRows.map fun row => m.line w (row == w.drawnCurrent) row) := by
  have hrows : w.drawn.visibleRows = w.visibleRows := by
    unfold Window.visibleRows
    rw [hstart]
    rfl
  have hline (highlighted : Bool) (row : Nat) :
      m.line w.drawn highlighted row = m.line w highlighted row := by
    unfold line MenuLook.row
    rw [hstart]
    rfl
  unfold lines
  simp only [hrows, hline]
  rfl

/-- Two lines painted over others, seen on the line of one row. -/
theorem twoLines_onto (hm : m.Fits w.rows) (hw : w.Valid) {old row x y : Nat}
    (hold : old ∈ w.visibleRows) (hrow : row ∈ w.visibleRows)
    (hon : m.OnLine w (row - w.start) x y) (below : Layer) :
    ((m.line w true w.current).onto (m.line w false old)).onto below x y =
      if row = w.current then m.line w true row x y
      else if row = old then m.line w false row x y
      else below x y := by
  have hsome (highlighted : Bool) : (m.line w highlighted row x y).isSome = true :=
    (line_isSome hm highlighted (hw.row_lt hrow)).mpr hon
  have hnone (highlighted : Bool) {other : Nat} (hother : other ∈ w.visibleRows)
      (hne : ¬ row = other) : m.line w highlighted other x y = none :=
    line_none hm highlighted (hw.row_lt hother) fun h => hne (row_unique hrow hother hon h)
  rw [onto_assoc]
  by_cases hcurrent : row = w.current
  · subst hcurrent
    rw [onto_of_isSome (hsome true), if_pos rfl]
  · rw [onto, hnone true hw.current_mem hcurrent, Option.none_or, if_neg hcurrent]
    by_cases hdrawn : row = old
    · subst hdrawn
      rw [onto_of_isSome (hsome false), if_pos rfl]
    · rw [onto, hnone false hold hdrawn, Option.none_or, if_neg hdrawn]

/-- If the highlight alone has moved, all lines but two are as they were. -/
theorem twoLines_onto_lines (hm : m.Fits w.rows) (hw : w.Valid) (hv : w.drawn.Valid)
    (hstart : w.drawn.start = w.start) :
    ((m.line w true w.current).onto (m.line w false w.drawnCurrent)).onto (m.lines w.drawn) =
      m.lines w := by
  have hold := hv.drawnCurrent_mem hstart
  rw [lines_drawn hstart, lines]
  funext x y
  by_cases hon : ∃ row ∈ w.visibleRows, m.OnLine w (row - w.start) x y
  · obtain ⟨row, hrow, hon⟩ := hon
    rw [twoLines_onto hm hw hold hrow hon, pile_rows (line_onLines hm hw _) hrow hon,
      pile_rows (line_onLines hm hw _) hrow hon]
    by_cases hcurrent : row = w.current
    · rw [if_pos hcurrent, hcurrent, beq_self_eq_true]
    · rw [if_neg hcurrent, beq_false_of_ne hcurrent]
      by_cases hdrawn : row = w.drawnCurrent
      · rw [if_pos hdrawn]
      · rw [if_neg hdrawn, beq_false_of_ne hdrawn]
  · have hoff : ∀ row, row ∈ w.visibleRows → ¬ m.OnLine w (row - w.start) x y :=
      fun row hrow h => hon ⟨row, hrow, h⟩
    have hnone (highlighted : Bool) {row : Nat} (hrow : row ∈ w.visibleRows) :
        m.line w highlighted row x y = none :=
      line_none hm highlighted (hw.row_lt hrow) (hoff row hrow)
    rw [onto, onto, pile_rows_none (line_onLines hm hw _) hoff,
      pile_rows_none (line_onLines hm hw _) hoff, hnone true hw.current_mem, hnone false hold]
    rfl

theorem highlightMoved_onto_all (hm : m.Fits w.rows) (hw : w.Valid) (hv : w.drawn.Valid)
    (hc : w.capacity = m.layout.visibleLines) (hstart : w.drawn.start = w.start)
    (hmoved : w.current ≠ w.drawnCurrent) :
    (m.highlightMoved w (w.drawnCurrent - w.start)).onto (m.all w.drawn) = m.all w := by
  have hold := hv.drawnCurrent_mem hstart
  have hbar : m.scrollBarIfNeeded w.drawn = m.scrollBarIfNeeded w := by
    unfold scrollBarIfNeeded scrollBar
    rw [hstart]
    rfl
  have hapart := lines_scrollBar_apart (w := w.drawn) hm hv hc
  rw [hbar] at hapart
  rw [highlightMoved_eq hm hw hold rfl hmoved, all_eq hm hw hc, all_eq (w := w.drawn) hm hv hc, hbar]
  rw [onto_assoc, onto_comm hapart, onto_of_covers fun _ _ h => h, ← onto_assoc]
  rw [twoLines_onto_lines hm hw hv hstart]

end FrontPanel.MenuLook
