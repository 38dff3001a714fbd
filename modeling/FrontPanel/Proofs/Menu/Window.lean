import FrontPanel.Menu.Window

/-!
# The highlight stays in sight

Every window that moves from the top of its rows shows rows that exist, the highlighted one among them.
-/

namespace FrontPanel.Window

set_option autoImplicit false

/-- The highlighted row is in sight, and no line is wasted below the last row. -/
structure Valid (w : Window) : Prop where
  start_le : w.start ≤ w.current
  current_lt : w.current < w.start + w.shown
  shown_le : w.start + w.shown ≤ w.rows

def drawn (w : Window) : Window := { w with start := w.drawnStart, current := w.drawnCurrent }

theorem mem_visibleRows {w : Window} {row : Nat} :
    row ∈ w.visibleRows ↔ w.start ≤ row ∧ row < w.start + w.shown := by
  unfold visibleRows
  simp only [List.mem_range'_1]

structure Alike (w v : Window) : Prop where
  rows : w.rows = v.rows
  capacity : w.capacity = v.capacity

theorem Alike.scrolls {w v : Window} (h : w.Alike v) : w.scrolls = v.scrolls := by
  unfold Window.scrolls
  rw [h.rows, h.capacity]

theorem drawn_alike (w : Window) : w.drawn.Alike w := ⟨rfl, rfl⟩

theorem drawn_eq_self {w : Window} (hstart : w.drawnStart = w.start)
    (hcurrent : w.drawnCurrent = w.current) : w.drawn = w := by
  cases w
  cases hstart
  cases hcurrent
  rfl

namespace Valid

variable {w : Window}

theorem current_lt_rows (h : w.Valid) : w.current < w.rows := by
  have hcurrent := h.current_lt
  have hshown := h.shown_le
  omega

theorem shown_pos (h : w.Valid) : 0 < w.shown := by
  have hstart := h.start_le
  have hcurrent := h.current_lt
  omega

theorem current_mem (h : w.Valid) : w.current ∈ w.visibleRows :=
  mem_visibleRows.mpr ⟨h.start_le, h.current_lt⟩

theorem row_lt {row : Nat} (h : w.Valid) (hrow : row ∈ w.visibleRows) : row < w.rows := by
  have hlt := (mem_visibleRows.mp hrow).2
  have hshown := h.shown_le
  omega

theorem start_eq_zero (h : w.Valid) (hs : w.scrolls = false) : w.start = 0 := by
  have hshown := h.shown_le
  simp only [scrolls, decide_eq_false_iff_not] at hs
  unfold shown at hshown
  omega

theorem scrolls_of_start_ne (h : w.Valid) (hdrawn : w.drawn.Valid)
    (hne : ¬ w.drawn.start = w.start) : w.scrolls = true := by
  apply Decidable.byContradiction
  intro hnot
  have hs := Bool.eq_false_iff.mpr hnot
  exact hne ((hdrawn.start_eq_zero hs).trans (h.start_eq_zero hs).symm)

theorem drawnCurrent_mem (hdrawn : w.drawn.Valid) (hstart : w.drawn.start = w.start) :
    w.drawnCurrent ∈ w.visibleRows := by
  have hmem := mem_visibleRows.mp hdrawn.current_mem
  rw [hstart] at hmem
  exact mem_visibleRows.mpr hmem

end Valid

theorem valid_ofRows {rows capacity : Nat} (hrows : 0 < rows) (hcapacity : 0 < capacity) :
    (ofRows rows capacity).Valid := by
  refine ⟨Nat.le_refl _, ?_, ?_⟩
  · change 0 < 0 + min capacity rows
    omega
  · change 0 + min capacity rows ≤ rows
    omega

theorem startFor_mem {w : Window} {row : Nat} (hshown : 0 < w.shown) (hrow : row < w.rows) :
    w.startFor row ≤ row ∧ row < w.startFor row + w.shown ∧ w.startFor row + w.shown ≤ w.rows := by
  have hle : w.shown ≤ w.rows := Nat.min_le_right _ _
  simp only [startFor]
  by_cases habove : row < w.start
  · rw [if_pos habove]
    omega
  · rw [if_neg habove]
    by_cases hbelow : 0 < w.shown ∧ w.start + w.shown ≤ row
    · rw [if_pos hbelow]
      omega
    · rw [if_neg hbelow]
      omega

/-- A move leaves the extent and the pair drawn last, and a valid window valid. -/
structure Moves (w v : Window) : Prop where
  alike : v.Alike w
  drawnStart : v.drawnStart = w.drawnStart
  drawnCurrent : v.drawnCurrent = w.drawnCurrent
  valid : w.Valid → v.Valid

theorem Moves.refl (w : Window) : w.Moves w := ⟨⟨rfl, rfl⟩, rfl, rfl, id⟩

theorem Moves.drawn {w v : Window} (h : w.Moves v) : v.drawn = w.drawn := by
  unfold Window.drawn
  rw [h.drawnStart, h.drawnCurrent]
  obtain ⟨⟨hrows, hcapacity⟩, hstart, hcurrent, _⟩ := h
  cases w
  cases v
  cases hrows
  cases hcapacity
  cases hstart
  cases hcurrent
  rfl

theorem select_moves (row : Nat) (w : Window) : w.Moves (w.select row).2 := by
  unfold select
  by_cases hnone : w.rows = 0
  · rw [if_pos hnone]
    exact Moves.refl w
  · rw [if_neg hnone]
    refine ⟨⟨rfl, rfl⟩, rfl, rfl, fun hw => ?_⟩
    have hrow : min row (w.rows - 1) < w.rows := by omega
    obtain ⟨hle, hlt, hend⟩ := startFor_mem hw.shown_pos hrow
    exact ⟨hle, hlt, hend⟩

theorem move_moves (delta : Int) (w : Window) : w.Moves (w.move delta).2 := by
  unfold move
  by_cases hstill : w.rows = 0 ∨ delta = 0
  · rw [if_pos hstill]
    exact Moves.refl w
  · rw [if_neg hstill]
    exact select_moves _ w

theorem Valid.commit {w : Window} (h : w.Valid) : w.commit.Valid :=
  ⟨h.start_le, h.current_lt, h.shown_le⟩

theorem Valid.drawn_commit {w : Window} (h : w.Valid) : w.commit.drawn.Valid :=
  ⟨h.start_le, h.current_lt, h.shown_le⟩

end FrontPanel.Window
