import Mathlib.Data.Nat.Dist
import FrontPanel.Proofs.Menu.Window
import FrontPanel.Proofs.Number.Checked

/-!
# Scrolling no further than needed

The window over a list of any length, down to none, on a screen of any number of lines, down to none. Its
bounds hold after any calls, of the pair that is due and of the pair drawn last. No call leaves the range
of sixteen bits on its way, and a turn of the knob moves the first row as little as the highlight allows.
-/

namespace FrontPanel

set_option autoImplicit false

/-- A call of a window, with arguments of the range that they come in. -/
inductive WindowCall where
  | turn (delta : Int32)
  | pick (row : UInt16)
  | setUp (rows capacity : UInt16)
  | commit

def WindowCall.apply (w : Window) : WindowCall → Window
  | .turn delta => (w.move delta.toInt).2
  | .pick row => (w.select row.toNat).2
  | .setUp rows capacity => Window.ofRows rows.toNat capacity.toNat
  | .commit => w.commit

namespace Window

/-- What holds of every window, also over an empty list or on a screen without lines. -/
structure InBounds (w : Window) : Prop where
  shown_le : w.start + w.shown ≤ w.rows
  current_lt : 0 < w.rows → w.current < w.rows
  current_eq : w.rows = 0 → w.current = 0
  inSight : 0 < w.rows → 0 < w.capacity → w.start ≤ w.current ∧ w.current < w.start + w.shown

theorem shown_le_rows (w : Window) : w.shown ≤ w.rows := Nat.min_le_right _ _

theorem shown_pos_iff (w : Window) : 0 < w.shown ↔ 0 < w.rows ∧ 0 < w.capacity := by
  unfold shown
  omega

theorem InBounds.valid {w : Window} (h : w.InBounds) (hrows : 0 < w.rows)
    (hcapacity : 0 < w.capacity) : w.Valid :=
  ⟨(h.inSight hrows hcapacity).1, (h.inSight hrows hcapacity).2, h.shown_le⟩

theorem ofRows_inBounds (rows capacity : Nat) : (ofRows rows capacity).InBounds := by
  constructor
  · exact (Nat.zero_add _).trans_le (shown_le_rows (ofRows rows capacity))
  · exact fun hrows => hrows
  · exact fun _ => rfl
  · intro hrows hcapacity
    have hpos := (shown_pos_iff (ofRows rows capacity)).mpr ⟨hrows, hcapacity⟩
    exact ⟨Nat.le_refl 0, (Nat.zero_add _).symm ▸ hpos⟩

theorem startFor_add_shown_le (w : Window) (row : Nat) : w.startFor row + w.shown ≤ w.rows := by
  have hshown := w.shown_le_rows
  simp only [startFor]
  omega

theorem startFor_eq_zero {w : Window} (hcapacity : w.capacity = 0) (hstart : w.start = 0)
    (row : Nat) : w.startFor row = 0 := by
  have hlines : ¬ 0 < w.shown := fun h => absurd (w.shown_pos_iff.mp h).2 (by omega)
  simp [startFor, hstart, hlines]

theorem select_inBounds {w : Window} (h : w.InBounds) (row : Nat) :
    (w.select row).2.InBounds := by
  unfold select
  by_cases hnone : w.rows = 0
  · rw [if_pos hnone]
    exact h
  · rw [if_neg hnone]
    have hrow : min row (w.rows - 1) < w.rows := by omega
    constructor
    · exact w.startFor_add_shown_le _
    · exact fun _ => hrow
    · exact fun hrows => absurd hrows hnone
    · intro hrows hcapacity
      have hpos := w.shown_pos_iff.mpr ⟨hrows, hcapacity⟩
      obtain ⟨hle, hlt, _⟩ := startFor_mem hpos hrow
      exact ⟨hle, hlt⟩

theorem InBounds.commit {w : Window} (h : w.InBounds) : w.commit.InBounds :=
  ⟨h.shown_le, h.current_lt, h.current_eq, h.inSight⟩

theorem InBounds.drawn_commit {w : Window} (h : w.InBounds) : w.commit.drawn.InBounds :=
  ⟨h.shown_le, h.current_lt, h.current_eq, h.inSight⟩

/-- Rows counted in sixteen bits, and both pairs within the bounds. Without lines nothing scrolls. -/
structure Sound (w : Window) : Prop where
  rows_lt : w.rows < 65536
  bounds : w.InBounds
  drawnBounds : w.drawn.InBounds
  start_eq : w.capacity = 0 → w.start = 0

theorem ofRows_sound (rows capacity : UInt16) : (ofRows rows.toNat capacity.toNat).Sound :=
  ⟨rows.toNat_lt, ofRows_inBounds _ _, ofRows_inBounds _ _, fun _ => rfl⟩

theorem select_sound {w : Window} (h : w.Sound) (row : Nat) : (w.select row).2.Sound := by
  have hmoves := select_moves row w
  refine ⟨hmoves.alike.rows ▸ h.rows_lt, select_inBounds h.bounds row, hmoves.drawn ▸ h.drawnBounds,
    fun hcapacity => ?_⟩
  rw [hmoves.alike.capacity] at hcapacity
  have hstart := h.start_eq hcapacity
  unfold select
  split
  · exact hstart
  · exact startFor_eq_zero hcapacity hstart _

theorem move_sound {w : Window} (h : w.Sound) (delta : Int) : (w.move delta).2.Sound := by
  unfold move
  by_cases hstill : w.rows = 0 ∨ delta = 0
  · rw [if_pos hstill]
    exact h
  · rw [if_neg hstill]
    exact select_sound h _

theorem Sound.commit {w : Window} (h : w.Sound) : w.commit.Sound :=
  ⟨h.rows_lt, h.bounds.commit, h.bounds.drawn_commit, h.start_eq⟩

theorem Sound.apply {w : Window} (h : w.Sound) (call : WindowCall) : (call.apply w).Sound := by
  cases call with
  | turn delta => exact move_sound h delta.toInt
  | pick row => exact select_sound h row.toNat
  | setUp rows capacity => exact ofRows_sound rows capacity
  | commit => exact h.commit

theorem Sound.run {w : Window} (h : w.Sound) (calls : List WindowCall) :
    (calls.foldl WindowCall.apply w).Sound := by
  induction calls generalizing w with
  | nil => exact h
  | cons call rest ih => exact ih (h.apply call)

open Number

def startFor? (w : Window) (row : Nat) : Option Nat := do
  let start ←
    if row < w.start then some row
    else if 0 < w.shown then do
      let stop ← sum? w.start w.shown
      if stop ≤ row then do
        let behind ← sum? row 1
        difference? behind w.shown
      else some w.start
    else some w.start
  let last ← difference? w.rows w.shown
  return min start last

def select? (row : Nat) (w : Window) : Option (Bool × Window) :=
  if w.rows = 0 then some (false, w)
  else do
    let last ← difference? w.rows 1
    let row := min row last
    let start ← w.startFor? row
    return (row != w.current, { w with start := start, current := row })

/-- The target is computed in thirty-two bits with a sign and then taken to sixteen without. -/
def move? (delta : Int) (w : Window) : Option (Bool × Window) :=
  if w.rows = 0 ∨ delta = 0 then some (false, w)
  else do
    let target ← coordinate? (clamp 0 (w.rows - 1) (clamp32 (w.current + delta)))
    w.select? target

def visibleRows? (w : Window) : Option (List Nat) := do
  let stop ← sum? w.start w.shown
  return List.range' w.start (stop - w.start)

def lineOf? (w : Window) (row : Nat) : Option (Option Nat) := do
  let stop ← sum? w.start w.shown
  if w.start ≤ row ∧ row < stop then (difference? row w.start).map some else some none

theorem startFor?_eq {w : Window} (h : w.Sound) {row : Nat} (hrow : row < w.rows) :
    w.startFor? row = some (w.startFor row) := by
  have hrows := h.rows_lt
  have hshown := h.bounds.shown_le
  have hlast : difference? w.rows w.shown = some (w.rows - w.shown) :=
    difference?_eq w.shown_le_rows
  have hstop : sum? w.start w.shown = some (w.start + w.shown) := sum?_eq (by omega)
  have hbehind : sum? row 1 = some (row + 1) := sum?_eq (by omega)
  unfold startFor? startFor
  by_cases habove : row < w.start
  · simp [habove, hlast]
  · by_cases hbelow : 0 < w.shown ∧ w.start + w.shown ≤ row
    · have hnext : difference? (row + 1) w.shown = some (row + 1 - w.shown) :=
        difference?_eq (by omega)
      simp [habove, hbelow, hlast, hstop, hbehind, hnext]
    · rw [if_neg habove, if_neg habove, if_neg hbelow]
      by_cases hlines : 0 < w.shown
      · have hinside : ¬ w.start + w.shown ≤ row := fun hle => hbelow ⟨hlines, hle⟩
        simp [hlines, hstop, hinside, hlast]
      · simp [hlines, hlast]

theorem select?_eq {w : Window} (h : w.Sound) (row : Nat) :
    w.select? row = some (w.select row) := by
  unfold select? select
  by_cases hnone : w.rows = 0
  · rw [if_pos hnone, if_pos hnone]
  · have hlast : difference? w.rows 1 = some (w.rows - 1) := difference?_eq (by omega)
    have hrow : min row (w.rows - 1) < w.rows := by omega
    have hstart := startFor?_eq h hrow
    rw [if_neg hnone, if_neg hnone]
    simp [hlast, hstart]

theorem move?_eq {w : Window} (h : w.Sound) (delta : Int) :
    w.move? delta = some (w.move delta) := by
  have hrows := h.rows_lt
  unfold move? move
  by_cases hstill : w.rows = 0 ∨ delta = 0
  · rw [if_pos hstill, if_pos hstill]
  · have hsome : 0 < w.rows := by omega
    have hlast : (0 : Int) ≤ w.rows - 1 := by omega
    have hclamp := clamp_clamp32 (by omega) hlast (by omega) (w.current + delta)
    have hrange := clamp_mem hlast (w.current + delta)
    rw [if_neg hstill, if_neg hstill, hclamp, coordinate?_eq (by omega), Int.min_comm]
    exact select?_eq h _

theorem visibleRows?_eq {w : Window} (h : w.Sound) : w.visibleRows? = some w.visibleRows := by
  have hrows := h.rows_lt
  have hshown := h.bounds.shown_le
  have hstop : sum? w.start w.shown = some (w.start + w.shown) := sum?_eq (by omega)
  simp [visibleRows?, hstop, visibleRows]

theorem lineOf?_eq {w : Window} (h : w.Sound) (row : Nat) :
    w.lineOf? row = some (w.lineOf row) := by
  have hrows := h.rows_lt
  have hshown := h.bounds.shown_le
  have hstop : sum? w.start w.shown = some (w.start + w.shown) := sum?_eq (by omega)
  unfold lineOf? lineOf
  by_cases hin : w.start ≤ row ∧ row < w.start + w.shown
  · simp [hstop, hin, difference?_eq hin.1]
  · simp [hstop, hin]

end Window

def WindowCall.apply? (w : Window) : WindowCall → Option Window
  | .turn delta => (w.move? delta.toInt).map Prod.snd
  | .pick row => (w.select? row.toNat).map Prod.snd
  | .setUp rows capacity => some (Window.ofRows rows.toNat capacity.toNat)
  | .commit => some w.commit

namespace Window

theorem Sound.apply?_eq {w : Window} (h : w.Sound) (call : WindowCall) :
    call.apply? w = some (call.apply w) := by
  cases call with
  | turn delta => exact congrArg (Option.map Prod.snd) (move?_eq h delta.toInt)
  | pick row => exact congrArg (Option.map Prod.snd) (select?_eq h row.toNat)
  | setUp rows capacity => rfl
  | commit => rfl

theorem Sound.run?_eq {w : Window} (h : w.Sound) (calls : List WindowCall) :
    calls.foldlM WindowCall.apply? w = some (calls.foldl WindowCall.apply w) := by
  induction calls generalizing w with
  | nil => rfl
  | cons call rest ih =>
    rw [List.foldlM_cons, h.apply?_eq call]
    exact ih (h.apply call)

theorem current_move {w : Window} (h : w.InBounds) (delta : Int) :
    ((w.move delta).2.current : Int) = Number.clamp 0 (w.rows - 1) (w.current + delta) := by
  have hlt := h.current_lt
  have heq := h.current_eq
  unfold move Number.clamp
  by_cases hstill : w.rows = 0 ∨ delta = 0
  · rw [if_pos hstill]
    dsimp only
    omega
  · have hsome : ¬ w.rows = 0 := fun hnone => hstill (Or.inl hnone)
    rw [if_neg hstill, select, if_neg hsome]
    dsimp only
    omega

theorem select_moved_iff (w : Window) (row : Nat) :
    (w.select row).1 = true ↔ (w.select row).2.current ≠ w.current := by
  unfold select
  by_cases hnone : w.rows = 0
  · simp [hnone]
  · simp [hnone, bne_iff_ne]

theorem move_moved_iff (w : Window) (delta : Int) :
    (w.move delta).1 = true ↔ (w.move delta).2.current ≠ w.current := by
  unfold move
  by_cases hstill : w.rows = 0 ∨ delta = 0
  · simp [hstill]
  · rw [if_neg hstill]
    exact w.select_moved_iff _

theorem startFor_current {w : Window} (h : w.Sound) (hrows : 0 < w.rows) :
    w.startFor w.current = w.start := by
  have hshown := h.bounds.shown_le
  have hsight := h.bounds.inSight hrows
  have hlines := w.shown_pos_iff
  have hunseen := h.start_eq
  have habove : ¬ w.current < w.start := by omega
  have hbelow : ¬ (0 < w.shown ∧ w.start + w.shown ≤ w.current) := by omega
  simp only [startFor, if_neg habove, if_neg hbelow]
  omega

/-- A highlight that has not moved leaves the window where it was. -/
theorem move_of_still {w : Window} (h : w.Sound) {delta : Int} (hstill : (w.move delta).1 = false) :
    (w.move delta).2 = w := by
  unfold move at hstill ⊢
  by_cases hnone : w.rows = 0 ∨ delta = 0
  · rw [if_pos hnone]
  · have hrows : ¬ w.rows = 0 := fun hrows => hnone (Or.inl hrows)
    rw [if_neg hnone, select, if_neg hrows] at hstill ⊢
    have hsame := bne_eq_false_iff_eq.mp hstill
    dsimp only
    rw [hsame, startFor_current h (Nat.pos_of_ne_zero hrows)]

/-- Where the old first row keeps the new highlight in sight it stays; otherwise the highlight comes to
rest on the nearest line. -/
theorem startFor_nearest {w : Window} (h : w.Sound) {row start : Nat} (hrow : row < w.rows)
    (hend : start + w.shown ≤ w.rows)
    (hsight : 0 < w.capacity → start ≤ row ∧ row < start + w.shown) (hne : start ≠ w.startFor row) :
    Nat.dist (w.startFor row) w.start < Nat.dist start w.start := by
  have hshown := h.bounds.shown_le
  have hlines := w.shown_pos_iff
  have hunseen := h.start_eq
  simp only [startFor, Nat.dist] at hne ⊢
  by_cases habove : row < w.start
  · rw [if_pos habove] at hne ⊢
    omega
  · rw [if_neg habove] at hne ⊢
    by_cases hbelow : 0 < w.shown ∧ w.start + w.shown ≤ row
    · rw [if_pos hbelow] at hne ⊢
      omega
    · rw [if_neg hbelow] at hne ⊢
      omega

theorem move_nearest {w : Window} (h : w.Sound) (delta : Int) {start : Nat}
    (hstart : { (w.move delta).2 with start := start }.InBounds)
    (hne : start ≠ (w.move delta).2.start) :
    Nat.dist (w.move delta).2.start w.start < Nat.dist start w.start := by
  unfold move at hstart hne ⊢
  by_cases hstill : w.rows = 0 ∨ delta = 0
  · rw [if_pos hstill] at hne ⊢
    rw [Nat.dist_self]
    exact Nat.dist_pos_of_ne hne
  · have hsome : ¬ w.rows = 0 := fun hnone => hstill (Or.inl hnone)
    rw [if_neg hstill, select, if_neg hsome] at hstart hne ⊢
    have hrows : 0 < w.rows := Nat.pos_of_ne_zero hsome
    exact startFor_nearest h (hstart.current_lt hrows) hstart.shown_le (hstart.inSight hrows) hne

/-- A list of any length on a screen of any number of lines, after any calls: both pairs are within the
bounds, and neither a call so far nor one that may follow leaves the range of sixteen bits. A turn sets
the highlight to the nearest row there is, tells whether it moved, and of all first rows within the bounds
takes the one nearest to the old. -/
theorem nearest_start_of_run (rows capacity : UInt16) (calls : List WindowCall) :
    let new := ofRows rows.toNat capacity.toNat
    let w := calls.foldl WindowCall.apply new
    w.InBounds ∧ w.drawn.InBounds ∧
      calls.foldlM WindowCall.apply? new = some w ∧
      (∀ call, WindowCall.apply? w call = some (call.apply w)) ∧
      w.visibleRows? = some w.visibleRows ∧
      (∀ row : UInt16, w.lineOf? row.toNat = some (w.lineOf row.toNat)) ∧
      ∀ delta : Int32,
        let moved := (w.move delta.toInt).1
        let v := (w.move delta.toInt).2
        (v.current : Int) = Number.clamp 0 (w.rows - 1) (w.current + delta.toInt) ∧
          (moved = true ↔ v.current ≠ w.current) ∧ v.InBounds ∧
          ∀ start, { v with start := start }.InBounds → start ≠ v.start →
            Nat.dist v.start w.start < Nat.dist start w.start := by
  intro new w
  have hnew : new.Sound := ofRows_sound rows capacity
  have hw : w.Sound := hnew.run calls
  refine ⟨hw.bounds, hw.drawnBounds, hnew.run?_eq calls, hw.apply?_eq, visibleRows?_eq hw,
    fun row => lineOf?_eq hw row.toNat, fun delta => ?_⟩
  exact ⟨current_move hw.bounds _, w.move_moved_iff _, (move_sound hw _).bounds,
    fun start hstart hne => move_nearest hw _ hstart hne⟩

end Window

end FrontPanel
