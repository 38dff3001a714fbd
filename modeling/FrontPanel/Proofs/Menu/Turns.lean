import Mathlib.Algebra.Order.BigOperators.Group.List
import Mathlib.Algebra.Ring.Int.Defs
import FrontPanel.Proofs.Control.Balance
import FrontPanel.Proofs.Menu.Requests

/-!
# A turn in parts

The knob is read tick by tick, so that one turn of the hand reaches the tracker in several readings and the
window in several moves. As long as the hand does not turn back, it makes no difference where the ticks cut
the turn, and whether the menu is drawn in between: stopping at the ends of the list, scrolling no further
than needed and carrying short steps over lose nothing that the whole turn would have kept.
-/

namespace FrontPanel

set_option autoImplicit false

open FrontPanel.Action

/-- All parts go forward, or all go back. -/
def OneWay (parts : List Int) : Prop := (∀ d ∈ parts, 0 ≤ d) ∨ ∀ d ∈ parts, d ≤ 0

instance (parts : List Int) : Decidable (OneWay parts) := by unfold OneWay; infer_instance

theorem OneWay.cons {d : Int} {parts : List Int} (h : OneWay (d :: parts)) :
    OneWay parts ∧ (0 ≤ d ∧ 0 ≤ parts.sum ∨ d ≤ 0 ∧ parts.sum ≤ 0) := by
  rcases h with h | h
  · obtain ⟨hd, hparts⟩ := List.forall_mem_cons.mp h
    exact ⟨Or.inl hparts, Or.inl ⟨hd, List.sum_nonneg hparts⟩⟩
  · obtain ⟨hd, hparts⟩ := List.forall_mem_cons.mp h
    have hsum : parts.sum ≤ parts.length • 0 := List.sum_le_card_nsmul parts 0 hparts
    exact ⟨Or.inr hparts, Or.inr ⟨hd, hsum.trans_eq (nsmul_zero _)⟩⟩

namespace Number

theorem tdiv_of_short {x r : Int} (hback : -r < x) (hforward : x < r) :
    x.tdiv r = 0 ∧ x.tmod r = x := by
  have hdiv : x.tdiv r = 0 := by
    rcases le_total 0 x with hx | hx
    · exact Int.tdiv_eq_zero_of_lt hx hforward
    · rw [← Int.neg_neg x, Int.neg_tdiv, Int.tdiv_eq_zero_of_lt (by omega) (by omega), Int.neg_zero]
  have hmod := Int.tmod_add_tdiv_mul x r
  rw [hdiv, Int.zero_mul, Int.add_zero] at hmod
  exact ⟨hdiv, hmod⟩

/-- What a division leaves over counts in the next one, if that one goes forward. -/
theorem tdiv_add_forward {r x y : Int} (hr : 0 < r) (hx : -r < x) (hy : 0 ≤ y) :
    x.tdiv r + (x.tmod r + y).tdiv r = (x + y).tdiv r := by
  rcases lt_or_ge x 0 with hneg | hpos
  · -- steps back that were too few for a detent are left over as a whole
    obtain ⟨hdiv, hmod⟩ := tdiv_of_short hx (by omega : x < r)
    rw [hdiv, hmod, Int.zero_add]
  · have hrest := Int.emod_nonneg x (Int.ne_of_gt hr)
    have hwhole := Int.emod_add_mul_ediv x r
    rw [Int.tdiv_eq_ediv_of_nonneg hpos, Int.tmod_eq_emod_of_nonneg hpos,
      Int.tdiv_eq_ediv_of_nonneg (by omega), Int.tdiv_eq_ediv_of_nonneg (by omega)]
    calc x / r + (x % r + y) / r = (x % r + y + r * (x / r)) / r := by
          rw [Int.add_mul_ediv_left _ _ (Int.ne_of_gt hr), Int.add_comm]
      _ = (x + y) / r := by
          congr 1
          omega

theorem tdiv_add_back {r x y : Int} (hr : 0 < r) (hx : x < r) (hy : y ≤ 0) :
    x.tdiv r + (x.tmod r + y).tdiv r = (x + y).tdiv r := by
  have h := tdiv_add_forward (x := -x) (y := -y) hr (by omega) (by omega)
  rw [Int.neg_tdiv, Int.neg_tmod, ← Int.neg_add, ← Int.neg_add, Int.neg_tdiv, Int.neg_tdiv] at h
  omega

end Number

namespace DetentTracker

open Number

/-- The detents of some readings together, and the tracker behind them. -/
def updateAll (t : DetentTracker) : List (ButtonMask × Int) → Int × DetentTracker
  | [] => (0, t)
  | (buttons, steps) :: rest =>
    let now := t.update buttons steps
    let later := now.2.updateAll rest
    (now.1.detents + later.1, later.2)

/-- Steps that all go one way make as many detents in several readings as in one, together with what was
carried over from before, whichever way that went. -/
theorem updateAll_detents {t : DetentTracker} {r : Nat} (hr : 0 < r ∧ r ≤ 255)
    (hresolution : t.resolution = r) (hcarry : t.carry.natAbs < r)
    {readings : List (ButtonMask × Int)} (hbytes : ∀ x ∈ readings, IsByte x.2)
    (hway : OneWay (readings.map Prod.snd)) :
    (t.updateAll readings).1 = (t.carry + (readings.map Prod.snd).sum).tdiv r := by
  induction readings generalizing t with
  | nil =>
    have hnone := (tdiv_of_short (x := t.carry) (r := r) (by omega) (by omega)).1
    rw [List.map_nil, List.sum_nil, Int.add_zero, hnone]
    rfl
  | cons x rest ih =>
    obtain ⟨buttons, steps⟩ := x
    obtain ⟨hbyte, hbytes⟩ := List.forall_mem_cons.mp hbytes
    obtain ⟨hrest, hsign⟩ := hway.cons
    have hword := carry_add_isWord hr.2 hcarry hbyte
    obtain ⟨hdetents, hnext⟩ := update_of_isWord buttons hword
    rw [hresolution] at hdetents hnext
    have hlater := ih (t := (t.update buttons steps).2) hresolution
      (hnext ▸ natAbs_tmod_lt (t.carry + steps) hr.1) hbytes hrest
    rw [hnext] at hlater
    change (t.update buttons steps).1.detents + ((t.update buttons steps).2.updateAll rest).1 = _
    rw [hdetents, hlater, List.map_cons, List.sum_cons, ← Int.add_assoc]
    have hpos : (0 : Int) < r := by omega
    rcases hsign with ⟨hsteps, hsum⟩ | ⟨hsteps, hsum⟩
    · exact tdiv_add_forward hpos (by omega) hsum
    · exact tdiv_add_back hpos (by omega) hsum

end DetentTracker

namespace Window

/-- The highlight is on a row, not above the first row in sight, and if any row is in sight, on one of
those. -/
structure Placed (w : Window) : Prop where
  current_lt : 0 < w.rows → w.current < w.rows
  start_le : 0 < w.rows → w.start ≤ w.current
  inSight : 0 < w.shown → w.current < w.start + w.shown

theorem Sound.placed {w : Window} (h : w.Sound) : w.Placed where
  current_lt := h.bounds.current_lt
  start_le hrows := by
    rcases Nat.eq_zero_or_pos w.capacity with hnone | hlines
    · exact (h.start_eq hnone).trans_le (Nat.zero_le _)
    · exact (h.bounds.inSight hrows hlines).1
  inSight hshown := by
    obtain ⟨hrows, hlines⟩ := w.shown_pos_iff.mp hshown
    exact (h.bounds.inSight hrows hlines).2

theorem Placed.commit {w : Window} (h : w.Placed) : w.commit.Placed :=
  ⟨h.current_lt, h.start_le, h.inSight⟩

/-- The window with another row highlighted. -/
def scrolledTo (w : Window) (row : Nat) : Window := { w with start := w.startFor row, current := row }

/-- Scrolled to a row and then on to one behind it, the window is where it would be if it had been scrolled
to the second one at once. -/
theorem scrolledTo_scrolledTo {w : Window} (h : w.Placed) {row row' : Nat} (hrow : row < w.rows)
    (hrow' : row' < w.rows)
    (hway : w.current ≤ row ∧ row ≤ row' ∨ row ≤ w.current ∧ row' ≤ row) :
    (w.scrolledTo row).scrolledTo row' = w.scrolledTo row' := by
  have hstart := h.start_le (Nat.zero_lt_of_lt hrow)
  have hsight := h.inSight
  have hshown := w.shown_le_rows
  have hfirst : (w.scrolledTo row).startFor row' = w.startFor row' := by
    change (let start := if row' < w.startFor row then row'
        else if 0 < w.shown ∧ w.startFor row + w.shown ≤ row' then row' + 1 - w.shown
        else w.startFor row
      min start (w.rows - w.shown)) = w.startFor row'
    simp only [startFor]
    split_ifs <;> omega
  change { w with start := (w.scrolledTo row).startFor row', current := row' } = w.scrolledTo row'
  rw [hfirst]
  rfl

theorem startFor_le {w : Window} {row : Nat} (hrow : row < w.rows) : w.startFor row ≤ row := by
  by_cases hlines : 0 < w.shown
  · exact (startFor_mem hlines hrow).1
  · simp only [startFor]
    split_ifs <;> omega

theorem scrolledTo_placed {w : Window} {row : Nat} (hrow : row < w.rows) : (w.scrolledTo row).Placed where
  current_lt _ := hrow
  start_le _ := startFor_le hrow
  inSight hlines := (startFor_mem (w := w) hlines hrow).2.1

/-- The row that a turn is due to highlight. -/
def target (w : Window) (delta : Int) : Nat := (max 0 (min (w.current + delta) (w.rows - 1))).toNat

theorem target_lt {w : Window} (hrows : 0 < w.rows) (delta : Int) : w.target delta < w.rows := by
  unfold target
  omega

theorem move_zero (w : Window) : (w.move 0).2 = w := by simp [move]

theorem move_of_rows_eq_zero {w : Window} (hrows : w.rows = 0) (delta : Int) :
    (w.move delta).2 = w := by simp [move, hrows]

theorem move_of_ne {w : Window} (hrows : 0 < w.rows) {delta : Int} (hdelta : delta ≠ 0) :
    (w.move delta).2 = w.scrolledTo (w.target delta) := by
  have hlast : min (w.target delta) (w.rows - 1) = w.target delta :=
    Nat.min_eq_left (Nat.le_sub_one_of_lt (target_lt hrows delta))
  rw [move, if_neg (by omega), select, if_neg (by omega)]
  change w.scrolledTo (min (w.target delta) (w.rows - 1)) = _
  rw [hlast]

theorem Placed.move {w : Window} (h : w.Placed) (delta : Int) : (w.move delta).2.Placed := by
  by_cases hrows : 0 < w.rows
  · by_cases hdelta : delta = 0
    · rw [hdelta, move_zero]
      exact h
    · rw [move_of_ne hrows hdelta]
      exact scrolledTo_placed (target_lt hrows delta)
  · rw [move_of_rows_eq_zero (by omega)]
    exact h

/-- Two turns the same way are one turn. -/
theorem move_move {w : Window} (h : w.Placed) {a b : Int} (hway : 0 ≤ a ∧ 0 ≤ b ∨ a ≤ 0 ∧ b ≤ 0) :
    ((w.move a).2.move b).2 = (w.move (a + b)).2 := by
  by_cases hrows : 0 < w.rows
  · by_cases ha : a = 0
    · rw [ha, move_zero, Int.zero_add]
    · by_cases hb : b = 0
      · rw [hb, move_zero, Int.add_zero]
      · have hcurrent := h.current_lt hrows
        have hbetween : w.current ≤ w.target a ∧ w.target a ≤ w.target (a + b) ∨
            w.target a ≤ w.current ∧ w.target (a + b) ≤ w.target a := by
          unfold target
          omega
        -- a first turn that stops at the end of the rows stops where the whole turn does
        have hagain : (w.scrolledTo (w.target a)).target b = w.target (a + b) := by
          change (max 0 (min ((w.target a : Int) + b) (w.rows - 1))).toNat = w.target (a + b)
          unfold target
          omega
        calc ((w.move a).2.move b).2
            = (w.scrolledTo (w.target a)).scrolledTo (w.target (a + b)) := by
              rw [move_of_ne hrows ha, move_of_ne (w := w.scrolledTo (w.target a)) hrows hb, hagain]
          _ = w.scrolledTo (w.target (a + b)) :=
              scrolledTo_scrolledTo h (target_lt hrows a) (target_lt hrows (a + b)) hbetween
          _ = (w.move (a + b)).2 := (move_of_ne hrows (by omega)).symm
  · have hnone : w.rows = 0 := by omega
    rw [move_of_rows_eq_zero hnone, move_of_rows_eq_zero hnone, move_of_rows_eq_zero hnone]

/-- The first row and the highlighted one. -/
def place (w : Window) : Nat × Nat := (w.start, w.current)

/-- What was drawn last has no part in a turn. -/
theorem move_commit_place (w : Window) (delta : Int) :
    (w.commit.move delta).2.place = (w.move delta).2.place := by
  by_cases hrows : 0 < w.rows
  · by_cases hdelta : delta = 0
    · rw [hdelta, move_zero, move_zero]
      rfl
    · rw [move_of_ne hrows hdelta, move_of_ne (w := w.commit) hrows hdelta]
      rfl
  · have hnone : w.rows = 0 := by omega
    rw [move_of_rows_eq_zero hnone, move_of_rows_eq_zero (w := w.commit) hnone]
    rfl

end Window

/-- A turn of the knob, or a call that draws the window or takes it as drawn. -/
inductive TurnStep (σ : Type) where
  | turn (delta : Int)
  | commit
  | refresh (r : Renderer) (content : Content σ) (clear : Bool)

namespace TurnStep

variable {σ : Type}

def turns : List (TurnStep σ) → List Int
  | [] => []
  | .turn delta :: rest => delta :: turns rest
  | .commit :: rest => turns rest
  | .refresh _ _ _ :: rest => turns rest

variable [Display σ]

def apply (x : Window × σ) : TurnStep σ → Window × σ
  | .turn delta => ((x.1.move delta).2, x.2)
  | .commit => (x.1.commit, x.2)
  | .refresh r content clear => (r.refresh content clear).after x

/-- Steps that turn the window one way take it where their sum takes it. -/
theorem run_place {steps : List (TurnStep σ)} (hway : OneWay (turns steps)) {x : Window × σ}
    (h : x.1.Placed) :
    (steps.foldl apply x).1.place = (x.1.move (turns steps).sum).2.place := by
  induction steps generalizing x with
  | nil => exact congrArg Window.place (Window.move_zero x.1).symm
  | cons step rest ih =>
    cases step with
    | turn delta =>
      obtain ⟨hrest, hsign⟩ := hway.cons
      have hmoved := ih hrest (x := ((x.1.move delta).2, x.2)) (h.move delta)
      rw [Window.move_move h hsign] at hmoved
      exact hmoved
    | commit =>
      have hdrawn := ih hway (x := (x.1.commit, x.2)) h.commit
      exact hdrawn.trans (Window.move_commit_place _ _)
    | refresh r content clear =>
      have hwindow := Renderer.window_after_refresh r content clear x.1 x.2
      have hdrawn := ih hway (x := (r.refresh content clear).after x) (hwindow ▸ h.commit)
      rw [hwindow] at hdrawn
      exact hdrawn.trans (Window.move_commit_place _ _)

end TurnStep

/-- A turn of the hand one way, however the ticks cut it. A window within its bounds, as every window is
that moved from the top of its rows, ends where a single move by the sum takes it, whatever was drawn on the
way and whether the drawing answered or failed. A tracker reports one detent for each whole multiple of its
resolution in the carry and the sum of the steps, counted towards zero. -/
theorem turn_in_parts {σ : Type} [Display σ] (s : σ) :
    (∀ (rows capacity : UInt16) (calls : List WindowCall),
      (calls.foldl WindowCall.apply (Window.ofRows rows.toNat capacity.toNat)).Placed) ∧
    (∀ (w : Window) (steps : List (TurnStep σ)), w.Placed → OneWay (TurnStep.turns steps) →
      let v := (steps.foldl TurnStep.apply (w, s)).1
      let once := (w.move (TurnStep.turns steps).sum).2
      v.start = once.start ∧ v.current = once.current) ∧
    ∀ (t : DetentTracker) (r : Nat) (readings : List (ButtonMask × Int)),
      0 < r ∧ r ≤ 255 → t.resolution = r → t.carry.natAbs < r →
      (∀ x ∈ readings, Number.IsByte x.2) → OneWay (readings.map Prod.snd) →
      let sum := t.carry + (readings.map Prod.snd).sum
      let detents := (t.updateAll readings).1
      (0 ≤ sum → detents = sum / r) ∧ (sum ≤ 0 → detents = -(-sum / r)) := by
  refine ⟨fun rows capacity calls => ?_, fun w steps hw hway => ?_,
    fun t r readings hr hresolution hcarry hbytes hway => ?_⟩
  · exact ((Window.ofRows_sound rows capacity).run calls).placed
  · have hplace := TurnStep.run_place hway (x := (w, s)) hw
    exact ⟨congrArg Prod.fst hplace, congrArg Prod.snd hplace⟩
  · have hdetents := DetentTracker.updateAll_detents hr hresolution hcarry hbytes hway
    refine ⟨fun hsum => ?_, fun hsum => ?_⟩
    · rw [hdetents, Int.tdiv_eq_ediv_of_nonneg hsum]
    · rw [hdetents, ← Int.tdiv_eq_ediv_of_nonneg (by omega), Int.neg_tdiv, Int.neg_neg]

/-- Five rows on in two turns, past the end of the list, with a redraw between them; twelve steps in two
readings, of which the first completes a detent that was nearly complete. -/
theorem turn_in_two_parts :
    let steps := [.turn 2, .refresh (Renderer.forDisplay Renderer.fullRecorder) Renderer.numbered false,
      .turn 3]
    (steps.foldl TurnStep.apply (Renderer.turnedBack, Renderer.fullRecorder)).1.place = (4, 9) ∧
    (DetentTracker.updateAll { resolution := 4, carry := 3 } [(0, 2), (0, 7)]).1 = 3 := by
  obtain ⟨hplaced, hwindow, htracker⟩ := turn_in_parts Renderer.fullRecorder
  have hfound := hwindow Renderer.turnedBack
    [.turn 2, .refresh (Renderer.forDisplay Renderer.fullRecorder) Renderer.numbered false, .turn 3]
    (hplaced 10 6 [.pick 8, .commit, .turn (-2)]) (by decide)
  have hcounted := (htracker { resolution := 4, carry := 3 } 4 [(0, 2), (0, 7)] (by decide) rfl
    (by decide) (by decide) (by decide)).1 (by decide)
  have hend : ((Renderer.turnedBack.move 5).2.start, (Renderer.turnedBack.move 5).2.current) = (4, 9) := by
    decide
  exact ⟨(Prod.ext hfound.1 hfound.2).trans hend, hcounted⟩

end FrontPanel
