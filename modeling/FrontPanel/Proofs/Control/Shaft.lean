import Mathlib.Algebra.Ring.Int.Defs
import Mathlib.Data.List.Chain
import FrontPanel.Control.Knob

/-!
# The knob and its shaft

The phase lines tell the position of the shaft up to whole cycles of four. As long as the shaft moves by at
most one position between two samples, the steps add up to the way that it went. And whatever the samples
are, steps are taken back by going back, and a sample that is repeated adds none.
-/

namespace FrontPanel.Knob

set_option autoImplicit false

/-- The phase that the lines show where the shaft stands: `00`, `B`, `AB`, `A`, and again. -/
def phaseAt (x : Int) : Phase :=
  match (x % 4).toNat with
  | 0 => .ofLevels false false
  | 1 => .ofLevels false true
  | 2 => .ofLevels true true
  | _ => .ofLevels true false

/-- The shaft goes through these positions, by at most one at a time. -/
def IsWalk (x : Int) (xs : List Int) : Prop := (x :: xs).IsChain fun y z => (z - y).natAbs ≤ 1

instance (x : Int) (xs : List Int) : Decidable (IsWalk x xs) := by
  unfold IsWalk
  infer_instance

/-- What the steps of a row of samples add up to. -/
def travel (start : Phase) (samples : List Phase) : Int := (steps start samples).sum

/-- The steps that a wired knob reports, one for each reading of the lines. -/
def Wired.pollAll {π : Type} (k : Wired π) : List (π → Bool) → List Int
  | [] => []
  | level :: rest => (k.poll level).1 :: (k.poll level).2.pollAll rest

theorem step_self (p : Phase) : step p p = 0 := by
  revert p
  decide

theorem step_back (p q : Phase) : step q p = -step p q := by
  revert p q
  decide

theorem phaseAt_eq {x r : Int} (h : x % 4 = r % 4) : phaseAt x = phaseAt r := by
  unfold phaseAt
  rw [h]

/-- The table agrees with the shaft: it counts a move to the next position, either way. -/
theorem step_phaseAt {x y : Int} (h : (y - x).natAbs ≤ 1) :
    step (phaseAt x) (phaseAt y) = y - x := by
  have hcycle : ∀ r ∈ List.range 4, ∀ d ∈ [(-1 : Int), 0, 1],
      step (phaseAt r) (phaseAt (r + d)) = d := by decide
  obtain ⟨r, hr, hx⟩ : ∃ r : Nat, r < 4 ∧ x % 4 = (r : Int) % 4 :=
    ⟨(x % 4).toNat, by omega, by omega⟩
  have hy : y % 4 = (r + (y - x)) % 4 := by omega
  have hd : y - x ∈ [(-1 : Int), 0, 1] := by
    simp only [List.mem_cons, List.not_mem_nil, or_false]
    omega
  rw [phaseAt_eq hx, phaseAt_eq hy]
  exact hcycle r (List.mem_range.mpr hr) (y - x) hd

theorem steps_append (start : Phase) (before after : List Phase) :
    steps start (before ++ after) = steps start before ++ steps (before.getLastD start) after := by
  induction before generalizing start with
  | nil => rfl
  | cons p rest ih =>
    rw [List.cons_append, steps, ih, List.getLastD_cons]
    rfl

theorem travel_append (start : Phase) (before after : List Phase) :
    travel start (before ++ after) = travel start before + travel (before.getLastD start) after := by
  unfold travel
  rw [steps_append, List.sum_append]

theorem travel_cons (start p : Phase) (rest : List Phase) :
    travel start (p :: rest) = step start p + travel p rest := by
  unfold travel
  rw [steps, List.sum_cons]

theorem travel_singleton (start p : Phase) : travel start [p] = step start p := by
  rw [travel_cons]
  exact Int.add_zero _

theorem travel_walk {x : Int} {xs : List Int} (h : IsWalk x xs) :
    travel (phaseAt x) (xs.map phaseAt) = xs.getLastD x - x := by
  induction xs generalizing x with
  | nil => exact (Int.sub_self x).symm
  | cons y rest ih =>
    obtain ⟨hstep, hrest⟩ := List.isChain_cons_cons.mp h
    rw [List.map_cons, travel_cons, step_phaseAt hstep, ih hrest, List.getLastD_cons]
    omega

/-- On the way back every step is taken back. -/
theorem travel_reverse (start : Phase) (samples : List Phase) :
    travel (samples.getLastD start) (start :: samples).reverse = -travel start samples := by
  induction samples generalizing start with
  | nil => rw [List.reverse_singleton, travel_singleton]; exact step_self start
  | cons p rest ih =>
    have hturn : (p :: rest).reverse.getLastD (rest.getLastD p) = p := by simp
    calc
      travel ((p :: rest).getLastD start) (start :: p :: rest).reverse
        = travel (rest.getLastD p) (p :: rest).reverse + step p start := by
          rw [List.reverse_cons, travel_append, List.getLastD_cons, hturn, travel_singleton]
      _ = -travel p rest + -step start p := by rw [ih, step_back start p]
      _ = -travel start (p :: rest) := by rw [travel_cons]; omega

/-- The sample at the turn may be taken once or twice. -/
theorem travel_turn (start : Phase) (samples : List Phase) :
    travel (samples.getLastD start) (start :: samples).dropLast.reverse =
      travel (samples.getLastD start) (start :: samples).reverse := by
  have hlast : (start :: samples).reverse =
      samples.getLastD start :: (start :: samples).dropLast.reverse := by
    rw [← List.getLast_eq_getLastD (List.cons_ne_nil start samples)]
    conv_lhs => rw [← List.dropLast_append_getLast (List.cons_ne_nil start samples)]
    rw [List.reverse_append, List.reverse_singleton, List.singleton_append]
  rw [hlast, travel_cons, step_self, Int.zero_add]

theorem travel_replicate (p : Phase) (k : Nat) : travel p (List.replicate k p) = 0 := by
  induction k with
  | zero => rfl
  | succ k ih => rw [List.replicate_succ, travel_cons, step_self, ih]; rfl

theorem getLastD_replicate (p : Phase) (k : Nat) : (List.replicate k p).getLastD p = p := by
  induction k with
  | zero => rfl
  | succ k ih => rw [List.replicate_succ, List.getLastD_cons, ih]

/-- Each sample may be repeated any number of times. -/
theorem travel_repeated (start : Phase) (samples : List (Phase × Nat)) :
    travel start (samples.flatMap fun s => List.replicate (s.2 + 1) s.1) =
      travel start (samples.map Prod.fst) := by
  induction samples generalizing start with
  | nil => rfl
  | cons s rest ih =>
    rw [List.flatMap_cons, List.replicate_succ, List.cons_append, travel_cons, travel_append,
      travel_replicate, getLastD_replicate, ih, List.map_cons, travel_cons]
    omega

theorem pollAll_eq {π : Type} (pinA pinB : π) (before : Phase) (readings : List (π → Bool)) :
    (Wired.mk pinA pinB before).pollAll readings =
      steps before (readings.map (Wired.read pinA pinB)) := by
  induction readings generalizing before with
  | nil => rfl
  | cons level rest ih =>
    rw [Wired.pollAll, List.map_cons, steps, ← ih]
    rfl

end FrontPanel.Knob
