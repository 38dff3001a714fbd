import Mathlib.Data.List.Perm.Basic
import FrontPanel.Control.Buttons
import FrontPanel.Proofs.Action

/-!
# Buttons are sampled as they are wired

Lines are bound one after the other, and some tries are refused: first of all those that do not name exactly
one button, then those that come when all places are taken. A sample depends on the accepted lines alone, on
each by its own active level, and neither on their order nor on the tries that were refused.
-/

namespace FrontPanel

set_option autoImplicit false

open FrontPanel.Action

namespace ButtonMask

/-- The mask names exactly one button. -/
def IsSingle (mask : ButtonMask) : Prop := ∃ i : Fin 8, mask = BitVec.twoPow 8 i

instance : DecidablePred IsSingle := fun mask =>
  inferInstanceAs (Decidable (∃ i : Fin 8, mask = BitVec.twoPow 8 i))

theorem count_eq_one_iff : ∀ mask : ButtonMask, mask.count = 1 ↔ mask.IsSingle := by decide +kernel

theorem IsSingle.getLsbD_iff {mask : ButtonMask} (h : mask.IsSingle) (i : Fin 8) :
    mask.getLsbD i = true ↔ mask = BitVec.twoPow 8 i := by
  obtain ⟨j, rfl⟩ := h
  constructor
  · intro hbit
    rw [BitVec.getLsbD_twoPow, Bool.and_eq_true, decide_eq_true_eq, decide_eq_true_eq] at hbit
    rw [hbit.2]
  · intro hmask
    rw [hmask, BitVec.getLsbD_twoPow, decide_eq_true i.isLt, decide_eq_true rfl]
    rfl

end ButtonMask

theorem isActive_iff (activeLow level : Bool) : isActive activeLow level = true ↔ level = !activeLow := by
  cases activeLow <;> cases level <;> decide

namespace ButtonLines

variable {π : Type}

/-- Tries to bind a line as it is given. -/
def bindLine (l : ButtonLine π) : Action ButtonError (ButtonLines π) Unit :=
  bind l.button l.pin l.activeLow

/-- A try takes the line in, or comes when all places are taken, or does not name one button. -/
theorem bindLine_cases (l : ButtonLine π) (b : ButtonLines π) :
    (l.button.IsSingle ∧ b.lines.length < maxLines ∧ bindLine l b = .ok () ⟨b.lines ++ [l]⟩) ∨
      (l.button.IsSingle ∧ maxLines ≤ b.lines.length ∧ bindLine l b = .error .tooManyLines b) ∨
        ¬ l.button.IsSingle ∧ bindLine l b = .error .notSingleButton b := by
  unfold bindLine bind
  by_cases hsingle : l.button.IsSingle
  · have hcount := (ButtonMask.count_eq_one_iff _).mpr hsingle
    rw [if_neg (not_not_intro hcount)]
    by_cases hfull : maxLines ≤ b.lines.length
    · exact .inr (.inl ⟨hsingle, hfull, if_pos hfull⟩)
    · exact .inl ⟨hsingle, Nat.not_le.mp hfull, if_neg hfull⟩
  · have hcount : ¬ l.button.count = 1 := fun h => hsingle ((ButtonMask.count_eq_one_iff _).mp h)
    exact .inr (.inr ⟨hsingle, if_pos hcount⟩)

theorem outcome_bindLine (l : ButtonLine π) (b : ButtonLines π) :
    (bindLine l).outcome b =
      if ¬ l.button.IsSingle then .error .notSingleButton
      else if maxLines ≤ b.lines.length then .error .tooManyLines
      else .ok () := by
  rcases bindLine_cases l b with ⟨hsingle, hroom, h⟩ | ⟨hsingle, hfull, h⟩ | ⟨hsingle, h⟩
  · rw [outcome_of_ok h, if_neg (not_not_intro hsingle), if_neg (Nat.not_le.mpr hroom)]
  · rw [outcome_of_error h, if_neg (not_not_intro hsingle), if_pos hfull]
  · rw [outcome_of_error h, if_pos hsingle]

theorem lines_of_accepted {l : ButtonLine π} {b : ButtonLines π} (h : (bindLine l).outcome b = .ok ()) :
    ((bindLine l).after b).lines = b.lines ++ [l] := by
  rcases bindLine_cases l b with ⟨_, _, hrun⟩ | ⟨_, _, hrun⟩ | ⟨_, hrun⟩
  · exact congrArg lines (after_of_ok hrun)
  · cases h.symm.trans (outcome_of_error hrun)
  · cases h.symm.trans (outcome_of_error hrun)

theorem after_of_refused {l : ButtonLine π} {b : ButtonLines π} (h : (bindLine l).outcome b ≠ .ok ()) :
    (bindLine l).after b = b := by
  rcases bindLine_cases l b with ⟨_, _, hrun⟩ | ⟨_, _, hrun⟩ | ⟨_, hrun⟩
  · exact absurd (outcome_of_ok hrun) h
  · exact after_of_error hrun
  · exact after_of_error hrun

/-- Tries to bind lines one after the other, whichever tries are refused. -/
def bindAll (b : ButtonLines π) (tried : List (ButtonLine π)) : ButtonLines π :=
  tried.foldl (fun b l => (bindLine l).after b) b

theorem bindAll_cons (b : ButtonLines π) (l : ButtonLine π) (rest : List (ButtonLine π)) :
    b.bindAll (l :: rest) = ((bindLine l).after b).bindAll rest := rfl

theorem bindAll_append (b : ButtonLines π) (earlier later : List (ButtonLine π)) :
    b.bindAll (earlier ++ later) = (b.bindAll earlier).bindAll later := List.foldl_append

/-- The lines that name one button are taken in as long as there are places left. -/
theorem lines_bindAll (b : ButtonLines π) (tried : List (ButtonLine π)) :
    (b.bindAll tried).lines =
      b.lines ++ (tried.filter fun l => l.button.IsSingle).take (maxLines - b.lines.length) := by
  induction tried generalizing b with
  | nil => simp [bindAll]
  | cons l rest ih =>
    rw [bindAll_cons, ih]
    rcases bindLine_cases l b with ⟨hsingle, hroom, h⟩ | ⟨hsingle, hfull, h⟩ | ⟨hsingle, h⟩
    · have hplaces : maxLines - b.lines.length = maxLines - (b.lines.length + 1) + 1 := by omega
      rw [after_of_ok h, hplaces]
      simp [hsingle]
    · rw [after_of_error h, Nat.sub_eq_zero_of_le hfull]
      simp
    · rw [after_of_error h]
      simp [hsingle]

theorem lines_bindAll_nil (tried : List (ButtonLine π)) :
    (bindAll {} tried).lines = (tried.filter fun l => l.button.IsSingle).take maxLines :=
  lines_bindAll {} tried

theorem isSingle_of_bound {tried : List (ButtonLine π)} {l : ButtonLine π}
    (h : l ∈ (bindAll {} tried).lines) : l.button.IsSingle := by
  rw [lines_bindAll_nil] at h
  exact of_decide_eq_true (List.mem_filter.mp (List.mem_of_mem_take h)).2

theorem length_bound_le (tried : List (ButtonLine π)) : (bindAll {} tried).lines.length ≤ maxLines := by
  rw [lines_bindAll_nil]
  exact List.length_take_le _ _

theorem getLsbD_foldl (level : π → Bool) (lines : List (ButtonLine π)) (mask : ButtonMask) (i : Nat) :
    (lines.foldl (fun mask l =>
        if isActive l.activeLow (level l.pin) then mask ||| l.button else mask) mask).getLsbD i = true ↔
      mask.getLsbD i = true ∨ ∃ l ∈ lines, l.button.getLsbD i = true ∧ level l.pin = !l.activeLow := by
  induction lines generalizing mask with
  | nil => simp
  | cons l rest ih =>
    rw [List.foldl_cons, ih, List.exists_mem_cons_iff]
    by_cases hactive : isActive l.activeLow (level l.pin) = true
    · have hlevel := (isActive_iff _ _).mp hactive
      rw [if_pos hactive, BitVec.getLsbD_or, Bool.or_eq_true, or_assoc]
      simp only [hlevel, and_true]
    · have hlevel : ¬ level l.pin = !l.activeLow := fun h => hactive ((isActive_iff _ _).mpr h)
      rw [if_neg hactive]
      simp only [hlevel, and_false, false_or]

theorem getLsbD_sample (b : ButtonLines π) (level : π → Bool) (i : Nat) :
    (b.sample level).getLsbD i = true ↔
      ∃ l ∈ b.lines, l.button.getLsbD i = true ∧ level l.pin = !l.activeLow := by
  rw [sample, getLsbD_foldl]
  simp

/-- The order in which lines were bound makes no difference. -/
theorem sample_of_perm {b b' : ButtonLines π} (h : b.lines.Perm b'.lines) (level : π → Bool) :
    b.sample level = b'.sample level := by
  apply BitVec.eq_of_getLsbD_eq
  intro i _
  rw [Bool.eq_iff_iff, getLsbD_sample, getLsbD_sample]
  simp only [h.mem_iff]

/-- Whatever lines were tried, those that name one button are bound, up to the eighth of them. A bit is in a
sample exactly if a bound line of this button shows its active level, whatever the order in which the lines
were bound. The next try is refused if it does not name one button, or else if eight lines are bound; then it
leaves no trace, neither at once nor after further tries. -/
theorem sample_of_tried (tried : List (ButtonLine π)) :
    let bound := bindAll {} tried
    bound.lines = (tried.filter fun l => l.button.IsSingle).take 8 ∧
      (∀ level (i : Fin 8), (bound.sample level).getLsbD i = true ↔
        ∃ l ∈ bound.lines, l.button = BitVec.twoPow 8 i ∧ level l.pin = !l.activeLow) ∧
      (∀ other, (bindAll {} other).lines.Perm bound.lines →
        ∀ level, (bindAll {} other).sample level = bound.sample level) ∧
      ∀ l : ButtonLine π,
        let next := bind l.button l.pin l.activeLow
        next.outcome bound =
            (if ¬ l.button.IsSingle then .error .notSingleButton
              else if bound.lines.length = 8 then .error .tooManyLines
              else .ok ()) ∧
          (next.outcome bound = .ok () → (next.after bound).lines = bound.lines ++ [l]) ∧
          (next.outcome bound ≠ .ok () → next.after bound = bound ∧
            ∀ later, bindAll {} (tried ++ l :: later) = bindAll {} (tried ++ later)) := by
  intro bound
  refine ⟨lines_bindAll_nil tried, fun level i => ?_, fun other => sample_of_perm, fun l => ?_⟩
  · rw [getLsbD_sample]
    refine exists_congr fun l => and_congr_right fun hl => and_congr_left fun _ => ?_
    exact (isSingle_of_bound hl).getLsbD_iff i
  · have hfull : maxLines ≤ bound.lines.length ↔ bound.lines.length = 8 :=
      ⟨fun h => Nat.le_antisymm (length_bound_le tried) h, fun h => Nat.le_of_eq h.symm⟩
    refine ⟨?_, lines_of_accepted, fun hrefused => ⟨after_of_refused hrefused, fun later => ?_⟩⟩
    · simp only [← hfull]
      exact outcome_bindLine l bound
    · rw [bindAll_append, bindAll_append, bindAll_cons]
      exact congrArg (bindAll · later) (after_of_refused hrefused)

end ButtonLines

end FrontPanel
