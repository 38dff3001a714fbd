import FrontPanel.Proofs.Menu.Scroll
import FrontPanel.Proofs.Page.Hooks

/-!
# The window of a menu page

What the hooks of a menu page make of its window. Coming to the top, the page sets it up anew around the
old highlight; in a tick it follows the knob. Drawing may fail, and it does not matter to the window.
-/

namespace FrontPanel

set_option autoImplicit false

open FrontPanel.Action (Ensures Keeps)

namespace Window

/-- The window fits its rows and has not changed since it was drawn. -/
structure Restored (w : Window) : Prop where
  sound : w.Sound
  committed : w.commit = w

theorem Sound.restored {w : Window} (h : w.Sound) : w.commit.Restored := ⟨h.commit, rfl⟩

theorem Restored.unchanged {w : Window} (h : w.Restored) :
    w.startChanged = false ∧ w.currentChanged = false := by
  rw [← h.committed]
  simp [startChanged, currentChanged, commit]

theorem current_followed_eq_clamp {w : Window} (h : w.InBounds) (detents : Int) :
    ((w.followed detents).current : Int) = Number.clamp 0 (w.rows - 1) (w.current + detents) := by
  rw [current_followed, ← current_move h]

theorem Restored.followed {w : Window} (h : w.Restored) (detents : Int) :
    (w.followed detents).Restored := by
  by_cases hmoved : (w.move detents).1 = true
  · rw [followed_of_moved hmoved]
    exact (move_sound h.sound detents).restored
  · rw [followed_of_still hmoved, move_of_still h.sound (Bool.eq_false_iff.mpr hmoved)]
    exact h

end Window

namespace MenuPage

/-- No more entries than sixteen bits can count, and the highlight is on one of them, or at zero. -/
structure InRange (m : MenuPage) : Prop where
  length_le : m.items.length ≤ 65535
  current_le : m.window.current ≤ m.items.length - 1

/-- The window is that of the entries, as it was drawn last. -/
structure Shown (m : MenuPage) : Prop where
  rows : m.window.rows = m.items.length
  restored : m.window.Restored

theorem InRange.rows_eq {m : MenuPage} (h : m.InRange) : m.rows = m.items.length :=
  Nat.mod_eq_of_lt (Nat.lt_succ_of_le h.length_le)

theorem Shown.inRange {m : MenuPage} (h : m.Shown) : m.InRange := by
  have hrows := h.rows
  have hlt := h.restored.sound.rows_lt
  have hcurrent := h.restored.sound.bounds.current_lt
  have hnone := h.restored.sound.bounds.current_eq
  constructor
  · omega
  · omega

variable {σ β : Type}

theorem enteredWindow_rows {m : MenuPage} (h : m.InRange) (p : Panel σ β) :
    (m.enteredWindow p).rows = m.items.length := by
  have hmoves := Window.select_moves m.window.current (p.windowFor m.rows)
  exact hmoves.alike.rows.trans h.rows_eq

theorem enteredWindow_capacity (m : MenuPage) (p : Panel σ β) :
    (m.enteredWindow p).capacity = p.renderer.visibleLines :=
  (Window.select_moves m.window.current (p.windowFor m.rows)).alike.capacity

theorem enteredWindow_current {m : MenuPage} (h : m.InRange) (p : Panel σ β) :
    (m.enteredWindow p).current = m.window.current := by
  have hrows := h.rows_eq
  have hcurrent := h.current_le
  unfold enteredWindow Panel.windowFor Window.ofRows Window.select
  by_cases hnone : m.rows = 0
  · simp only [if_pos hnone, Window.commit]
    omega
  · simp only [if_neg hnone, Window.commit]
    omega

theorem enteredWindow_restored (m : MenuPage) (p : Panel σ β) : (m.enteredWindow p).Restored := by
  have hrows : m.rows < 65536 := Nat.mod_lt _ (by decide)
  have hnew : (p.windowFor m.rows).Sound :=
    ⟨hrows, Window.ofRows_inBounds _ _, Window.ofRows_inBounds _ _, fun _ => rfl⟩
  exact (Window.select_sound hnew _).restored

theorem InRange.entered {m : MenuPage} (h : m.InRange) (p : Panel σ β) :
    Shown { m with window := m.enteredWindow p } :=
  ⟨enteredWindow_rows h p, enteredWindow_restored m p⟩

theorem Shown.followed {m : MenuPage} (h : m.Shown) (detents : Int) :
    Shown { m with window := m.window.followed detents } :=
  ⟨Window.rows_followed.trans h.rows, h.restored.followed detents⟩

variable [Display σ]

theorem after_enter (m : MenuPage) (p : Panel σ β) :
    (enter.after (m, p)).1 = { m with window := m.enteredWindow p } :=
  ((enter_sets m p).after rfl).1

/-- A tick changes the window as the knob has turned, whatever is pressed and whatever fails. -/
theorem after_tick [CommandSink β] (m : MenuPage) (p : Panel σ β) :
    (tick.after (m, p)).1 = { m with window := m.window.followed p.events.detents } := by
  let Left (s : MenuPage × Panel σ β) : Prop :=
    s.1 = { m with window := m.window.followed p.events.detents }
  suffices hleft : Ensures (· = (m, p)) tick (fun _ => Left) fun _ => Left from hleft.after rfl
  unfold tick
  refine Ensures.get_bind ?_
  rintro _ rfl
  refine Ensures.bind (Q := fun _ => Left) (Ensures.within ?_) fun _ => ?_
  · have hfollowed : ∀ s : Window × Panel σ β,
        s.1 = m.window.followed p.events.detents ∧ p.Draws s.2 →
          Left ({ m with window := s.1 }, s.2) := by
      rintro ⟨w, q⟩ ⟨rfl, -⟩
      rfl
    exact (Panel.followKnob_draws _ m.window p).mono (fun _ h => h) (fun _ => hfollowed)
      fun _ => hfollowed
  · refine Keeps.ite (Keeps.pure _) (Keeps.ite ?_ (Keeps.pure _))
    refine Ensures.get_bind ?_
    rintro ⟨m', q⟩ hm'
    exact Ensures.within (Ensures.always (fun _ _ => hm') fun _ _ => hm')

end MenuPage

end FrontPanel
