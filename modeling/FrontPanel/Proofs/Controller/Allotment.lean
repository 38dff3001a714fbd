import Mathlib.Data.List.Nodup
import Mathlib.Data.List.Pairwise
import FrontPanel.Controller.Wiring

/-!
# Allotting lines

The lines that the settings ask for are allotted in turn, each out of what is left. Every role obtains its
line exactly if all of them are free at the start and no two roles ask for the same one.
-/

namespace FrontPanel

set_option autoImplicit false

namespace Wiring

theorem line_cons_self (role : Role) (a : Allotment) (rest : List (Role × Allotment))
    (hrest : ∀ a' ∈ rest, a'.1 ≠ role) : line ⟨(role, a) :: rest⟩ role = a.line := by
  have hnone : rest.findSome? (fun a' => if a'.1 = role then a'.2.line else none) = none := by
    rw [List.findSome?_eq_none_iff]
    intro a' ha'
    exact if_neg (hrest a' ha')
  unfold line
  rw [List.findSome?_cons, if_pos rfl, hnone]
  cases a.line <;> rfl

theorem line_cons_of_ne {role other : Role} (hne : other ≠ role) (a : Allotment)
    (rest : List (Role × Allotment)) : line ⟨(other, a) :: rest⟩ role = line ⟨rest⟩ role := by
  unfold line
  rw [List.findSome?_cons, if_neg hne]

theorem role_mem_of_mem_allot {s : PanelSettings} {roles : List Role} {free : List Nat}
    {a : Role × Allotment} (h : a ∈ allot s roles free) : a.1 ∈ roles := by
  induction roles generalizing free with
  | nil => cases h
  | cons role rest ih =>
    rcases List.mem_cons.mp h with rfl | h
    · exact List.mem_cons_self
    · exact List.mem_cons_of_mem role (ih h)

/-- Two roles do not ask for the same line. -/
def Apart (s : PanelSettings) (a b : Role) : Prop :=
  ∀ p q, a.pin s = some p → b.pin s = some q → p.number ≠ q.number

instance (s : PanelSettings) : Std.Symm (Apart s) :=
  ⟨fun _ _ h p q hp hq => (h q p hq hp).symm⟩

/-- The lines of the roles are free, and no line is asked for twice. -/
structure Fits (s : PanelSettings) (roles : List Role) (free : List Nat) : Prop where
  free : ∀ role ∈ roles, ∀ pin, role.pin s = some pin → pin.number ∈ free
  distinct : roles.Pairwise (Apart s)

theorem fits_cons_none {s : PanelSettings} {role : Role} {rest : List Role} {free : List Nat}
    (hpin : role.pin s = none) : Fits s (role :: rest) free ↔ Fits s rest free := by
  constructor
  · intro h
    exact ⟨fun r hr => h.free r (List.mem_cons_of_mem role hr), h.distinct.of_cons⟩
  · intro h
    refine ⟨List.forall_mem_cons.mpr ⟨?_, h.free⟩, List.Pairwise.cons ?_ h.distinct⟩
    · rw [hpin]
      exact nofun
    · intro r _ p q hp
      rw [hpin] at hp
      cases hp

theorem fits_cons_some {s : PanelSettings} {role : Role} {rest : List Role} {free : List Nat}
    (hfree : free.Nodup) {pin : Pin} (hpin : role.pin s = some pin) :
    Fits s (role :: rest) free ↔ pin.number ∈ free ∧ Fits s rest (free.erase pin.number) := by
  constructor
  · intro h
    refine ⟨h.free role List.mem_cons_self pin hpin, ?_, h.distinct.of_cons⟩
    intro r hr q hq
    have hne := List.rel_of_pairwise_cons h.distinct hr pin q hpin hq
    exact hfree.mem_erase_iff.mpr ⟨hne.symm, h.free r (List.mem_cons_of_mem role hr) q hq⟩
  · rintro ⟨hmem, h⟩
    have hrest : ∀ r ∈ rest, ∀ q, r.pin s = some q → q.number ≠ pin.number ∧ q.number ∈ free :=
      fun r hr q hq => hfree.mem_erase_iff.mp (h.free r hr q hq)
    refine ⟨List.forall_mem_cons.mpr ⟨?_, fun r hr q hq => (hrest r hr q hq).2⟩,
      List.Pairwise.cons ?_ h.distinct⟩
    · rw [hpin]
      intro p hp
      cases hp
      exact hmem
    · intro r hr p q hp hq
      rw [hpin] at hp
      cases hp
      exact (hrest r hr q hq).1.symm

/-- Allotted in turn, every role obtains its line exactly if all lines fit. -/
theorem allot_line_iff {s : PanelSettings} {roles : List Role} (hroles : roles.Nodup)
    {free : List Nat} (hfree : free.Nodup) :
    (∀ role ∈ roles, line ⟨allot s roles free⟩ role = role.pin s) ↔ Fits s roles free := by
  induction roles generalizing free with
  | nil => exact ⟨fun _ => ⟨nofun, List.Pairwise.nil⟩, fun _ => nofun⟩
  | cons role rest ih =>
    obtain ⟨hnew, hrest⟩ := List.nodup_cons.mp hroles
    let a := Allotment.ofPin free (role.pin s)
    have hself : line ⟨allot s (role :: rest) free⟩ role = a.line :=
      line_cons_self role a _ fun a' ha' heq => hnew (heq ▸ role_mem_of_mem_allot ha')
    have hothers : ∀ r ∈ rest, line ⟨allot s (role :: rest) free⟩ r =
        line ⟨allot s rest (a.remaining free)⟩ r := by
      intro r hr
      refine line_cons_of_ne ?_ a _
      rintro rfl
      exact hnew hr
    have hsplit : (∀ r ∈ role :: rest, line ⟨allot s (role :: rest) free⟩ r = r.pin s) ↔
        a.line = role.pin s ∧ ∀ r ∈ rest, line ⟨allot s rest (a.remaining free)⟩ r = r.pin s := by
      rw [List.forall_mem_cons, hself]
      refine and_congr_right fun _ => ?_
      exact ⟨fun h r hr => hothers r hr ▸ h r hr, fun h r hr => (hothers r hr).trans (h r hr)⟩
    rw [hsplit]
    cases hpin : role.pin s with
    | none =>
      have ha : a = .unset := by
        change Allotment.ofPin free (role.pin s) = _
        rw [hpin]
        rfl
      rw [ha, fits_cons_none hpin, ← ih hrest hfree]
      exact ⟨fun h => h.2, fun h => ⟨rfl, h⟩⟩
    | some pin =>
      rw [fits_cons_some hfree hpin]
      by_cases hmem : pin.number ∈ free
      · have ha : a = .obtained pin := by
          change Allotment.ofPin free (role.pin s) = _
          rw [hpin]
          exact if_pos hmem
        rw [ha, ← ih hrest (hfree.erase pin.number)]
        exact ⟨fun h => ⟨hmem, h.2⟩, fun h => ⟨rfl, h.2⟩⟩
      · have ha : a = .refused pin := by
          change Allotment.ofPin free (role.pin s) = _
          rw [hpin]
          exact if_neg hmem
        rw [ha]
        constructor
        · rintro ⟨h, _⟩
          cases h
        · exact fun h => absurd h.1 hmem

def roles : List Role := Role.display ++ Role.controls

theorem mem_roles (role : Role) : role ∈ roles := by
  cases role <;> decide

/-- All lines are obtained exactly if they are free and differ from each other. -/
theorem line_ofSettings_iff (s : PanelSettings) :
    (∀ role : Role, (ofSettings s).line role = role.pin s) ↔
      (∀ (role : Role) (pin : Pin), role.pin s = some pin → pin.number ∈ freeLines) ∧
        ∀ a b : Role, a ≠ b → Apart s a b := by
  have hroles : roles.Nodup := by decide
  have hfree : freeLines.Nodup := by decide
  have hiff := allot_line_iff (s := s) hroles hfree
  constructor
  · intro h
    have hfits := hiff.mp fun role _ => h role
    refine ⟨fun role => hfits.free role (mem_roles role), ?_⟩
    intro a b hne
    exact hfits.distinct.forall (mem_roles a) (mem_roles b) hne
  · rintro ⟨hlines, hdistinct⟩ role
    refine hiff.mpr ⟨fun role _ => hlines role, ?_⟩ role (mem_roles role)
    exact hroles.pairwise_of_forall_ne fun a _ b _ hne => hdistinct a b hne

end Wiring

end FrontPanel
