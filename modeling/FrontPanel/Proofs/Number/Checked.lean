import FrontPanel.Number.Bounds

/-!
# Arithmetic that refuses

Sums, products, differences and conversions in sixteen bits, and any results in thirty-two, that give no
result where the exact one leaves the range. A computation written with them that gives a result has met
no overflow on its way.
-/

namespace FrontPanel.Number

set_option autoImplicit false

def sum? (a b : Nat) : Option Nat := if a + b ≤ maxCoordinate then some (a + b) else none

def difference? (a b : Nat) : Option Nat := if b ≤ a then some (a - b) else none

def product? (a b : Nat) : Option Nat := if a * b ≤ maxCoordinate then some (a * b) else none

def coordinate? (x : Int) : Option Nat :=
  if 0 ≤ x ∧ x ≤ maxCoordinate then some x.toNat else none

/-- A result of thirty-two bits. -/
def wide? (n : Nat) : Option Nat := if n < 4294967296 then some n else none

def clamp32 (x : Int) : Int := clamp (-2147483648) 2147483647 x

theorem sum?_eq {a b : Nat} (h : a + b < 65536) : sum? a b = some (a + b) :=
  if_pos (Nat.le_of_lt_succ h)

theorem difference?_eq {a b : Nat} (h : b ≤ a) : difference? a b = some (a - b) := if_pos h

theorem difference?_add (a b : Nat) : difference? (a + b) a = some b := by
  rw [difference?_eq (Nat.le_add_right a b), Nat.add_sub_cancel_left]

theorem product?_eq {a b : Nat} (h : a * b < 65536) : product? a b = some (a * b) :=
  if_pos (Nat.le_of_lt_succ h)

theorem coordinate?_eq {x : Int} (h : 0 ≤ x ∧ x < 65536) : coordinate? x = some x.toNat :=
  if_pos ⟨h.1, Int.le_of_lt_add_one h.2⟩

theorem wide?_eq {n : Nat} (h : n < 4294967296) : wide? n = some n := if_pos h

theorem mul_lt_wide {a b : Nat} (ha : a < 65536) (hb : b < 65536) : a * b < 4294967296 :=
  Nat.mul_lt_mul'' ha hb

/-- A bound of thirty-two bits does not show where a nearer one follows. -/
theorem clamp_clamp32 {low high : Int} (hlow : -2147483648 ≤ low) (hrange : low ≤ high)
    (hhigh : high ≤ 2147483647) (x : Int) : clamp low high (clamp32 x) = clamp low high x := by
  simp only [clamp32, clamp]
  omega

end FrontPanel.Number
