/-!
# Arithmetic that stops at a bound

Counters and coordinates are kept in fixed ranges. Where a result would leave its range it is moved to
the nearest end instead.
-/

namespace FrontPanel.Number

set_option autoImplicit false

/-- The point of the range from `low` to `high` nearest to `x`. -/
def clamp (low high x : Int) : Int := max low (min high x)

def clamp8 (x : Int) : Int := clamp (-128) 127 x

def clamp16 (x : Int) : Int := clamp (-32768) 32767 x

def maxCoordinate : Nat := 65535

/-- A sum of coordinates. -/
def plus (a b : Nat) : Nat := min maxCoordinate (a + b)

def times (a b : Nat) : Nat := min maxCoordinate (a * b)

theorem clamp_of_mem {low high x : Int} (h : low ≤ x ∧ x ≤ high) : clamp low high x = x := by
  simp only [clamp]
  omega

theorem clamp_mem {low high : Int} (h : low ≤ high) (x : Int) :
    low ≤ clamp low high x ∧ clamp low high x ≤ high := by
  simp only [clamp]
  omega

theorem plus_eq {a b : Nat} (h : a + b < 65536) : plus a b = a + b :=
  Nat.min_eq_right (Nat.le_of_lt_succ h)

end FrontPanel.Number
