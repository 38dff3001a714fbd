/-!
# Faults of a bus

A transfer over a bus may fail. Which transfers fail is a property of the surroundings: a set of transfer
numbers, counted from zero.
-/

namespace FrontPanel

set_option autoImplicit false

inductive BusFault where
  | failed
  deriving DecidableEq

/-- Which transfers fail, and how many were tried. -/
structure Faults where
  tried : Nat := 0
  fails : Nat → Bool := fun _ => false

namespace Faults

def now (f : Faults) : Bool := f.fails f.tried

def next (f : Faults) : Faults := { f with tried := f.tried + 1 }

/-- Lets `count` more transfers succeed and fails all later ones; without a count none fails. -/
def allow (count : Option Nat) (f : Faults) : Faults :=
  match count with
  | some n => { f with fails := fun i => decide (f.tried + n ≤ i) }
  | none => { f with fails := fun _ => false }

end Faults

end FrontPanel
