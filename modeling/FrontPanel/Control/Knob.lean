/-!
# The knob

A rotary knob shows its position by two phase lines that change one at a time. The pair of the previous
and the present phases tells the step: one forward, one back, or none if nothing changed or both lines
changed at once.
-/

namespace FrontPanel.Knob

set_option autoImplicit false

/-- The levels of both lines, the first in the low bit. -/
abbrev Phase := Fin 4

def Phase.ofLevels (a b : Bool) : Phase :=
  match a, b with
  | false, false => 0
  | true, false => 1
  | false, true => 2
  | true, true => 3

/-- The step for each previous phase, four present phases at a time. -/
def transitions : Vector Int 16 := #v[0, -1, 1, 0, 1, 0, 0, -1, -1, 0, 0, 1, 0, 1, -1, 0]

def step (before now : Phase) : Int := transitions[4 * before.val + now.val]

def steps : Phase → List Phase → List Int
  | _, [] => []
  | before, now :: rest => step before now :: steps now rest

structure Wired (π : Type) where
  pinA : π
  pinB : π
  phase : Phase

namespace Wired

variable {π : Type}

def read (pinA pinB : π) (level : π → Bool) : Phase := Phase.ofLevels (level pinA) (level pinB)

/-- A knob that starts at the phase its lines show. -/
def ofLevels (pinA pinB : π) (level : π → Bool) : Wired π := ⟨pinA, pinB, read pinA pinB level⟩

def poll (k : Wired π) (level : π → Bool) : Int × Wired π :=
  let now := read k.pinA k.pinB level
  (step k.phase now, { k with phase := now })

end Wired

end FrontPanel.Knob
