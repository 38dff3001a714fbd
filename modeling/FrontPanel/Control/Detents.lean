import FrontPanel.Control.Buttons
import FrontPanel.Number.Bounds

/-!
# Detents and clicks

The panel moves by whole detents of the knob, and a button counts once, when it goes down. Steps short of
a detent are carried to the next reading.
-/

namespace FrontPanel

set_option autoImplicit false

structure PanelEvents where
  /-- Whole detents turned, positive clockwise. -/
  detents : Int := 0
  clicked : Bool := false
  back : Bool := false
  buttons : ButtonMask := 0
  deriving DecidableEq

structure DetentTracker where
  /-- Steps in one detent, at least one. -/
  resolution : Int
  /-- Steps short of a detent. -/
  carry : Int := 0
  lastButtons : ButtonMask := 0
  deriving DecidableEq

namespace DetentTracker

/-- A tracker for a knob with the given steps in a detent; none counts as one. -/
def ofResolution (resolution : Nat) : DetentTracker := { resolution := max 1 resolution }

def update (buttons : ButtonMask) (steps : Int) (t : DetentTracker) : PanelEvents × DetentTracker :=
  let sum := Number.clamp16 (t.carry + steps)
  let detents := sum.tdiv t.resolution
  let pressed := buttons.pressedSince t.lastButtons
  ({ detents, clicked := pressed.holds .select, back := pressed.holds .pause, buttons },
    { t with carry := sum - detents * t.resolution, lastButtons := buttons })

end DetentTracker

end FrontPanel
