import FrontPanel.Control.Buttons
import FrontPanel.Number.Bounds

/-!
# Collecting input between panel ticks

Input is sampled much faster than the panel reads it. In between, knob steps are summed and the latest
buttons are kept. A reading takes at most one signed byte of steps; the rest waits for the next reading.
-/

namespace FrontPanel

set_option autoImplicit false

/-- Input that the panel has not read yet. -/
structure InputAccumulator where
  buttons : ButtonMask := 0
  pending : Int := 0
  deriving DecidableEq

namespace InputAccumulator

def publish (buttons : ButtonMask) (steps : Int) (a : InputAccumulator) : InputAccumulator :=
  ⟨buttons, Number.clamp16 (a.pending + steps)⟩

def take (a : InputAccumulator) : Int × InputAccumulator :=
  let taken := Number.clamp8 a.pending
  (taken, { a with pending := a.pending - taken })

end InputAccumulator

end FrontPanel
