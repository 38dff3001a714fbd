import FrontPanel.Settings.Basic

/-!
# Built-in settings

The settings that the controller carries with it, for the panel on the bench.
-/

namespace FrontPanel

set_option autoImplicit false

/-- A line with a pull-up, as the phases of a knob are wired. -/
def Pin.phase (number : Nat) : Pin := ⟨number, false, true⟩

def Settings.builtIn : Settings where
  panel :=
    { knobPinA := some (.phase 2)
      knobPinB := some (.phase 3)
      clickPin := some (.button 4)
      backPin := some (.button 5) }
  identity := ⟨"Kestrel bench", "Kestrel", "KP-1"⟩

end FrontPanel
