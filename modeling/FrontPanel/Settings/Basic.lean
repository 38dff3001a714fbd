import FrontPanel.Number.Binary

/-!
# Settings of a panel

How the panel is wired and driven, what the machine is called, and whether a flow sensor is fitted.
Every setting has a value from the start; a configuration text replaces some of them, one at a time.
-/

namespace FrontPanel

set_option autoImplicit false

open Number (Binary32 Binary)

structure Pin where
  number : Nat
  /-- The line is active at the low level. -/
  inverted : Bool
  pullUp : Bool
  deriving DecidableEq

namespace Pin

/-- A line that is active at the high level, without a pull-up. -/
def plain (number : Nat) : Pin := ⟨number, false, false⟩

/-- A line as buttons are wired: to ground, with a pull-up. -/
def button (number : Nat) : Pin := ⟨number, true, true⟩

def last : Nat := 29

end Pin

structure PanelSettings where
  spiChannel : Nat := 0
  /-- In hertz. -/
  spiFrequency : Nat := 16000000
  selectPin : Option Pin := some (.plain 17)
  resetPin : Option Pin := none
  dataPin : Option Pin := some (.plain 20)
  /-- Orientation of the display in quarter turns. -/
  rotation : Nat := 3
  /-- Offset of the visible columns in the memory of the controller. -/
  columnStart : Nat := 0
  rowStart : Nat := 0
  /-- Width in pixels before any rotation. -/
  width : Nat := 240
  height : Nat := 320
  knobPinA : Option Pin := none
  knobPinB : Option Pin := none
  clickPin : Option Pin := none
  backPin : Option Pin := none
  knobResolution : Nat := 4
  refreshRate : Nat := 20
  deriving DecidableEq

structure Identity where
  machineName : String := ""
  make : String := ""
  model : String := ""
  deriving DecidableEq

def maxLabelLength : Nat := 24

structure FlowSettings where
  enabled : Bool := false
  gearDiameter : Binary32 := .ofRatio false 10699 1000
  forward : Bool := true
  deriving DecidableEq

/-- All settings; the value without arguments is what an empty configuration text stands for. -/
structure Settings where
  panel : PanelSettings := {}
  identity : Identity := {}
  flow : FlowSettings := {}
  deriving DecidableEq

inductive Setting where
  | spiChannel (n : Nat)
  | spiFrequency (n : Nat)
  | selectPin (pin : Option Pin)
  | resetPin (pin : Option Pin)
  | dataPin (pin : Option Pin)
  | rotation (n : Nat)
  | columnStart (n : Nat)
  | rowStart (n : Nat)
  | width (n : Nat)
  | height (n : Nat)
  | knobPinA (pin : Option Pin)
  | knobPinB (pin : Option Pin)
  | clickPin (pin : Option Pin)
  | backPin (pin : Option Pin)
  | knobResolution (n : Nat)
  | refreshRate (n : Nat)
  | machineName (label : String)
  | make (label : String)
  | model (label : String)
  | flowEnabled (on : Bool)
  | gearDiameter (millimetres : Binary32)
  | flowForward (forward : Bool)
  deriving DecidableEq

namespace Settings

def withPanel (s : Settings) (f : PanelSettings → PanelSettings) : Settings :=
  { s with panel := f s.panel }

def set (s : Settings) : Setting → Settings
  | .spiChannel n => s.withPanel fun p => { p with spiChannel := n }
  | .spiFrequency n => s.withPanel fun p => { p with spiFrequency := n }
  | .selectPin pin => s.withPanel fun p => { p with selectPin := pin }
  | .resetPin pin => s.withPanel fun p => { p with resetPin := pin }
  | .dataPin pin => s.withPanel fun p => { p with dataPin := pin }
  | .rotation n => s.withPanel fun p => { p with rotation := n }
  | .columnStart n => s.withPanel fun p => { p with columnStart := n }
  | .rowStart n => s.withPanel fun p => { p with rowStart := n }
  | .width n => s.withPanel fun p => { p with width := n }
  | .height n => s.withPanel fun p => { p with height := n }
  | .knobPinA pin => s.withPanel fun p => { p with knobPinA := pin }
  | .knobPinB pin => s.withPanel fun p => { p with knobPinB := pin }
  | .clickPin pin => s.withPanel fun p => { p with clickPin := pin }
  | .backPin pin => s.withPanel fun p => { p with backPin := pin }
  | .knobResolution n => s.withPanel fun p => { p with knobResolution := n }
  | .refreshRate n => s.withPanel fun p => { p with refreshRate := n }
  | .machineName label => { s with identity := { s.identity with machineName := label } }
  | .make label => { s with identity := { s.identity with make := label } }
  | .model label => { s with identity := { s.identity with model := label } }
  | .flowEnabled on => { s with flow := { s.flow with enabled := on } }
  | .gearDiameter d => { s with flow := { s.flow with gearDiameter := d } }
  | .flowForward forward => { s with flow := { s.flow with forward := forward } }

end Settings

end FrontPanel
