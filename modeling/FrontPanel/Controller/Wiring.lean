import FrontPanel.Controller.Board
import FrontPanel.Controller.Console
import FrontPanel.Settings.Basic

/-!
# Wiring

Some lines of the board belong to the buses. The others are free, and the settings say which of them the
panel uses. Lines are allotted to their roles in a fixed order, and each can be allotted once.
-/

namespace FrontPanel

set_option autoImplicit false

inductive Role where
  | select
  | reset
  | data
  | knobA
  | knobB
  | click
  | back
  deriving DecidableEq

namespace Role

/-- The roles that the display needs, in the order in which lines are allotted. -/
def display : List Role := [.select, .reset, .data]

def controls : List Role := [.knobA, .knobB, .click, .back]

def key : Role → String
  | .select => "cs_pin"
  | .reset => "rst_pin"
  | .data => "dc_pin"
  | .knobA => "encoder_a_pin"
  | .knobB => "encoder_b_pin"
  | .click => "click_pin"
  | .back => "back_pin"

def pin (s : PanelSettings) : Role → Option Pin
  | .select => s.selectPin
  | .reset => s.resetPin
  | .data => s.dataPin
  | .knobA => s.knobPinA
  | .knobB => s.knobPinB
  | .click => s.clickPin
  | .back => s.backPin

def isOutput (role : Role) : Bool := display.contains role

end Role

/-- The lines that belong to no bus. -/
def freeLines : List Nat :=
  [0, 1, 2, 3, 4, 5, 6, 7, 8, 9, 13, 14, 15, 17, 20, 21, 22, 23, 24, 25, 28, 29]

/-- What a role was allotted. -/
inductive Allotment where
  | unset
  | obtained (pin : Pin)
  /-- The line belongs to a bus or to another role. -/
  | refused (pin : Pin)
  deriving DecidableEq

namespace Allotment

def line : Allotment → Option Pin
  | .obtained pin => some pin
  | _ => none

def ofPin (free : List Nat) : Option Pin → Allotment
  | none => .unset
  | some pin => if pin.number ∈ free then .obtained pin else .refused pin

def remaining (free : List Nat) : Allotment → List Nat
  | .obtained pin => free.erase pin.number
  | _ => free

def event (role : Role) : Allotment → Option BoardEvent
  | .obtained pin =>
    some (if role.isOutput then .output pin.number else .input pin.number pin.pullUp)
  | _ => none

def warning (role : Role) : Allotment → Option LogEntry
  | .refused pin =>
    some (.warn (role.key ++ ": gpio" ++ toString pin.number ++ " is reserved or already in use"))
  | _ => none

end Allotment

structure Wiring where
  allotments : List (Role × Allotment)
  deriving DecidableEq

namespace Wiring

/-- Allots lines to roles, each out of what those before it left. -/
def allot (s : PanelSettings) : List Role → List Nat → List (Role × Allotment)
  | [], _ => []
  | role :: rest, free =>
    let a := Allotment.ofPin free (role.pin s)
    (role, a) :: allot s rest (a.remaining free)

def ofSettings (s : PanelSettings) : Wiring :=
  ⟨allot s (Role.display ++ Role.controls) freeLines⟩

def displayOnly (w : Wiring) : Wiring := ⟨w.allotments.filter fun a => a.1.isOutput⟩

def line (w : Wiring) (role : Role) : Option Pin :=
  w.allotments.findSome? fun a => if a.1 = role then a.2.line else none

def events (w : Wiring) : List BoardEvent := w.allotments.filterMap fun a => a.2.event a.1

def warnings (w : Wiring) : List LogEntry := w.allotments.filterMap fun a => a.2.warning a.1

end Wiring

end FrontPanel
