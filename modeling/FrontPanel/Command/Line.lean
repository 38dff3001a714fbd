import FrontPanel.Number.Places
import FrontPanel.Text.Lines

/-!
# Command lines

Pages send command text to the machine. A text is queued line by line; a command with a single parameter
is written with six decimal places.
-/

namespace FrontPanel.Command

set_option autoImplicit false

open Number (Binary32)

def maxLength : Nat := 96

inductive QueueError where
  | full
  | lineTooLong
  deriving DecidableEq

def linesOf (text : String) : List String := (Text.lines text.toList).map String.ofList

def isTooLong (line : String) : Bool := maxLength < line.utf8ByteSize

def parameterPlaces : Nat := 6

/-- A code, a blank, and a parameter letter followed by its value. -/
def parameterText (code : String) (letter : Char) (value : Binary32) : String :=
  code ++ " " ++ String.singleton letter ++ value.toPlaces parameterPlaces

/-- A command with a single parameter, if it is short enough for a line. -/
def withParameter (code : String) (letter : Char) (value : Binary32) : Except QueueError String :=
  let text := parameterText code letter value
  if isTooLong text then .error .lineTooLong else .ok text

end FrontPanel.Command
