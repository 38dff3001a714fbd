import FrontPanel.Bus.Trace

/-!
# The board

What can be seen of the controller from outside: the buses and lines it sets up, what it does with them,
and the times it waits for.
-/

namespace FrontPanel

set_option autoImplicit false

inductive Period where
  | microseconds (n : Nat)
  | milliseconds (n : Nat)
  | hertz (n : Nat)
  deriving DecidableEq

namespace Period

def text : Period → String
  | .microseconds n => toString n ++ "us"
  | .milliseconds n => toString n ++ "ms"
  | .hertz n => toString n ++ "hz"

end Period

structure BusLines where
  lines : List Nat
  frequency : Nat
  deriving DecidableEq

namespace BusLines

def text (b : BusLines) : String :=
  String.intercalate "," (b.lines.map toString) ++ "@" ++ toString b.frequency

/-- The bus of the display: clock, data out and data in are fixed for each channel. -/
def display (channel frequency : Nat) : BusLines :=
  ⟨if channel = 1 then [10, 11, 12] else [18, 19, 16], frequency⟩

def sensor : BusLines := ⟨[27, 26], 400000⟩

end BusLines

inductive BoardEvent where
  | displayBus (lines : BusLines)
  | sensorBus (lines : BusLines)
  | output (number : Nat)
  | input (number : Nat) (pullUp : Bool)
  | level (number : Nat) (high : Bool)
  | serial (e : SerialEvent)
  | every (period : Period)
  | waitSeconds (n : Nat)
  deriving DecidableEq

namespace BoardEvent

/-- What happens to the display, with its lines as numbers of the board. -/
def ofSerial (number : Line → Nat) : SerialEvent → BoardEvent
  | .level line high => .level (number line) high
  | e => .serial e

def levelText (number : Nat) (high : Bool) : String :=
  "p" ++ toString number ++ if high then "=1" else "=0"

def text : BoardEvent → String
  | .displayBus lines => "spi:" ++ lines.text
  | .sensorBus lines => "i2c:" ++ lines.text
  | .output number => "out" ++ toString number ++ "=1"
  | .input number pullUp => "in" ++ toString number ++ if pullUp then "^" else ""
  | .level number high => levelText number high
  | .serial e => e.text Line.levelText
  | .every period => "every:" ++ period.text
  | .waitSeconds n => "after:" ++ toString n ++ "s"

end BoardEvent

end FrontPanel
