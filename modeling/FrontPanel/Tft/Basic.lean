import FrontPanel.Bus.Serial
import FrontPanel.Control.Accumulator
import FrontPanel.Display.Paint
import FrontPanel.Tft.Command
import FrontPanel.Tft.Orientation
import FrontPanel.Tft.Script

/-!
# The serial graphics display

The controller of the display takes commands over a serial bus. A transaction holds chip select low
throughout; the data line is low for the command byte alone. Chip select is released after every
transaction, also after one that failed.

The display has no controls of its own. It passes on what an accumulator collects, if there is one.
-/

namespace FrontPanel

set_option autoImplicit false

structure TftConfig where
  width : Nat := 240
  height : Nat := 320
  columnStart : Nat := 0
  rowStart : Nat := 0
  rotation : Nat := 3
  resolution : Nat := 4
  deriving DecidableEq

inductive TftError where
  | transfer
  | notInitialized
  deriving DecidableEq

def TftError.toDisplayError : TftError → DisplayError
  | .transfer => .bus
  | .notInitialized => .notInitialized

structure Tft where
  bus : SerialBus
  hasSelect : Bool
  hasReset : Bool
  input : Option InputAccumulator
  config : TftConfig
  width : Nat
  height : Nat
  offsetX : Nat
  offsetY : Nat
  paint : Paint
  initialized : Bool

namespace Tft

/-- The line is wired; the data line always is. -/
def isWired (t : Tft) : Line → Bool
  | .select => t.hasSelect
  | .data => true
  | .reset => t.hasReset

def record (e : SerialEvent) (t : Tft) : Tft := { t with bus := t.bus.record e }

def setLine (line : Line) (high : Bool) (t : Tft) : Tft :=
  if t.isWired line then t.record (.level line high) else t

def onBus {α : Type} (x : Action BusFault SerialBus α) : Action TftError Tft α :=
  (x.failingAs fun _ => TftError.transfer).within Tft.bus fun bus t => { t with bus := bus }

/-- A display at rest: all lines high, nothing sent yet. -/
def atRest (bus : SerialBus) (hasSelect hasReset : Bool) (input : Option InputAccumulator)
    (config : TftConfig) : Tft :=
  let t : Tft :=
    { bus, hasSelect, hasReset, input, config
      width := config.width
      height := config.height
      offsetX := 0
      offsetY := 0
      paint := {}
      initialized := false }
  ((t.setLine .select true).setLine .reset true).setLine .data true

def mapPaint (f : Paint → Paint) (t : Tft) : Tft := { t with paint := f t.paint }

/-- A command byte with the data line low, then its arguments with the data line high. -/
def send (command : UInt8) (arguments : List UInt8) : Action TftError Tft Unit := do
  modify (setLine .data false)
  (onBus (SerialBus.write [command])).closing (setLine .data true)
  if arguments ≠ [] then onBus (SerialBus.write arguments)

def transaction {α : Type} (x : Action TftError Tft α) : Action TftError Tft α := fun t =>
  x.closing (setLine .select true) (t.setLine .select false)

def command (command : UInt8) (arguments : List UInt8) : Action TftError Tft Unit :=
  transaction (send command arguments)

def query (command : UInt8) (count : Nat) : Action TftError Tft (List UInt8) :=
  transaction do
    send command []
    onBus (SerialBus.read count)

def hardReset (t : Tft) : Tft :=
  if t.hasReset then
    ((t.setLine .reset false).record (.waitMicroseconds 20)).setLine .reset true
  else t

def runStep (s : ScriptStep) : Action TftError Tft Unit := do
  command s.command s.arguments
  match s.milliseconds with
  | some n => modify (record (.waitMilliseconds n))
  | none => pure ()

def runTable (table : List UInt8) : Action TftError Tft Unit :=
  (ScriptStep.ofTable table).forM runStep

/-- Takes an orientation over, and then tells the controller. -/
def setRotation (rotation : Nat) : Action TftError Tft Unit := do
  let config := (← get).config
  let o := Orientation.ofRotation rotation config.columnStart config.rowStart
  modify fun t =>
    { t with
      offsetX := o.offsetX
      offsetY := o.offsetY
      width := if o.swapsAxes then config.height else config.width
      height := if o.swapsAxes then config.width else config.height
      config := { config with rotation := rotation % 4 } }
  command Command.scanOrder [o.scanOrder]

end Tft

end FrontPanel
