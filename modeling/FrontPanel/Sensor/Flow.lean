import FrontPanel.Number.Places
import FrontPanel.Sensor.Angle
import FrontPanel.Settings.Basic

/-!
# The flow sensor

The angle sensor sits on the gear that drives the filament. Whole turns are counted as the angle passes
from the last quarter of a turn to the first or back; turns and angle together give the length that moved.

A reading that fails is left out. A magnet that is missing, or a reset that fails, stops the sensor until
a reset succeeds.
-/

namespace FrontPanel

set_option autoImplicit false

open Number (Binary Binary32)

inductive FlowError where
  | communication
  | magnetMissing
  deriving DecidableEq

def FlowError.message : FlowError → String
  | .communication => "Cannot communicate with flow sensor"
  | .magnetMissing => "Flow sensor magnet not detected"

structure FlowSensor where
  circumference : Binary32
  forward : Bool
  origin : Nat := 0
  turns : Int := 0
  /-- The latest angle, counted from the origin. -/
  lastAngle : Nat := 0
  error : Option FlowError := none
  deriving DecidableEq

def pi : Binary32 := .ofBits 0x40490FDB

namespace FlowSensor

variable {β : Type} [RegisterBus β]

def ofSettings (s : FlowSettings) : FlowSensor where
  circumference := s.gearDiameter * pi
  forward := s.forward

def firstQuarter : Nat := 1024

def lastQuarter : Nat := 3072

/-- The angle counted from the origin. -/
def relative (origin raw : Nat) : Nat :=
  (raw + AngleSensor.countsPerTurn - origin) % AngleSensor.countsPerTurn

/-- Takes an angle in and counts the turn that it completes or takes back. -/
def advance (raw : Nat) (f : FlowSensor) : FlowSensor :=
  let angle := relative f.origin raw
  let turns :=
    if angle < firstQuarter ∧ lastQuarter < f.lastAngle then f.turns + 1
    else if lastQuarter < angle ∧ f.lastAngle < firstQuarter then f.turns - 1
    else f.turns
  { f with turns, lastAngle := angle }

def ask {α : Type} (x : Action BusFault β α) :
    Action FlowError (FlowSensor × β) (Except BusFault α) := fun (f, bus) =>
  .ok (x.outcome bus) (f, x.after bus)

def latch (e : FlowError) : Action FlowError (FlowSensor × β) Unit := do
  modify fun (f, bus) => ({ f with error := some e }, bus)
  throw e

def reset : Action FlowError (FlowSensor × β) Unit := do
  modify fun (f, bus) => ({ f with turns := 0, lastAngle := 0, error := none }, bus)
  match ← ask AngleSensor.readMagnet with
  | .error _ => latch .communication
  | .ok .missing => latch .magnetMissing
  | .ok _ =>
    match ← ask AngleSensor.readAngle with
    | .error _ => latch .communication
    | .ok angle => modify fun (f, bus) => ({ f with origin := angle }, bus)

def start : Action FlowError (FlowSensor × β) Unit := do
  match ← ask AngleSensor.setUp with
  | .error _ => latch .communication
  | .ok _ => reset

/-- Reads the sensor once. It fails only if this reading stops the sensor. -/
def update : Action FlowError (FlowSensor × β) Unit := do
  if (← get).1.error.isSome then pure ()
  else
    match ← ask AngleSensor.readMagnet with
    | .error _ => pure ()
    | .ok .missing => latch .magnetMissing
    | .ok _ =>
      match ← ask AngleSensor.readAngle with
      | .error _ => pure ()
      | .ok raw => modify fun (f, bus) => (f.advance raw, bus)

/-- The length moved since the reset, in millimetres; nothing while the sensor stands still. -/
def distance (f : FlowSensor) : Option Binary32 :=
  if f.error.isSome then none
  else
    let turns := Binary.ofInt f.turns + .ofRatio false f.lastAngle AngleSensor.countsPerTurn
    let direction : Binary32 := .ofInt (if f.forward then 1 else -1)
    some (direction * turns * f.circumference)

end FlowSensor

def measuredPlaces : Nat := 4

def measuredText : Option Binary32 → String
  | some length => "E_meas:" ++ length.toPlaces measuredPlaces
  | none => "E_meas:Err"

structure FlowReport where
  magnet : Option Magnet
  angle : Option Nat
  origin : Nat
  turns : Int
  lastAngle : Nat
  deriving DecidableEq

namespace FlowReport

/-- The first line, in the pieces in which it is written: the sensor as it is seen now. -/
def seenPieces (r : FlowReport) : List String :=
  match r.magnet, r.angle with
  | some magnet, some angle =>
    ["Flow Sensor - Comm: Ok, Magnet: ", magnet.label, ", Angle: ", toString angle, "\n"]
  | _, _ => ["Flow Sensor - Comm: Err\n"]

/-- The second line, in pieces: what was counted up to now. -/
def countedPieces (r : FlowReport) : List String :=
  ["Origin: ", toString r.origin, ", Rotations: ", if r.turns < 0 then "-" else "",
    toString r.turns.natAbs, ", Last Angle: ", toString r.lastAngle]

def pieces (r : FlowReport) : List String := r.seenPieces ++ r.countedPieces

def text (r : FlowReport) : String := String.join r.pieces

end FlowReport

namespace FlowSensor

variable {β : Type} [RegisterBus β]

/-- Reads angle and magnet for a report; both count only if both could be read. -/
def report (s : FlowSensor × β) : FlowReport × FlowSensor × β :=
  let (f, bus) := s
  let angle := (AngleSensor.readAngle : Action BusFault β Nat).outcome bus
  let bus := (AngleSensor.readAngle : Action BusFault β Nat).after bus
  let magnet := (AngleSensor.readMagnet : Action BusFault β Magnet).outcome bus
  let bus := (AngleSensor.readMagnet : Action BusFault β Magnet).after bus
  let both : Option (Magnet × Nat) :=
    match magnet, angle with
    | .ok m, .ok a => some (m, a)
    | _, _ => none
  (⟨both.map Prod.fst, both.map Prod.snd, f.origin, f.turns, f.lastAngle⟩, f, bus)

end FlowSensor

end FrontPanel
