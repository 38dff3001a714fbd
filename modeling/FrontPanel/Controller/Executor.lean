import FrontPanel.Command.Drain
import FrontPanel.Controller.Console
import FrontPanel.Sensor.Flow
import FrontPanel.Text.Blank
import FrontPanel.Text.Pieces

/-!
# The executor

Without a motion core the controller executes the commands of the panel itself. It reports every line,
keeps the state of an emergency stop, and answers the commands that concern the flow sensor.
-/

namespace FrontPanel

set_option autoImplicit false

structure Executor where
  halted : Bool := false
  flow : Option FlowSensor := none
  sensors : RegisterBank := { address := AngleSensor.address }
  console : List LogEntry := []

namespace Executor

def say (entry : LogEntry) (e : Executor) : Executor := { e with console := entry :: e.console }

def sayAll (entries : List LogEntry) (e : Executor) : Executor :=
  entries.foldl (fun e entry => e.say entry) e

theorem sayAll_eq (entries : List LogEntry) (e : Executor) :
    e.sayAll entries = { e with console := entries.reverse ++ e.console } := by
  induction entries generalizing e with
  | nil => rfl
  | cons entry rest ih =>
    rw [List.reverse_cons, List.append_assoc]
    exact ih (e.say entry)

def onFlow (x : Action FlowError (FlowSensor × RegisterBank) Unit) (failure : FlowError → LogEntry)
    (e : Executor) : Executor :=
  match e.flow with
  | none => e
  | some f =>
    let (f', bus) := x.after (f, e.sensors)
    let e' := { e with flow := some f', sensors := bus }
    match x.outcome (f, e.sensors) with
    | .ok _ => e'
    | .error failed => e'.say (failure failed)

def flowFailure (failed : FlowError) : LogEntry := .error ("ERROR: " ++ failed.message)

def startFlow (settings : FlowSettings) (e : Executor) : Executor :=
  let sensor := FlowSensor.ofSettings settings
  let start : Action FlowError (FlowSensor × RegisterBank) Unit := FlowSensor.start
  let e' := { e with flow := some sensor }.onFlow start flowFailure
  match start.outcome (sensor, e.sensors) with
  | .ok _ => e'.say (.info "Flow sensor ready")
  | .error _ => e'

def updateFlow (e : Executor) : Executor :=
  e.onFlow FlowSensor.update fun failed => .error failed.message

def maxReportLength : Nat := 128

/-- A report is written into a place of bounded size, and put out from there line by line. -/
def reportEntries (r : FlowReport) : List LogEntry :=
  let (written, whole) := Text.writeWithin maxReportLength "" r.pieces
  (if whole then [] else [.warn "M407: report truncated"]) ++ (Command.linesOf written).map .info

/-- What the commands on the flow sensor have in common. -/
def flowCommand (code : String) (x : FlowSensor → Executor → Executor) (e : Executor) : Executor :=
  match e.flow with
  | none => e.say (.warn (code ++ ": no flow sensor"))
  | some f => x f e

def sayMeasured (f : FlowSensor) (e : Executor) : Executor :=
  e.say (.info ("ok " ++ measuredText f.distance))

def sayReport (f : FlowSensor) (e : Executor) : Executor :=
  let (report, _, bus) := FlowSensor.report (f, e.sensors)
  { e with sensors := bus }.sayAll (reportEntries report)

/-- Measuring starts again from zero if no axis is named, or the axis of the filament. -/
def zeroesFlow (line : List Char) : Bool :=
  (Text.firstWord (Text.afterWord line)).isEmpty || line.contains 'E'

/-- Executes one line. Its first word says what to do; a line without a known word is only reported. -/
def execute (line : String) (e : Executor) : Executor :=
  let e := e.say (.info ("> " ++ line))
  match String.ofList (Text.firstWord line.toList) with
  | "M112" => { e with halted := true }.say (.warn "Emergency stop")
  | "M999" => { e with halted := false }.say (.info "Halt cleared")
  | "M114" => e.flowCommand "M114" sayMeasured
  | "M407" => e.flowCommand "M407" sayReport
  | "G92" =>
    if zeroesFlow line.toList then
      e.flowCommand "G92" fun _ e => e.onFlow FlowSensor.reset flowFailure
    else e
  | _ => e

/-- The executor as an interpreter. It sends no lines of its own. -/
def interpreter : Interpreter Executor where
  dispatch line e := (e.execute line, [])
  isHalted := Executor.halted
  credit := fun _ => 0
  pays := fun _ _ => Nat.le_refl 0

end Executor

end FrontPanel
