import FrontPanel.Control.Knob
import FrontPanel.Controller.Executor
import FrontPanel.Controller.Pages
import FrontPanel.Controller.Report
import FrontPanel.Controller.Wiring
import FrontPanel.Tft.Display

/-!
# The tasks of the controller

Three tasks share the work. One samples the controls and now and then reads the flow sensor, one runs the
panel, and one executes the commands that the panel sends. Each announces itself when it first runs, and
then runs once in every period.
-/

namespace FrontPanel

set_option autoImplicit false

/-- What a task has to show for one run besides its state. -/
structure TaskReport where
  entries : List LogEntry := []
  events : List BoardEvent := []

structure Sampler where
  knob : Option (Knob.Wired Nat)
  buttons : ButtonLines Nat
  count : UInt32 := 0
  started : Bool := false

namespace Sampler

def period : Period := .microseconds 1000

def flowDivider : UInt32 := 10

def bindButtons (w : Wiring) : ButtonLines Nat :=
  [(Role.click, ButtonMask.select), (Role.back, ButtonMask.pause)].foldl (fun b (role, button) =>
    match w.line role with
    | some pin => (ButtonLines.bind button pin.number pin.inverted).after b
    | none => b) {}

/-- The controls as wired. A knob needs both of its lines, and starts at the phase they show. -/
def ofWiring (w : Wiring) (level : Nat → Bool) : Sampler where
  knob :=
    match w.line .knobA, w.line .knobB with
    | some a, some b => some (.ofLevels a.number b.number level)
    | _, _ => none
  buttons := bindButtons w

def announcement (s : Sampler) (hasFlow : Bool) : LogEntry :=
  .info ("Poll task started (encoder: " ++ toString s.knob.isSome ++ ", buttons: " ++
    toString s.buttons.lines.length ++ ", flow sensor: " ++ toString hasFlow ++ ")")

def take (level : Nat → Bool) (s : Sampler) : (ButtonMask × Int) × Sampler :=
  let buttons := s.buttons.sample level
  let s := { s with count := s.count + 1 }
  match s.knob with
  | none => ((buttons, 0), s)
  | some k =>
    let (step, k) := k.poll level
    ((buttons, step), { s with knob := some k })

/-- The flow sensor is to be read after this sample. -/
def isFlowDue (s : Sampler) : Bool := s.count % flowDivider == 0

end Sampler

inductive PanelPhase where
  | waiting
  | running
  /-- The display did not start. -/
  | ended
  deriving DecidableEq

structure PanelTask where
  panel : Panel Tft CommandQueue
  pages : Navigator AnyPage := {}
  phase : PanelPhase := .waiting

namespace PanelTask

def queueCapacity : Nat := 16

def ofDisplay (lcd : Tft) : PanelTask where
  panel := .ofDisplay lcd { capacity := queueCapacity }

def period (s : PanelSettings) : Period := .hertz (max s.refreshRate 1)

def mapLcd (f : Tft → Tft) (t : PanelTask) : PanelTask :=
  { t with panel := { t.panel with lcd := f t.panel.lcd } }

def mapCommands (f : CommandQueue → CommandQueue) (t : PanelTask) : PanelTask :=
  { t with panel := { t.panel with commands := f t.panel.commands } }

def ask {α : Type} (x : Action TftError Tft α) (answer : α → String) (failure : String) :
    StateM Tft LogEntry := fun lcd =>
  (match x.outcome lcd with
    | .ok a => .info (answer a)
    | .error e => .warn (failure ++ e.name), x.after lcd)

def identify : StateM Tft (List LogEntry) := do
  let identification ← ask Tft.readIdentification (fun i => "Display id: " ++ i.text)
    "Display id read failed: "
  let status ← ask Tft.readStatus (fun s => "Display status: " ++ s.text)
    "Display status read failed: "
  let lcd ← get
  let size := toString lcd.width ++ "x" ++ toString lcd.height
  return [identification, status, .info ("Display ready: " ++ size)]

def openPages (identity : Identity) (lcd : Tft) (t : PanelTask) : List LogEntry × PanelTask :=
  let start : Action PanelError (Navigator AnyPage × Panel Tft CommandQueue) Unit :=
    Navigator.start Pages.main
  let s := (Pages.all identity, Panel.ofDisplay lcd t.panel.commands)
  let (pages, panel) := start.after s
  (match start.outcome s with
    | .ok _ => []
    | .error e => [.warn ("Main menu render failed: " ++ e.name)],
    { panel, pages, phase := .running })

def start (s : Settings) (t : PanelTask) : TaskReport × PanelTask :=
  let hello := LogEntry.info "Panel task started"
  let display : Draw Tft Unit := Display.start
  let lcd := display.after t.panel.lcd
  match display.outcome t.panel.lcd with
  | .error e =>
    (⟨[hello, .error ("Display init failed: " ++ e.name)], []⟩,
      { t.mapLcd fun _ => lcd with phase := .ended })
  | .ok _ =>
    let (known, lcd) := identify lcd
    let (failed, t) := t.openPages s.identity lcd
    (⟨hello :: known ++ failed, [.every (period s.panel)]⟩, t)

def tick (t : PanelTask) : List LogEntry × PanelTask :=
  let tick : Action PanelError (Navigator AnyPage × Panel Tft CommandQueue) Transition :=
    Navigator.tick
  let s := (t.pages, t.panel)
  let (pages, panel) := tick.after s
  (match tick.outcome s with
    | .ok .stay => []
    | .ok transition =>
      [.debug ("Panel: " ++ transition.name ++ " (depth " ++ toString pages.depth ++ ")")]
    | .error e => [.warn ("Panel tick failed: " ++ e.name)],
    { t with panel, pages })

def run (s : Settings) (t : PanelTask) : TaskReport × PanelTask :=
  match t.phase with
  | .waiting => t.start s
  | .running => let (entries, t) := t.tick; (⟨entries, []⟩, t)
  | .ended => ({}, t)

end PanelTask

namespace Executor

def period : Period := .milliseconds 10

/-- What a drain amounted to. -/
def drainEntries {ι : Type} (d : Drained ι) : List LogEntry :=
  if 0 < d.discarded then
    [.warn ("Machine halted, discarded " ++ toString d.discarded ++ " queued command(s)")]
  else if 0 < d.dispatched.length then
    [.debug ("Dispatched " ++ toString d.dispatched.length ++ " command(s)")]
  else []

def drain (q : CommandQueue) (e : Executor) : Executor × CommandQueue :=
  let d := interpreter.drain e q
  (d.machine.sayAll (drainEntries d), d.queue)

end Executor

end FrontPanel
