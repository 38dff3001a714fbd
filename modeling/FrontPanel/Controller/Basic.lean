import FrontPanel.Controller.Tasks

/-!
# The controller

The controller sets its buses and lines up from the settings, starts the display wiring, and lets its
tasks run. Without a line that tells commands from data there is no panel, and no task runs at all.
-/

namespace FrontPanel

set_option autoImplicit false

structure Tasks where
  wiring : Wiring
  sampler : Sampler
  display : PanelTask
  executing : Bool := false

def Tasks.mapLcd (f : Tft → Tft) (t : Tasks) : Tasks := { t with display := t.display.mapLcd f }

inductive ControllerPhase where
  | off
  /-- Started without a panel. -/
  | parked
  | running (tasks : Tasks)

structure Controller where
  settings : Settings
  levels : Nat → Bool := fun _ => false
  /-- The bus of the display, until the display has it. -/
  serial : SerialBus := {}
  executor : Executor := {}
  /-- What happened on the board, the latest first. -/
  log : List BoardEvent := []
  phase : ControllerPhase := .off

namespace Controller

def say (entry : LogEntry) (c : Controller) : Controller :=
  { c with executor := c.executor.say entry }

def sayAll (entries : List LogEntry) (c : Controller) : Controller :=
  { c with executor := c.executor.sayAll entries }

def record (events : List BoardEvent) (c : Controller) : Controller :=
  { c with log := events.reverse ++ c.log }

def history (c : Controller) : List BoardEvent := c.log.reverse

def console (c : Controller) : List LogEntry := c.executor.console.reverse

def forget (c : Controller) : Controller :=
  { c with
    log := []
    executor :=
      { c.executor with console := [], sensors := c.executor.sensors.forget } }

def tasks (c : Controller) : Option Tasks :=
  match c.phase with
  | .running t => some t
  | _ => none

/-- Does something with the tasks, if there are any. -/
def whileRunning (c : Controller) (f : Tasks → Controller) : Controller :=
  match c.phase with
  | .running t => f t
  | _ => c

/-- The number of a line of the display. Lines that are not wired are never used. -/
def lineNumber (w : Wiring) (line : Line) : Nat :=
  ((w.line (match line with
    | .select => .select
    | .data => .data
    | .reset => .reset)).map Pin.number).getD 0

/-- Moves what happened on the bus of the display into the log. -/
def collect (t : Tasks) (c : Controller) : Controller :=
  let bus := t.display.panel.lcd.bus
  let idle := t.mapLcd fun lcd => { lcd with bus := bus.forget }
  { c with phase := .running idle }.record (bus.history.map (.ofSerial (lineNumber t.wiring)))

def tftConfig (s : PanelSettings) : TftConfig where
  width := s.width
  height := s.height
  columnStart := s.columnStart
  rowStart := s.rowStart
  rotation := s.rotation
  resolution := s.knobResolution

def makeTasks (w : Wiring) (c : Controller) : Tasks where
  wiring := w
  sampler := .ofWiring w c.levels
  display := .ofDisplay
    (.atRest c.serial (w.line .select).isSome (w.line .reset).isSome (some {})
      (tftConfig c.settings.panel))

def startBuses (c : Controller) : Controller :=
  let p := c.settings.panel
  let c := c.sayAll [
    .info "Kestrel firmware starting...",
    .info "Peripherals initialized",
    .info "Parsed embedded configuration successfully"]
  let c := (c.record [.displayBus (.display p.spiChannel p.spiFrequency)]).say
    (.info ("SPI" ++ toString p.spiChannel ++ " initialized at " ++ toString p.spiFrequency ++ " Hz"))
  if c.settings.flow.enabled then
    { c.record [.sensorBus .sensor] with executor := c.executor.startFlow c.settings.flow }
  else c

def heartbeat : Nat := 60

/-- Allots the lines and sets the tasks up. -/
def startPanel (c : Controller) : Controller :=
  let w := Wiring.ofSettings c.settings.panel
  if (w.line .data).isNone then
    let w := w.displayOnly
    { (c.record w.events).sayAll
        (w.warnings ++ [.error "dc_pin must name a free GPIO, panel disabled"]) with phase := .parked }
  else
    let c := (c.record w.events).sayAll (w.warnings ++ [.info "Input lines configured"])
    (c.collect (c.makeTasks w)).say (.info "All tasks spawned, firmware running")

def start (c : Controller) : Controller :=
  match c.phase with
  | .off => c.startBuses.startPanel.record [.waitSeconds heartbeat]
  | _ => c

/-- The end of one waiting time of the main task. -/
def beat (c : Controller) : Controller :=
  match c.phase with
  | .off => c
  | .parked => c.record [.waitSeconds heartbeat]
  | .running _ => (c.say (.trace "Main loop heartbeat")).record [.waitSeconds heartbeat]

def updateFlow (s : Sampler) (c : Controller) : Controller :=
  if s.isFlowDue then { c with executor := c.executor.updateFlow } else c

def runSampler (c : Controller) : Controller :=
  c.whileRunning fun t =>
    if t.sampler.started then
      let ((buttons, steps), sampler) := t.sampler.take c.levels
      let t := { t with sampler := sampler }.mapLcd (Tft.publish buttons steps)
      { c with phase := .running t }.updateFlow sampler
    else
      let c := (c.say (t.sampler.announcement c.executor.flow.isSome)).record [.every Sampler.period]
      { c with phase := .running { t with sampler := { t.sampler with started := true } } }

def runPanel (c : Controller) : Controller :=
  c.whileRunning fun t =>
    let (report, display) := t.display.run c.settings
    ((c.collect { t with display := display }).record report.events).sayAll report.entries

def runExecutor (c : Controller) : Controller :=
  c.whileRunning fun t =>
    if t.executing then
      let (executor, queue) := c.executor.drain t.display.panel.commands
      let t := { t with display := t.display.mapCommands fun _ => queue }
      { c with executor := executor, phase := .running t }
    else
      let c := (c.say (.info "Main loop task started")).record [.every Executor.period]
      { c with phase := .running { t with executing := true } }

def setLevel (number : Nat) (high : Bool) (c : Controller) : Controller :=
  { c with levels := fun i => if i = number then high else c.levels i }

def onSerial (f : SerialBus → SerialBus) (c : Controller) : Controller :=
  match c.phase with
  | .running t => { c with phase := .running (t.mapLcd fun lcd => { lcd with bus := f lcd.bus }) }
  | _ => { c with serial := f c.serial }

def onSensors (f : RegisterBank → RegisterBank) (c : Controller) : Controller :=
  { c with executor := { c.executor with sensors := f c.executor.sensors } }

end Controller

end FrontPanel
