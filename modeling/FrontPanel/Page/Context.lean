import FrontPanel.Command.Queue
import FrontPanel.Control.Detents
import FrontPanel.Menu.Renderer

/-!
# What a page works with

A page draws on the display through a renderer, reacts to the input of the present tick, and sends command
text to the machine.
-/

namespace FrontPanel

set_option autoImplicit false

open Command (QueueError)

inductive NavigationError where
  | cycle
  | unknownPage
  | full
  deriving DecidableEq

inductive PanelError where
  | display (e : DisplayError)
  | queue (e : QueueError)
  | navigation (e : NavigationError)
  deriving DecidableEq

inductive Transition where
  | stay
  | back
  | enter (page : Nat)
  deriving DecidableEq

/-- A display `σ` and a place `β` for commands, with what the panel remembers of its input. -/
structure Panel (σ β : Type) where
  lcd : σ
  commands : β
  renderer : Renderer
  tracker : DetentTracker
  events : PanelEvents

namespace Panel

variable {σ β : Type}

/-- A panel that has seen no input yet. -/
def ofDisplay [Display σ] (lcd : σ) (commands : β) : Panel σ β where
  lcd := lcd
  commands := commands
  renderer := Renderer.forDisplay lcd
  tracker := DetentTracker.ofResolution (Display.resolution lcd)
  events := {}

def poll [Display σ] (p : Panel σ β) : Panel σ β :=
  let read := Display.readButtons p.lcd
  let turned := Display.readSteps read.2
  let seen := p.tracker.update read.1 turned.1
  { p with lcd := turned.2, tracker := seen.2, events := seen.1 }

/-- A window at the top of `rows` rows, as high as the display allows. -/
def windowFor (p : Panel σ β) (rows : Nat) : Window := Window.ofRows rows p.renderer.visibleLines

def onDisplay {α : Type} (x : Draw σ α) : Action PanelError (Panel σ β) α :=
  (x.failingAs .display).within Panel.lcd fun lcd p => { p with lcd := lcd }

def onCommands {α : Type} (x : Action QueueError β α) : Action QueueError (Panel σ β) α :=
  x.within Panel.commands fun commands p => { p with commands := commands }

def send [CommandSink β] (text : String) : Action QueueError (Panel σ β) Nat :=
  onCommands (CommandSink.send text)

def sendParameter [CommandSink β] (code : String) (letter : Char) (value : Number.Binary32) :
    Action QueueError (Panel σ β) Nat :=
  onCommands (CommandSink.sendParameter code letter value)

def showMenu [Display σ] (content : Content σ) (clear : Bool) :
    Action PanelError (Window × Panel σ β) Redraw := fun (w, p) =>
  ((p.renderer.refresh content clear).failingAs PanelError.display).within
    (fun (w, p) => (w, p.lcd)) (fun (w, lcd) (_, p) => (w, { p with lcd := lcd })) (w, p)

def showPage [Display σ] (content : Content σ) (clear : Bool) :
    Action PanelError (Window × Panel σ β) Unit := fun (w, p) =>
  (onDisplay (Renderer.redrawPage w content clear)).within Prod.snd (fun p (w, _) => (w, p)) (w, p)

/-- Moves the highlight by the detents of this tick, and draws the menu again if it moved. -/
def followKnob [Display σ] (content : Content σ) : Action PanelError (Window × Panel σ β) Unit :=
  fun (w, p) =>
    let moved := w.move p.events.detents
    if moved.1 then (do let _ ← showMenu content false) (moved.2, p) else .ok () (moved.2, p)

end Panel

/-- A kind of page. Its hooks may change the page, draw, and send commands. -/
class Page (κ σ β : Type) where
  enter : Action PanelError (κ × Panel σ β) Unit
  tick : Action PanelError (κ × Panel σ β) Transition

def Page.onWindow {κ σ β α : Type} (get : κ → Window) (put : Window → κ → κ)
    (x : Action PanelError (Window × Panel σ β) α) : Action PanelError (κ × Panel σ β) α :=
  x.within (fun (k, p) => (get k, p)) fun (w, p) (k, _) => (put w k, p)

end FrontPanel
