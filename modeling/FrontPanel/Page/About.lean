import FrontPanel.Page.Context
import FrontPanel.Settings.Basic

/-!
# The about page

A list of the names in the identity of the machine, and of the name and version of the firmware. Empty
ones are left out, and a line that is too long is cut behind the last character that fits.
-/

namespace FrontPanel

set_option autoImplicit false

structure AboutPage where
  identity : Identity
  firmware : String
  version : String
  lines : List String := []
  window : Window := Window.ofRows 0 0
  deriving DecidableEq

namespace AboutPage

variable {σ β : Type}

def maxLineLength : Nat := 40

/-- The characters in front of the first one that does not fit into `room` bytes. -/
def fitting : Nat → List Char → List Char
  | _, [] => []
  | room, c :: rest => if c.utf8Size ≤ room then c :: fitting (room - c.utf8Size) rest else []

def fields (a : AboutPage) : List (String × String) :=
  [("Name", a.identity.machineName), ("Make", a.identity.make), ("Model", a.identity.model),
    ("Firmware", a.firmware), ("Version", a.version)]

def lineOf (label value : String) : String :=
  String.ofList (fitting maxLineLength (label ++ ": " ++ value).toList)

def makeLines (a : AboutPage) : List String :=
  (a.fields.filter fun field => field.2 ≠ "").map fun field => lineOf field.1 field.2

def content [Display σ] (a : AboutPage) : Content σ where
  title := "About"
  writeRow row :=
    match a.lines[row]? with
    | some line => Display.write line
    | none => pure ()

def onWindow {α : Type} (x : Action PanelError (Window × Panel σ β) α) :
    Action PanelError (AboutPage × Panel σ β) α :=
  Page.onWindow AboutPage.window (fun w a => { a with window := w }) x

def enter [Display σ] : Action PanelError (AboutPage × Panel σ β) Unit := do
  modify fun (a, p) =>
    ({ a with lines := a.makeLines, window := p.windowFor a.makeLines.length }, p)
  let (a, _) ← get
  let _ ← onWindow (Panel.showMenu a.content true)

/-- Either button leads back. -/
def tick [Display σ] : Action PanelError (AboutPage × Panel σ β) Transition := do
  let (a, p) ← get
  onWindow (Panel.followKnob a.content)
  return if p.events.clicked || p.events.back then .back else .stay

instance [Display σ] : Page AboutPage σ β := ⟨enter, tick⟩

end AboutPage

end FrontPanel
