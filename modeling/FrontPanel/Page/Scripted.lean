import FrontPanel.Page.Context

/-!
# Scripted pages

A page without a title that follows the knob and otherwise does what its script says, one entry a tick.
-/

namespace FrontPanel

set_option autoImplicit false

inductive ScriptEntry where
  | stay
  | back
  | enter (page : Nat)
  | send (text : String)
  | sendParameter (code : String) (letter : Char) (value : Number.Binary32)
  | showPage (clear : Bool)
  | showMenu (clear : Bool)

structure ScriptedPage where
  rows : Nat
  /-- The page is no menu. -/
  plain : Bool
  script : List ScriptEntry
  entered : Nat := 0
  window : Window := Window.ofRows 0 0

namespace ScriptedPage

variable {σ β : Type}

def content [Display σ] : Content σ where
  writeRow row := Display.write ("Row " ++ toString row)

def onWindow {α : Type} (x : Action PanelError (Window × Panel σ β) α) :
    Action PanelError (ScriptedPage × Panel σ β) α :=
  Page.onWindow ScriptedPage.window (fun w s => { s with window := w }) x

def enter [Display σ] : Action PanelError (ScriptedPage × Panel σ β) Unit := do
  modify fun (s, p) => ({ s with entered := s.entered + 1, window := p.windowFor s.rows }, p)
  let (s, _) ← get
  if s.plain then onWindow (Panel.showPage content true)
  else
    let _ ← onWindow (Panel.showMenu content true)

def sending (x : Action Command.QueueError (Panel σ β) Nat) :
    Action PanelError (Window × Panel σ β) Transition := do
  let _ ← (x.failingAs PanelError.queue).within Prod.snd fun p (w, _) => (w, p)
  return .stay

def perform [Display σ] [CommandSink β] :
    ScriptEntry → Action PanelError (Window × Panel σ β) Transition
  | .stay => pure .stay
  | .back => pure .back
  | .enter page => pure (.enter page)
  | .send text => sending (Panel.send text)
  | .sendParameter code letter value => sending (Panel.sendParameter code letter value)
  | .showPage clear => do
    Panel.showPage content clear
    return .stay
  | .showMenu clear => do
    let _ ← Panel.showMenu content clear
    return .stay

/-- Follows the knob, and then takes the next entry of the script. -/
def tick [Display σ] [CommandSink β] : Action PanelError (ScriptedPage × Panel σ β) Transition := do
  onWindow (Panel.followKnob content)
  match (← get).1.script with
  | [] => return .stay
  | entry :: rest =>
    modify fun (s, p) => ({ s with script := rest }, p)
    onWindow (perform entry)

instance [Display σ] [CommandSink β] : Page ScriptedPage σ β := ⟨enter, tick⟩

end ScriptedPage

end FrontPanel
