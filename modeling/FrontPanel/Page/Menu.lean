import FrontPanel.Page.Context

/-!
# Menu pages

A titled list of entries. The knob moves the highlight, and a click does what the highlighted entry stands
for. The highlight is kept while another page is on top.
-/

namespace FrontPanel

set_option autoImplicit false

inductive MenuAction where
  | command (text : String)
  | open (page : Nat)
  | back
  deriving DecidableEq

structure MenuItem where
  label : String
  action : MenuAction
  deriving DecidableEq

structure MenuPage where
  title : String
  items : List MenuItem
  window : Window := Window.ofRows 0 0
  deriving DecidableEq

namespace MenuPage

variable {σ β : Type}

def content [Display σ] (m : MenuPage) : Content σ where
  title := m.title
  writeRow row :=
    match m.items[row]? with
    | some item => Display.write item.label
    | none => pure ()

def selected (m : MenuPage) : Option MenuItem := m.items[m.window.current]?

/-- The number of rows. It is kept in sixteen bits. -/
def rows (m : MenuPage) : Nat := m.items.length % 65536

/-- The window on coming to the top: set up anew around the old highlight, and taken as drawn. -/
def enteredWindow (m : MenuPage) (p : Panel σ β) : Window :=
  ((p.windowFor m.rows).select m.window.current).2.commit

def onWindow {α : Type} (x : Action PanelError (Window × Panel σ β) α) :
    Action PanelError (MenuPage × Panel σ β) α :=
  Page.onWindow MenuPage.window (fun w m => { m with window := w }) x

def choose [CommandSink β] : Option MenuItem → Action PanelError (Panel σ β) Transition
  | none => pure .stay
  | some item =>
    match item.action with
    | .command text => do
      let _ ← (Panel.send text).failingAs PanelError.queue
      return .stay
    | .open page => pure (.enter page)
    | .back => pure .back

def enter [Display σ] : Action PanelError (MenuPage × Panel σ β) Unit := do
  modify fun (m, p) => ({ m with window := m.enteredWindow p }, p)
  let (m, _) ← get
  let _ ← onWindow (Panel.showMenu m.content true)

def tick [Display σ] [CommandSink β] : Action PanelError (MenuPage × Panel σ β) Transition := do
  let (m, p) ← get
  onWindow (Panel.followKnob m.content)
  if p.events.back then return .back
  else if p.events.clicked then
    let (m, _) ← get
    (choose m.selected).within Prod.snd fun p (m, _) => (m, p)
  else return .stay

instance [Display σ] [CommandSink β] : Page MenuPage σ β := ⟨enter, tick⟩

end MenuPage

end FrontPanel
