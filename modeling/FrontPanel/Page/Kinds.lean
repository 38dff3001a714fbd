import FrontPanel.Page.About
import FrontPanel.Page.Menu
import FrontPanel.Page.Scripted

/-!
# All kinds of pages in one type
-/

namespace FrontPanel

set_option autoImplicit false

inductive AnyPage where
  | menu (m : MenuPage)
  | about (a : AboutPage)
  | scripted (s : ScriptedPage)

namespace AnyPage

variable {σ β : Type}

def lift {κ α : Type} (wrap : κ → AnyPage) (k : κ) (hook : Action PanelError (κ × Panel σ β) α) :
    Action PanelError (AnyPage × Panel σ β) α :=
  hook.within (fun (_, p) => (k, p)) fun (k, p) _ => (wrap k, p)

variable [Display σ] [CommandSink β]

def enter : Action PanelError (AnyPage × Panel σ β) Unit := do
  match (← get).1 with
  | .menu m => lift .menu m MenuPage.enter
  | .about a => lift .about a AboutPage.enter
  | .scripted s => lift .scripted s ScriptedPage.enter

def tick : Action PanelError (AnyPage × Panel σ β) Transition := do
  match (← get).1 with
  | .menu m => lift .menu m MenuPage.tick
  | .about a => lift .about a AboutPage.tick
  | .scripted s => lift .scripted s ScriptedPage.tick

instance : Page AnyPage σ β := ⟨enter, tick⟩

end AnyPage

end FrontPanel
