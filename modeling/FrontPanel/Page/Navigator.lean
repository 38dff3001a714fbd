import FrontPanel.Page.Context

/-!
# Navigation

Pages are numbered as they are added. The open pages form a stack, and the page at the top is the active
one. A page is open at most once, so that going back always leads out.
-/

namespace FrontPanel

set_option autoImplicit false

structure Navigator (κ : Type) where
  pages : List κ := []
  /-- The open pages, the active one first. -/
  stack : List Nat := []
  deriving DecidableEq

namespace Navigator

variable {κ σ β : Type}

/-- Most pages that can be added, and most that can be open. -/
def maxPages : Nat := 8

def add (page : κ) : Action NavigationError (Navigator κ) Nat := fun n =>
  if maxPages ≤ n.pages.length then .error .full n
  else .ok n.pages.length { n with pages := n.pages ++ [page] }

def active (n : Navigator κ) : Option Nat := n.stack.head?

def depth (n : Navigator κ) : Nat := n.stack.length

def isOpen (n : Navigator κ) (page : Nat) : Bool := n.stack.contains page

/-- Runs a hook of the page with the given number; without such a page there is nothing to run. -/
def onPage {α : Type} (page : Nat) (hook : Action PanelError (κ × Panel σ β) α) (otherwise : α) :
    Action PanelError (Navigator κ × Panel σ β) α := fun (n, p) =>
  match n.pages[page]? with
  | none => .ok otherwise (n, p)
  | some k =>
    hook.within (fun _ => (k, p))
      (fun (k, p) (n, _) => ({ n with pages := n.pages.set page k }, p)) (n, p)

variable [Page κ σ β]

def enterActive : Action PanelError (Navigator κ × Panel σ β) Unit := do
  match (← get).1.active with
  | some page => onPage page Page.enter ()
  | none => pure ()

def check (page : Nat) : Action PanelError (Navigator κ × Panel σ β) Unit := do
  if (← get).1.pages.length ≤ page then throw (.navigation .unknownPage)

def push (page : Nat) : Action PanelError (Navigator κ × Panel σ β) Unit := do
  if maxPages ≤ (← get).1.depth then throw (.navigation .full)
  else modify fun (n, p) => ({ n with stack := page :: n.stack }, p)

def start (page : Nat) : Action PanelError (Navigator κ × Panel σ β) Unit := do
  check page
  modify fun (n, p) => ({ n with stack := [] }, p)
  push page
  enterActive

def enter (page : Nat) : Action PanelError (Navigator κ × Panel σ β) Unit := do
  check page
  if (← get).1.isOpen page then throw (.navigation .cycle)
  push page
  enterActive

def back : Action PanelError (Navigator κ × Panel σ β) Unit := do
  if (← get).1.depth ≤ 1 then pure ()
  else
    modify fun (n, p) => ({ n with stack := n.stack.tail }, p)
    enterActive

def backTo (page : Nat) : Action PanelError (Navigator κ × Panel σ β) Unit := do
  if (← get).1.isOpen page then
    modify fun (n, p) => ({ n with stack := n.stack.dropWhile (· != page) }, p)
    enterActive
  else throw (.navigation .unknownPage)

/-- Does what a page asks for. A page that is open already cannot be entered; the stack is unwound to it
and the request is then refused. -/
def follow : Transition → Action PanelError (Navigator κ × Panel σ β) Unit
  | .stay => pure ()
  | .back => back
  | .enter page => do
    if (← get).1.isOpen page then
      backTo page
      throw (.navigation .cycle)
    else enter page

def tick [Display σ] : Action PanelError (Navigator κ × Panel σ β) Transition := do
  match (← get).1.active with
  | none => return .stay
  | some page =>
    modify fun (n, p) => (n, p.poll)
    let transition ← onPage page Page.tick .stay
    follow transition
    return transition

end Navigator

end FrontPanel
