import FrontPanel.Action

/-!
# Buttons

Eight logical buttons make up a mask. Physical lines are bound to one button each and sampled together;
several lines may share a button, and contact bounce is not filtered.
-/

namespace FrontPanel

set_option autoImplicit false

abbrev ButtonMask := BitVec 8

namespace ButtonMask

def select : ButtonMask := 0x01

def pause : ButtonMask := 0x20

def count (mask : ButtonMask) : Nat := (List.range 8).countP fun i => mask.getLsbD i

def holds (mask part : ButtonMask) : Bool := mask &&& part == part

def pressedSince (mask before : ButtonMask) : ButtonMask := mask &&& ~~~before

end ButtonMask

/-- A line in its active state; a line that is active low reads inverted. -/
def isActive (activeLow level : Bool) : Bool := level != activeLow

inductive ButtonError where
  | tooManyLines
  | notSingleButton
  deriving DecidableEq

structure ButtonLine (π : Type) where
  button : ButtonMask
  pin : π
  activeLow : Bool
  deriving DecidableEq

structure ButtonLines (π : Type) where
  lines : List (ButtonLine π) := []
  deriving DecidableEq

namespace ButtonLines

variable {π : Type}

def maxLines : Nat := 8

/-- Binds a line to exactly one button. -/
def bind (button : ButtonMask) (pin : π) (activeLow : Bool) :
    Action ButtonError (ButtonLines π) Unit := fun b =>
  if button.count ≠ 1 then .error .notSingleButton b
  else if maxLines ≤ b.lines.length then .error .tooManyLines b
  else .ok () ⟨b.lines ++ [⟨button, pin, activeLow⟩]⟩

def sample (b : ButtonLines π) (level : π → Bool) : ButtonMask :=
  b.lines.foldl (fun mask l => if isActive l.activeLow (level l.pin) then mask ||| l.button else mask) 0

end ButtonLines

end FrontPanel
