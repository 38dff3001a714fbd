/-!
# Start scripts

The controller is started by a table of bytes: the number of steps, then for each step its command, the
number of its arguments, the arguments, and a pause if the highest bit of the number is set. A table that
ends early stands for the steps that are complete.
-/

namespace FrontPanel.Tft

set_option autoImplicit false

structure ScriptStep where
  command : UInt8
  arguments : List UInt8
  pause : Option UInt8
  deriving DecidableEq

namespace ScriptStep

/-- Set in the argument count of a step with a pause. -/
def pauseFlag : Nat := 128

/-- The stored pause that stands for half a second. -/
def longPause : UInt8 := 255

def milliseconds (s : ScriptStep) : Option Nat :=
  s.pause.map fun p => if p = longPause then 500 else p.toNat

def decode : List UInt8 → Option (ScriptStep × List UInt8)
  | command :: count :: rest =>
    let n := count.toNat % pauseFlag
    if rest.length < n then none
    else if count.toNat < pauseFlag then some (⟨command, rest.take n, none⟩, rest.drop n)
    else
      match rest.drop n with
      | [] => none
      | pause :: tail => some (⟨command, rest.take n, some pause⟩, tail)
  | _ => none

/-- At most the given number of steps, as far as they are complete. -/
def decodeMany : Nat → List UInt8 → List ScriptStep
  | 0, _ => []
  | n + 1, table =>
    match decode table with
    | some (step, rest) => step :: decodeMany n rest
    | none => []

def ofTable : List UInt8 → List ScriptStep
  | [] => []
  | count :: rest => decodeMany count.toNat rest

def encode (s : ScriptStep) : List UInt8 :=
  match s.pause with
  | none => s.command :: UInt8.ofNat s.arguments.length :: s.arguments
  | some p => s.command :: UInt8.ofNat (s.arguments.length + pauseFlag) :: (s.arguments ++ [p])

def toTable (steps : List ScriptStep) : List UInt8 :=
  UInt8.ofNat steps.length :: steps.flatMap encode

end ScriptStep

end FrontPanel.Tft
