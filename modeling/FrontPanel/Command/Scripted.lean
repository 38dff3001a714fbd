import FrontPanel.Command.Drain

/-!
# A scripted machine

A machine that halts and resumes on given lines and answers given lines with text of its own. Each reply
is given once, to the first line that asks for it.
-/

namespace FrontPanel

set_option autoImplicit false

structure ScriptedMachine where
  halted : Bool
  haltOn : List String := []
  resumeOn : List String := []
  replies : List (String × String) := []

namespace ScriptedMachine

def takeReply (line : String) : List (String × String) → List String × List (String × String)
  | [] => ([], [])
  | (asked, reply) :: rest =>
    if asked = line then ([reply], rest)
    else
      let (found, rest') := takeReply line rest
      (found, (asked, reply) :: rest')

/-- Halts, then resumes, then replies, as far as the script says so. -/
def dispatch (line : String) (m : ScriptedMachine) : ScriptedMachine × List String :=
  let halted := (m.halted || m.haltOn.contains line) && !m.resumeOn.contains line
  let (texts, rest) := takeReply line m.replies
  ({ m with halted := halted, replies := rest }, texts)

theorem lineCount_takeReply (line : String) (replies : List (String × String)) :
    Command.lineCount (takeReply line replies).1 +
        Command.lineCount ((takeReply line replies).2.map Prod.snd) =
      Command.lineCount (replies.map Prod.snd) := by
  induction replies with
  | nil => rfl
  | cons r rest ih =>
    obtain ⟨asked, reply⟩ := r
    by_cases h : asked = line
    · simp [takeReply, h, Command.lineCount]
    · simp only [takeReply, h, if_false, List.map_cons, Command.lineCount_cons]
      omega

/-- The scripted machine as an interpreter; its credit is what the remaining replies amount to. -/
def interpreter : Interpreter ScriptedMachine where
  dispatch := dispatch
  isHalted := ScriptedMachine.halted
  credit := fun m => Command.lineCount (m.replies.map Prod.snd)
  pays := fun line m => Nat.le_of_eq (lineCount_takeReply line m.replies)

end ScriptedMachine

end FrontPanel
