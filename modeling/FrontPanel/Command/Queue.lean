import FrontPanel.Action
import FrontPanel.Command.Line

/-!
# The command queue

Command lines wait in a bounded queue between the page that sends them and the machine that executes
them. A text is queued as a whole or not at all, and a line that is too long is reported even when there
is no room either.
-/

namespace FrontPanel

set_option autoImplicit false

open Command (QueueError)

def Command.lineCount (texts : List String) : Nat := (texts.flatMap Command.linesOf).length

theorem Command.lineCount_cons (text : String) (texts : List String) :
    lineCount (text :: texts) = (linesOf text).length + lineCount texts := by
  unfold lineCount
  rw [List.flatMap_cons, List.length_append]

/-- Command lines that wait for the machine, first in first out. -/
structure CommandQueue where
  capacity : Nat
  lines : List String := []
  deriving DecidableEq

namespace CommandQueue

def room (q : CommandQueue) : Nat := q.capacity - q.lines.length

/-- Copies a line into a place of bounded size, and that to the end of the queue. -/
def push (line : String) : Action QueueError CommandQueue Unit := fun q =>
  if Command.isTooLong line then .error .lineTooLong q
  else if q.capacity ≤ q.lines.length then .error .full q
  else .ok () { q with lines := q.lines ++ [line] }

/-- Queues the lines of a text in order and answers their number. -/
def enqueue (text : String) : Action QueueError CommandQueue Nat := do
  let lines := Command.linesOf text
  if lines.any Command.isTooLong then throw .lineTooLong
  else if (← get).room < lines.length then throw .full
  else
    lines.forM push
    return lines.length

def clear (q : CommandQueue) : Nat × CommandQueue := (q.lines.length, { q with lines := [] })

def pop (q : CommandQueue) : Option (String × CommandQueue) :=
  match q.lines with
  | [] => none
  | line :: rest => some (line, { q with lines := rest })

/-- Queues several texts one after the other and answers what became of each. -/
def enqueueAll : List String → CommandQueue → List (Except QueueError Nat) × CommandQueue
  | [], q => ([], q)
  | text :: texts, q =>
    let (results, q') := enqueueAll texts ((enqueue text).after q)
    ((enqueue text).outcome q :: results, q')

theorem lines_of_pop {q q' : CommandQueue} {line : String} (h : q.pop = some (line, q')) :
    q.lines = line :: q'.lines := by
  unfold pop at h
  split at h
  · cases h
  · rename_i hlines
    cases h
    exact hlines

/-- The pushes of lines that are short enough and have room do not fail. -/
theorem forM_push {lines : List String} {q : CommandQueue}
    (hshort : ¬ lines.any Command.isTooLong = true) (hroom : lines.length ≤ q.room) :
    lines.forM push q = .ok () { q with lines := q.lines ++ lines } := by
  induction lines generalizing q with
  | nil => exact congrArg (fun lines => EStateM.Result.ok () { q with lines }) (List.append_nil _).symm
  | cons line rest ih =>
    rw [List.any_cons, Bool.or_eq_true, not_or] at hshort
    obtain ⟨hline, hrest⟩ := hshort
    have hfree : ¬ q.capacity ≤ q.lines.length := by
      simp only [room, List.length_cons] at hroom
      omega
    have hpush : push line q = .ok () { q with lines := q.lines ++ [line] } := by
      simp only [push, hline, hfree, if_false, Bool.false_eq_true]
    change EStateM.bind (push line) (fun _ => rest.forM push) q = _
    unfold EStateM.bind
    rw [hpush]
    refine (ih hrest ?_).trans ?_
    · simp only [room, List.length_append, List.length_cons, List.length_nil] at hroom ⊢
      omega
    · rw [List.append_assoc, List.singleton_append]

/-- Checked beforehand, a text is queued as a whole. -/
theorem enqueue_eq (text : String) (q : CommandQueue) :
    enqueue text q =
      if (Command.linesOf text).any Command.isTooLong then .error .lineTooLong q
      else if q.room < (Command.linesOf text).length then .error .full q
      else .ok (Command.linesOf text).length { q with lines := q.lines ++ Command.linesOf text } := by
  have hget (f : CommandQueue → Action QueueError CommandQueue Nat) : (get >>= f) q = f q q := rfl
  unfold enqueue
  split
  · rfl
  · rename_i hshort
    rw [hget]
    split
    · rfl
    · rename_i hroom
      change EStateM.bind _ _ q = _
      unfold EStateM.bind
      rw [forM_push hshort (Nat.le_of_not_lt hroom)]
      rfl

theorem length_after_enqueue_le (text : String) (q : CommandQueue) :
    ((enqueue text).after q).lines.length ≤ q.lines.length + (Command.linesOf text).length := by
  simp only [Action.after, enqueue_eq]
  split
  case h_1 h =>
    split at h
    · cases h
    · split at h
      · cases h
      · cases h; simp
  case h_2 h =>
    split at h
    · cases h; omega
    · split at h
      · cases h; omega
      · cases h

theorem length_enqueueAll_le (texts : List String) (q : CommandQueue) :
    (enqueueAll texts q).2.lines.length ≤ q.lines.length + Command.lineCount texts := by
  induction texts generalizing q with
  | nil => exact Nat.le_add_right _ _
  | cons text texts ih =>
    have hone := length_after_enqueue_le text q
    have hrest := ih ((enqueue text).after q)
    rw [Command.lineCount_cons]
    simp only [enqueueAll]
    omega

end CommandQueue

class CommandSink (β : Type) where
  send : String → Action QueueError β Nat

instance : CommandSink CommandQueue := ⟨CommandQueue.enqueue⟩

def CommandSink.sendParameter {β : Type} [CommandSink β] (code : String) (letter : Char)
    (value : Number.Binary32) : Action QueueError β Nat := do
  let line ← Action.ofExcept (Command.withParameter code letter value)
  CommandSink.send line

end FrontPanel
