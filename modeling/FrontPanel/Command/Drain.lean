import FrontPanel.Command.Queue

/-!
# Draining the queue

The machine takes the lines out of the queue one by one. While it executes a line it may send text of its
own, which joins the queue behind the lines that wait. Once a line has halted the machine, everything
that waits is dropped.

An interpreter states how many lines it can still send. Each line that it sends is paid from that credit,
so draining always ends: every dispatch shortens the queue and the credit together.
-/

namespace FrontPanel

set_option autoImplicit false

open Command (QueueError)

structure Interpreter (ι : Type) where
  dispatch : String → ι → ι × List String
  isHalted : ι → Bool
  /-- A bound on the lines that can still be sent. -/
  credit : ι → Nat
  /-- Lines that are sent are paid from the credit. -/
  pays : ∀ line i,
    Command.lineCount (dispatch line i).2 + credit (dispatch line i).1 ≤ credit i

structure Drained (ι : Type) where
  machine : ι
  queue : CommandQueue
  dispatched : List String
  /-- What became of each text that the interpreter sent. -/
  replies : List (Except QueueError Nat)
  discarded : Nat

/-- Dispatches the waiting lines until none is left or the machine halts. -/
def Interpreter.drain {ι : Type} (m : Interpreter ι) (i : ι) (q : CommandQueue) : Drained ι :=
  match _popped : q.pop with
  | none => ⟨i, q, [], [], 0⟩
  | some (line, waiting) =>
    let done := m.dispatch line i
    let sent := CommandQueue.enqueueAll done.2 waiting
    if m.isHalted done.1 then ⟨done.1, sent.2.clear.2, [line], sent.1, sent.2.clear.1⟩
    else
      let d := m.drain done.1 sent.2
      { d with dispatched := line :: d.dispatched, replies := sent.1 ++ d.replies }
termination_by q.lines.length + m.credit i
decreasing_by
  have hlen := CommandQueue.length_enqueueAll_le (m.dispatch line i).2 waiting
  have hpay := m.pays line i
  simp only [CommandQueue.lines_of_pop _popped, List.length_cons]
  dsimp only [sent, done] at *
  omega

namespace Interpreter

variable {ι : Type} (m : Interpreter ι) {i : ι} {q waiting : CommandQueue} {line : String}

theorem drain_of_empty (h : q.pop = none) : m.drain i q = ⟨i, q, [], [], 0⟩ := by
  rw [drain]
  split
  · rfl
  · rename_i hpop
    rw [h] at hpop
    cases hpop

theorem drain_of_halt (h : q.pop = some (line, waiting))
    (hhalt : m.isHalted (m.dispatch line i).1 = true) :
    m.drain i q =
      let sent := CommandQueue.enqueueAll (m.dispatch line i).2 waiting
      ⟨(m.dispatch line i).1, sent.2.clear.2, [line], sent.1, sent.2.clear.1⟩ := by
  rw [drain]
  split
  · rename_i hpop
    rw [h] at hpop
    cases hpop
  · rename_i hpop
    rw [h] at hpop
    cases hpop
    exact if_pos hhalt

theorem drain_of_run (h : q.pop = some (line, waiting))
    (hrun : ¬ m.isHalted (m.dispatch line i).1 = true) :
    m.drain i q =
      let sent := CommandQueue.enqueueAll (m.dispatch line i).2 waiting
      let d := m.drain (m.dispatch line i).1 sent.2
      { d with dispatched := line :: d.dispatched, replies := sent.1 ++ d.replies } := by
  rw [drain]
  split
  · rename_i hpop
    rw [h] at hpop
    cases hpop
  · rename_i hpop
    rw [h] at hpop
    cases hpop
    exact if_neg hrun

end Interpreter

end FrontPanel
