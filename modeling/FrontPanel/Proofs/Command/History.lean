import FrontPanel.Command.Drain
import FrontPanel.Proofs.Text.Lines

/-!
# What becomes of a command line

The queue is filled from the pages and from the machine itself, while it is emptied line by line or at
once. However these steps follow each other, every accepted line is dispatched once, dropped once, or
still waits, and lines are dispatched in the order in which they were accepted.
-/

namespace FrontPanel

set_option autoImplicit false

open Command (QueueError)

/-- A step on the queue. Between any two steps of a drain, or while a line is executed, there may be
others. A text is measured before the queue is locked, but its length does not depend on the queue. -/
inductive QueueStep where
  | enqueue (text : String)
  | clear
  | pop

structure CommandHistory where
  queue : CommandQueue
  accepted : List String := []
  dispatched : List String := []
  dropped : List String := []

namespace CommandHistory

def step (h : CommandHistory) : QueueStep → CommandHistory
  | .enqueue text =>
    match CommandQueue.enqueue text h.queue with
    | .ok _ q => { h with queue := q, accepted := h.accepted ++ Command.linesOf text }
    | .error _ q => { h with queue := q }
  | .clear => { h with queue := h.queue.clear.2, dropped := h.dropped ++ h.queue.lines }
  | .pop =>
    match h.queue.pop with
    | some (line, q) => { h with queue := q, dispatched := h.dispatched ++ [line] }
    | none => h

def run (h : CommandHistory) (steps : List QueueStep) : CommandHistory := steps.foldl step h

/-- The accepted lines that left the queue, each with its fate: dispatched or dropped. The lines in the
queue are the accepted lines behind them. -/
structure Accounts (h : CommandHistory) (settled : List (String × Bool)) : Prop where
  accepted : h.accepted = settled.map Prod.fst ++ h.queue.lines
  dispatched : h.dispatched = (settled.filter fun s => s.2).map Prod.fst
  dropped : h.dropped = (settled.filter fun s => !s.2).map Prod.fst

structure Sound (n : Nat) (h : CommandHistory) : Prop where
  capacity : h.queue.capacity = n
  length_le : h.queue.lines.length ≤ n
  short : ∀ line, line ∈ h.queue.lines → line.utf8ByteSize ≤ Command.maxLength
  single : ∀ line, line ∈ h.queue.lines → '\n' ∉ line.toList
  accounts : ∃ settled, h.Accounts settled

end CommandHistory

namespace CommandQueue

theorem enqueue_tooLong {text : String} {q : CommandQueue}
    (h : ∃ line ∈ Command.linesOf text, Command.maxLength < line.utf8ByteSize) :
    enqueue text q = .error .lineTooLong q := by
  obtain ⟨line, hline, hlong⟩ := h
  rw [enqueue_eq]
  exact if_pos (List.any_eq_true.mpr ⟨line, hline, decide_eq_true hlong⟩)

theorem enqueue_short {text : String} {q : CommandQueue}
    (h : ∀ line ∈ Command.linesOf text, line.utf8ByteSize ≤ Command.maxLength) :
    enqueue text q =
      if q.capacity - q.lines.length < (Command.linesOf text).length then .error .full q
      else .ok (Command.linesOf text).length { q with lines := q.lines ++ Command.linesOf text } := by
  have hshort : ¬ (Command.linesOf text).any Command.isTooLong = true := by
    intro hany
    obtain ⟨line, hline, hlong⟩ := List.any_eq_true.mp hany
    exact Nat.not_lt.mpr (h line hline) (of_decide_eq_true hlong)
  rw [enqueue_eq]
  exact if_neg hshort

theorem enqueue_cases (text : String) (q : CommandQueue) :
    (∃ e, enqueue text q = .error e q) ∨
      (∀ line ∈ Command.linesOf text, line.utf8ByteSize ≤ Command.maxLength) ∧
        (Command.linesOf text).length ≤ q.capacity - q.lines.length ∧
        enqueue text q = .ok (Command.linesOf text).length
          { q with lines := q.lines ++ Command.linesOf text } := by
  by_cases hlong : ∃ line ∈ Command.linesOf text, Command.maxLength < line.utf8ByteSize
  · exact Or.inl ⟨_, enqueue_tooLong hlong⟩
  · have hshort : ∀ line ∈ Command.linesOf text, line.utf8ByteSize ≤ Command.maxLength :=
      fun line hline => Nat.not_lt.mp fun h => hlong ⟨line, hline, h⟩
    rw [enqueue_short hshort]
    by_cases hroom : q.capacity - q.lines.length < (Command.linesOf text).length
    · rw [if_pos hroom]
      exact Or.inl ⟨_, rfl⟩
    · rw [if_neg hroom]
      exact Or.inr ⟨hshort, Nat.not_lt.mp hroom, rfl⟩

theorem pop_cases (q : CommandQueue) :
    q.pop = none ∨ ∃ line rest, q.lines = line :: rest ∧ q.pop = some (line, { q with lines := rest }) := by
  unfold pop
  cases q.lines with
  | nil => exact Or.inl rfl
  | cons line rest => exact Or.inr ⟨line, rest, rfl, rfl⟩

theorem lines_of_pop_none {q : CommandQueue} (h : q.pop = none) : q.lines = [] := by
  unfold pop at h
  cases hlines : q.lines with
  | nil => rfl
  | cons line rest => simp [hlines] at h

end CommandQueue

namespace CommandHistory

theorem sound_new (n : Nat) : Sound n { queue := { capacity := n } } where
  capacity := rfl
  length_le := Nat.zero_le n
  short _ hline := by cases hline
  single _ hline := by cases hline
  accounts := ⟨[], rfl, rfl, rfl⟩

variable {n : Nat} {h : CommandHistory}

theorem Sound.enqueue (hs : h.Sound n) (text : String) : (h.step (.enqueue text)).Sound n := by
  rcases CommandQueue.enqueue_cases text h.queue with ⟨e, hrun⟩ | ⟨hshort, hroom, hrun⟩
  · simp only [step, hrun]
    exact hs
  · simp only [step, hrun]
    have hcapacity := hs.capacity
    have hlength := hs.length_le
    refine ⟨hs.capacity, ?_, ?_, ?_, ?_⟩
    · rw [List.length_append]
      omega
    · intro line hline
      rcases List.mem_append.mp hline with hline | hline
      · exact hs.short line hline
      · exact hshort line hline
    · intro line hline
      rcases List.mem_append.mp hline with hline | hline
      · exact hs.single line hline
      · exact Command.newline_not_mem_of_mem_linesOf hline
    · obtain ⟨settled, haccounts⟩ := hs.accounts
      refine ⟨settled, ?_, haccounts.dispatched, haccounts.dropped⟩
      rw [haccounts.accepted, List.append_assoc]

def allDropped (lines : List String) : List (String × Bool) := lines.map fun line => (line, false)

theorem map_fst_allDropped (lines : List String) : (allDropped lines).map Prod.fst = lines := by
  induction lines with
  | nil => rfl
  | cons line rest ih => exact congrArg (line :: ·) ih

theorem filter_allDropped (lines : List String) :
    (allDropped lines).filter (fun s => s.2) = [] ∧
      (allDropped lines).filter (fun s => !s.2) = allDropped lines := by
  constructor
  · apply List.filter_eq_nil_iff.mpr
    intro s hs
    obtain ⟨line, _, rfl⟩ := List.mem_map.mp hs
    exact Bool.false_ne_true
  · apply List.filter_eq_self.mpr
    intro s hs
    obtain ⟨line, _, rfl⟩ := List.mem_map.mp hs
    rfl

theorem Sound.clear (hs : h.Sound n) : (h.step .clear).Sound n := by
  obtain ⟨settled, haccounts⟩ := hs.accounts
  refine ⟨hs.capacity, Nat.zero_le n, ?_, ?_, settled ++ allDropped h.queue.lines, ?_, ?_, ?_⟩
  · intro line hline
    cases hline
  · intro line hline
    cases hline
  · change h.accepted = _ ++ []
    rw [haccounts.accepted, List.append_nil, List.map_append, map_fst_allDropped]
  · change h.dispatched = _
    rw [haccounts.dispatched, List.filter_append, (filter_allDropped _).1, List.append_nil]
  · change h.dropped ++ h.queue.lines = _
    rw [haccounts.dropped, List.filter_append, (filter_allDropped _).2, List.map_append,
      map_fst_allDropped]

theorem Sound.pop (hs : h.Sound n) : (h.step .pop).Sound n := by
  obtain ⟨settled, haccounts⟩ := hs.accounts
  rcases h.queue.pop_cases with hpop | ⟨line, rest, hlines, hpop⟩
  · simp only [step, hpop]
    exact hs
  · simp only [step, hpop]
    have hmem : ∀ other, other ∈ rest → other ∈ h.queue.lines :=
      fun other hother => hlines ▸ List.mem_cons_of_mem line hother
    have hlength := hs.length_le
    rw [hlines, List.length_cons] at hlength
    refine ⟨hs.capacity, Nat.le_of_succ_le hlength, ?_, ?_, settled ++ [(line, true)], ?_, ?_, ?_⟩
    · exact fun other hother => hs.short other (hmem other hother)
    · exact fun other hother => hs.single other (hmem other hother)
    · change h.accepted = _
      rw [haccounts.accepted, hlines, List.map_append, List.append_assoc]
      rfl
    · change h.dispatched ++ [line] = _
      rw [haccounts.dispatched, List.filter_append, List.map_append]
      rfl
    · change h.dropped = _
      rw [haccounts.dropped, List.filter_append, List.map_append]
      exact (List.append_nil _).symm

theorem Sound.run (hs : h.Sound n) (steps : List QueueStep) : (h.run steps).Sound n := by
  induction steps generalizing h with
  | nil => exact hs
  | cons s rest ih =>
    cases s with
    | enqueue text => exact ih (hs.enqueue text)
    | clear => exact ih hs.clear
    | pop => exact ih hs.pop

theorem run_append (h : CommandHistory) (before after : List QueueStep) :
    h.run (before ++ after) = (h.run before).run after := List.foldl_append

theorem run_enqueueAll (h : CommandHistory) (texts : List String) :
    (h.run (texts.map .enqueue)).queue = (CommandQueue.enqueueAll texts h.queue).2 ∧
      (h.run (texts.map .enqueue)).dispatched = h.dispatched ∧
      (h.run (texts.map .enqueue)).dropped = h.dropped := by
  induction texts generalizing h with
  | nil => exact ⟨rfl, rfl, rfl⟩
  | cons text rest ih =>
    have hstep : (h.step (.enqueue text)).queue = (CommandQueue.enqueue text).after h.queue ∧
        (h.step (.enqueue text)).dispatched = h.dispatched ∧
        (h.step (.enqueue text)).dropped = h.dropped := by
      unfold Action.after
      rcases CommandQueue.enqueue_cases text h.queue with ⟨e, hrun⟩ | ⟨_, _, hrun⟩
      · simp only [step, hrun, and_self]
      · simp only [step, hrun, and_self]
    obtain ⟨hqueue, hdispatched, hdropped⟩ := hstep
    obtain ⟨ihqueue, ihdispatched, ihdropped⟩ := ih (h.step (.enqueue text))
    refine ⟨?_, ihdispatched.trans hdispatched, ihdropped.trans hdropped⟩
    rw [hqueue] at ihqueue
    exact ihqueue

theorem run_dispatch (h : CommandHistory) {line : String} {waiting : CommandQueue}
    (hpop : h.queue.pop = some (line, waiting)) (texts : List String) :
    (h.run (.pop :: texts.map .enqueue)).queue = (CommandQueue.enqueueAll texts waiting).2 ∧
      (h.run (.pop :: texts.map .enqueue)).dispatched = h.dispatched ++ [line] ∧
      (h.run (.pop :: texts.map .enqueue)).dropped = h.dropped := by
  have hstep : h.step .pop = { h with queue := waiting, dispatched := h.dispatched ++ [line] } := by
    simp only [step, hpop]
  have hsent := run_enqueueAll (h.step .pop) texts
  rw [hstep] at hsent
  change (run (h.step .pop) _).queue = _ ∧ (run (h.step .pop) _).dispatched = _ ∧
    (run (h.step .pop) _).dropped = _
  rw [hstep]
  exact hsent

/-- A drain is a run of pops, of enqueues in between, and of a clear if the machine has halted. -/
theorem exists_run_eq_drain {ι : Type} (m : Interpreter ι) (i : ι) (h : CommandHistory) :
    ∃ steps, (h.run steps).queue = (m.drain i h.queue).queue ∧
      (h.run steps).dispatched = h.dispatched ++ (m.drain i h.queue).dispatched ∧
      (h.run steps).dropped.length = h.dropped.length + (m.drain i h.queue).discarded := by
  generalize hq : h.queue = q
  induction i, q using Interpreter.drain.induct m generalizing h with
  | case1 i q hpop =>
    rw [m.drain_of_empty hpop]
    exact ⟨[], hq, (List.append_nil _).symm, rfl⟩
  | case2 i q line waiting hpop done hhalt =>
    rw [m.drain_of_halt hpop hhalt]
    obtain ⟨hqueue, hdispatched, hdropped⟩ := run_dispatch h (hq ▸ hpop) done.2
    refine ⟨(.pop :: done.2.map .enqueue) ++ [.clear], ?_, ?_, ?_⟩
    · rw [run_append]
      exact congrArg (fun q => q.clear.2) hqueue
    · rw [run_append]
      exact hdispatched
    · rw [run_append]
      change ((h.run _).dropped ++ (h.run _).queue.lines).length = _
      rw [List.length_append, hdropped, hqueue]
      rfl
  | case3 i q line waiting hpop done sent hrun ih =>
    rw [m.drain_of_run hpop hrun]
    obtain ⟨hqueue, hdispatched, hdropped⟩ := run_dispatch h (hq ▸ hpop) done.2
    obtain ⟨steps, ihqueue, ihdispatched, ihdropped⟩ := ih _ hqueue
    refine ⟨(.pop :: done.2.map .enqueue) ++ steps, ?_, ?_, ?_⟩
    · rw [run_append]
      exact ihqueue
    · rw [run_append, ihdispatched, hdispatched, List.append_assoc]
      rfl
    · rw [run_append, ihdropped, hdropped]

/-- Every accepted line is dispatched once, dropped once, or still waits, in the order of acceptance; the
queue keeps to its bounds; a text is queued as a whole or not at all; and to drain the queue is a run of
the same steps. -/
theorem fifo_of_run (n : Nat) (steps : List QueueStep) :
    let h := run { queue := { capacity := n } } steps
    (∃ settled, h.Accounts settled) ∧
      h.queue.lines.length ≤ n ∧
      (∀ line, line ∈ h.queue.lines →
        line.utf8ByteSize ≤ Command.maxLength ∧ '\n' ∉ line.toList) ∧
      (∀ text,
        let lines := Command.linesOf text
        let tooLong := ∃ line ∈ lines, Command.maxLength < line.utf8ByteSize
        (tooLong → CommandQueue.enqueue text h.queue = .error .lineTooLong h.queue) ∧
          (¬ tooLong → n - h.queue.lines.length < lines.length →
            CommandQueue.enqueue text h.queue = .error .full h.queue) ∧
          (¬ tooLong → ¬ n - h.queue.lines.length < lines.length →
            CommandQueue.enqueue text h.queue =
              .ok lines.length { h.queue with lines := h.queue.lines ++ lines })) ∧
      ∀ (ι : Type) (m : Interpreter ι) (i : ι), ∃ more,
        (h.run more).queue = (m.drain i h.queue).queue ∧
          (h.run more).dispatched = h.dispatched ++ (m.drain i h.queue).dispatched ∧
          (h.run more).dropped.length = h.dropped.length + (m.drain i h.queue).discarded := by
  intro h
  have hs : h.Sound n := (sound_new n).run steps
  refine ⟨hs.accounts, hs.length_le, fun line hline => ⟨hs.short line hline, hs.single line hline⟩,
    ?_, fun ι m i => exists_run_eq_drain m i h⟩
  intro text lines tooLong
  have hshort : ¬ tooLong → ∀ line ∈ lines, line.utf8ByteSize ≤ Command.maxLength :=
    fun h line hline => Nat.not_lt.mp fun hlong => h ⟨line, hline, hlong⟩
  rw [← hs.capacity]
  refine ⟨CommandQueue.enqueue_tooLong, fun h hroom => ?_, fun h hroom => ?_⟩
  · rw [CommandQueue.enqueue_short (hshort h)]
    exact if_pos hroom
  · rw [CommandQueue.enqueue_short (hshort h)]
    exact if_neg hroom

end CommandHistory

end FrontPanel
