import Mathlib.Data.Nat.Find
import FrontPanel.Command.Scripted
import FrontPanel.Proofs.Command.History

/-!
# Serving the queue

The machine is called once for each line, and what it sends while it executes a line joins the queue behind
the lines that wait. A drain is such a service that stops at the first call that leaves the machine halted,
or when no line waits. If the queue takes only finitely many lines from the machine, it comes to an end,
since every call takes one line out.
-/

namespace FrontPanel

set_option autoImplicit false

open Command (QueueError)

variable {ι : Type}

/-- A machine as a drain meets it. What it sends while it executes a line may depend on what it finds in
the queue, and nothing bounds how much it sends in all. -/
structure Machine (ι : Type) where
  dispatch : String → CommandQueue → ι → ι × List String
  isHalted : ι → Bool

def Interpreter.toMachine (p : Interpreter ι) : Machine ι where
  dispatch line _ i := p.dispatch line i
  isHalted := p.isHalted

@[simp] theorem Interpreter.toMachine_dispatch (p : Interpreter ι) (line : String) (q : CommandQueue)
    (i : ι) : p.toMachine.dispatch line q i = p.dispatch line i := rfl

namespace CommandQueue

/-- The lines that the queue takes of several texts sent one after the other. -/
def taken : List String → CommandQueue → List String
  | [], _ => []
  | text :: texts, q =>
    (match enqueue text q with
      | .ok _ _ => Command.linesOf text
      | .error _ _ => []) ++ taken texts ((enqueue text).after q)

end CommandQueue

/-- What the machine has executed so far, and what became of the lines that it sent. -/
structure Service (ι : Type) where
  machine : ι
  queue : CommandQueue
  executed : List String := []
  /-- The lines that the queue took from the machine. -/
  accepted : List String := []
  replies : List (Except QueueError Nat) := []

namespace Machine

/-- Lets the machine execute the line in front, if one waits. -/
def call (m : Machine ι) (s : Service ι) : Service ι :=
  match s.queue.pop with
  | none => s
  | some (line, waiting) =>
    let done := m.dispatch line waiting s.machine
    { machine := done.1
      queue := (CommandQueue.enqueueAll done.2 waiting).2
      executed := s.executed ++ [line]
      accepted := s.accepted ++ CommandQueue.taken done.2 waiting
      replies := s.replies ++ (CommandQueue.enqueueAll done.2 waiting).1 }

/-- The service after a number of calls. Nobody looks whether the machine has halted. -/
def calls (m : Machine ι) (i : ι) (q : CommandQueue) : Nat → Service ι
  | 0 => { machine := i, queue := q }
  | n + 1 => m.call (m.calls i q n)

/-- A drain that comes to an end, and what it amounts to. -/
inductive Drains (m : Machine ι) : ι → CommandQueue → Drained ι → Prop
  | empty {i : ι} {q : CommandQueue} (hpop : q.pop = none) : Drains m i q ⟨i, q, [], [], 0⟩
  | halt {i : ι} {q waiting : CommandQueue} {line : String} (hpop : q.pop = some (line, waiting))
      (hhalt : m.isHalted (m.dispatch line waiting i).1 = true) :
      Drains m i q
        (let done := m.dispatch line waiting i
        let sent := CommandQueue.enqueueAll done.2 waiting
        ⟨done.1, sent.2.clear.2, [line], sent.1, sent.2.clear.1⟩)
  | run {i : ι} {q waiting : CommandQueue} {line : String} {d : Drained ι}
      (hpop : q.pop = some (line, waiting))
      (hrun : m.isHalted (m.dispatch line waiting i).1 = false)
      (rest : Drains m (m.dispatch line waiting i).1
        (CommandQueue.enqueueAll (m.dispatch line waiting i).2 waiting).2 d) :
      Drains m i q
        { d with
          dispatched := line :: d.dispatched
          replies :=
            (CommandQueue.enqueueAll (m.dispatch line waiting i).2 waiting).1 ++ d.replies }

/-- No call before the call number `n` leaves the machine halted. -/
def RunsUntil (m : Machine ι) (i : ι) (q : CommandQueue) (n : Nat) : Prop :=
  ∀ k, 0 < k → k < n → m.isHalted (m.calls i q k).machine = false

/-- The queue takes only finitely many lines from the machine before it halts. -/
def SendsFinitely (m : Machine ι) (i : ι) (q : CommandQueue) : Prop :=
  ∃ bound, ∀ n, m.RunsUntil i q n → (m.calls i q n).accepted.length ≤ bound

end Machine

namespace CommandQueue

theorem enqueueAll_queue (texts : List String) (q : CommandQueue) :
    (enqueueAll texts q).2 = { q with lines := q.lines ++ taken texts q } := by
  induction texts generalizing q with
  | nil => simp [enqueueAll, taken]
  | cons text texts ih =>
    simp only [enqueueAll, taken, ih]
    rcases enqueue_cases text q with ⟨e, hrun⟩ | ⟨_, _, hrun⟩
    · simp [Action.after, hrun]
    · simp [Action.after, hrun]

theorem length_taken_le (texts : List String) (q : CommandQueue) :
    (taken texts q).length ≤ Command.lineCount texts := by
  have hlength := length_enqueueAll_le texts q
  rw [enqueueAll_queue, List.length_append] at hlength
  omega

theorem pop_eq_some {q : CommandQueue} {line : String} {rest : List String}
    (h : q.lines = line :: rest) : q.pop = some (line, { q with lines := rest }) := by
  unfold pop
  rw [h]

theorem eq_of_pop {q waiting : CommandQueue} {line : String} (h : q.pop = some (line, waiting)) :
    q = { waiting with lines := line :: waiting.lines } := by
  rcases q.pop_cases with hpop | ⟨_, rest, hlines, hpop⟩
  · cases hpop.symm.trans h
  · cases hpop.symm.trans h
    cases q
    cases hlines
    rfl

end CommandQueue

namespace Machine

variable (m : Machine ι) (i : ι) (q : CommandQueue)

/-- What was executed and what waits are the lines that waited at first and those taken since. -/
theorem calls_lines (n : Nat) :
    (m.calls i q n).executed ++ (m.calls i q n).queue.lines = q.lines ++ (m.calls i q n).accepted := by
  induction n with
  | zero => simp [calls]
  | succ n ih =>
    simp only [calls, call]
    split
    · exact ih
    · rename_i line waiting hpop
      rw [CommandQueue.lines_of_pop hpop] at ih
      simp only [CommandQueue.enqueueAll_queue]
      rw [← List.append_assoc q.lines, ← ih]
      simp

theorem calls_capacity (n : Nat) : (m.calls i q n).queue.capacity = q.capacity := by
  induction n with
  | zero => rfl
  | succ n ih =>
    simp only [calls, call]
    split
    · exact ih
    · rename_i line waiting hpop
      rw [CommandQueue.eq_of_pop hpop] at ih
      rw [CommandQueue.enqueueAll_queue]
      exact ih

/-- Every call takes a line out, as long as lines wait. -/
theorem length_executed {n : Nat} (h : ∀ k < n, (m.calls i q k).queue.lines ≠ []) :
    (m.calls i q n).executed.length = n := by
  induction n with
  | zero => rfl
  | succ n ih =>
    have hearlier := ih fun k hk => h k (Nat.lt_succ_of_lt hk)
    obtain ⟨line, rest, hlines⟩ := List.exists_cons_of_ne_nil (h n (Nat.lt_succ_self n))
    simp [calls, call, CommandQueue.pop_eq_some hlines, hearlier]

end Machine

namespace Service

/-- The service with what was executed and sent before it. -/
def behind (first s : Service ι) : Service ι :=
  { s with
    executed := first.executed ++ s.executed
    accepted := first.accepted ++ s.accepted
    replies := first.replies ++ s.replies }

end Service

namespace Machine

variable (m : Machine ι) {i : ι} {q : CommandQueue}

theorem call_behind (first s : Service ι) : m.call (first.behind s) = first.behind (m.call s) := by
  unfold call Service.behind
  dsimp only
  split
  · rfl
  · simp only [List.append_assoc]

theorem calls_succ (i : ι) (q : CommandQueue) (n : Nat) :
    m.calls i q (n + 1) =
      (m.calls i q 1).behind (m.calls (m.calls i q 1).machine (m.calls i q 1).queue n) := by
  induction n with
  | zero => simp [calls, Service.behind]
  | succ n ih =>
    have hstep : m.calls i q (n + 1 + 1) = m.call (m.calls i q (n + 1)) := rfl
    rw [hstep, ih, call_behind]
    rfl

theorem calls_one (i : ι) {waiting : CommandQueue} {line : String}
    (hpop : q.pop = some (line, waiting)) :
    m.calls i q 1 =
      { machine := (m.dispatch line waiting i).1
        queue := (CommandQueue.enqueueAll (m.dispatch line waiting i).2 waiting).2
        executed := [line]
        accepted := CommandQueue.taken (m.dispatch line waiting i).2 waiting
        replies := (CommandQueue.enqueueAll (m.dispatch line waiting i).2 waiting).1 } := by
  simp [calls, call, hpop]

/-- The drain ends after this number of calls: before, lines wait and the machine is not halted. -/
structure EndsAfter (m : Machine ι) (i : ι) (q : CommandQueue) (n : Nat) : Prop where
  busy : ∀ k < n, (m.calls i q k).queue.lines ≠ []
  running : m.RunsUntil i q n
  ended : (m.calls i q n).queue.lines = [] ∨
    0 < n ∧ m.isHalted (m.calls i q n).machine = true

/-- What a drain amounts to that ends after this number of calls. -/
def outcome (m : Machine ι) (i : ι) (q : CommandQueue) (n : Nat) : Drained ι where
  machine := (m.calls i q n).machine
  queue := (m.calls i q n).queue.clear.2
  dispatched := (m.calls i q n).executed
  replies := (m.calls i q n).replies
  discarded := (m.calls i q n).queue.clear.1

/-- As long as the drain goes on, every call takes a line out, and only finitely many come in. -/
theorem exists_endsAfter (h : m.SendsFinitely i q) : ∃ n, m.EndsAfter i q n := by
  obtain ⟨bound, hbound⟩ := h
  have hends : ∃ n, (m.calls i q n).queue.lines = [] ∨
      0 < n ∧ m.isHalted (m.calls i q n).machine = true := by
    by_contra hnever
    have hgoes (n : Nat) : (m.calls i q n).queue.lines ≠ [] ∧
        (0 < n → m.isHalted (m.calls i q n).machine = false) := by
      have hnot := not_or.mp (not_exists.mp hnever n)
      exact ⟨hnot.1, fun hpos => Bool.eq_false_iff.mpr fun hhalt => hnot.2 ⟨hpos, hhalt⟩⟩
    let n := q.lines.length + bound + 1
    have hexecuted := m.length_executed i q fun k (_ : k < n) => (hgoes k).1
    have haccepted := hbound n fun k hpos _ => (hgoes k).2 hpos
    have hlines := congrArg List.length (m.calls_lines i q n)
    rw [List.length_append, List.length_append, hexecuted] at hlines
    omega
  refine ⟨Nat.find hends, fun k hk => ?_, fun k hpos hk => ?_, Nat.find_spec hends⟩
  · exact fun hempty => Nat.find_min hends hk (Or.inl hempty)
  · exact Bool.eq_false_iff.mpr fun hhalt => Nat.find_min hends hk (Or.inr ⟨hpos, hhalt⟩)

/-- Behind its first call, a drain is a drain of what this call leaves. -/
theorem EndsAfter.behind_first {n : Nat} (h : m.EndsAfter i q (n + 1))
    (hrun : m.isHalted (m.calls i q 1).machine = false) :
    m.EndsAfter (m.calls i q 1).machine (m.calls i q 1).queue n where
  busy k hk := by
    have hbusy := h.busy (k + 1) (Nat.succ_lt_succ hk)
    rwa [calls_succ] at hbusy
  running k _ hk := by
    have hrunning := h.running (k + 1) (Nat.succ_pos k) (Nat.succ_lt_succ hk)
    rwa [calls_succ] at hrunning
  ended := by
    have hended := h.ended
    rw [calls_succ] at hended
    refine hended.imp_right fun hhalt => ⟨Nat.pos_of_ne_zero ?_, hhalt.2⟩
    rintro rfl
    exact Bool.false_ne_true (hrun.symm.trans hhalt.2)

/-- The drain that follows its calls one by one comes to the outcome of all of them. -/
theorem drains_of_endsAfter {n : Nat} (h : m.EndsAfter i q n) : m.Drains i q (m.outcome i q n) := by
  induction n generalizing i q with
  | zero =>
    have hempty : q.lines = [] := h.ended.resolve_right fun hhalt => Nat.lt_irrefl 0 hhalt.1
    obtain ⟨capacity, lines⟩ := q
    cases hempty
    exact .empty rfl
  | succ n ih =>
    obtain ⟨line, waiting, hpop⟩ : ∃ line waiting, q.pop = some (line, waiting) := by
      rcases q.pop_cases with hpop | ⟨line, rest, _, hpop⟩
      · exact absurd (CommandQueue.lines_of_pop_none hpop) (h.busy 0 (Nat.succ_pos n))
      · exact ⟨line, _, hpop⟩
    have hone := m.calls_one i hpop
    by_cases hhalt : m.isHalted (m.calls i q 1).machine = true
    · -- a call that halts the machine is the last one
      have hlast : n = 0 := by
        by_contra hne
        have hrun := h.running 1 Nat.one_pos (Nat.succ_lt_succ (Nat.pos_of_ne_zero hne))
        exact Bool.false_ne_true (hrun.symm.trans hhalt)
      subst hlast
      rw [hone] at hhalt
      have hdrains := Drains.halt hpop hhalt
      unfold outcome
      rw [hone]
      exact hdrains
    · have hrun : m.isHalted (m.calls i q 1).machine = false := Bool.eq_false_iff.mpr hhalt
      have hrest := ih (h.behind_first m hrun)
      rw [hone] at hrun hrest
      have hdrains := Drains.run hpop hrun hrest
      unfold outcome at hdrains ⊢
      rw [calls_succ, hone]
      exact hdrains

theorem Drains.unique {d d' : Drained ι} (h : m.Drains i q d) (h' : m.Drains i q d') : d = d' := by
  induction h generalizing d' with
  | empty hpop =>
    cases h' with
    | empty _ => rfl
    | halt hpop' _ => cases hpop.symm.trans hpop'
    | run hpop' _ _ => cases hpop.symm.trans hpop'
  | halt hpop hhalt =>
    cases h' with
    | empty hpop' => cases hpop.symm.trans hpop'
    | halt hpop' _ =>
      cases hpop.symm.trans hpop'
      rfl
    | run hpop' hrun _ =>
      cases hpop.symm.trans hpop'
      cases hhalt.symm.trans hrun
  | run hpop hrun _ ih =>
    cases h' with
    | empty hpop' => cases hpop.symm.trans hpop'
    | halt hpop' hhalt =>
      cases hpop.symm.trans hpop'
      cases hhalt.symm.trans hrun
    | run hpop' _ rest' =>
      cases hpop.symm.trans hpop'
      rw [ih rest']

end Machine

namespace Interpreter

/-- The drain of an interpreter is the one that comes to an end. -/
theorem drains (p : Interpreter ι) (i : ι) (q : CommandQueue) :
    p.toMachine.Drains i q (p.drain i q) := by
  induction i, q using Interpreter.drain.induct p with
  | case1 i q hpop =>
    rw [p.drain_of_empty hpop]
    exact .empty hpop
  | case2 i q line waiting hpop done hhalt =>
    rw [p.drain_of_halt hpop hhalt]
    exact .halt hpop hhalt
  | case3 i q line waiting hpop done sent hrun ih =>
    rw [p.drain_of_run hpop hrun]
    exact .run hpop (Bool.eq_false_iff.mpr hrun) ih

/-- What the queue takes from an interpreter is paid from its credit. -/
theorem sendsFinitely (p : Interpreter ι) (i : ι) (q : CommandQueue) :
    p.toMachine.SendsFinitely i q := by
  have hpaid (n : Nat) : (p.toMachine.calls i q n).accepted.length +
      p.credit (p.toMachine.calls i q n).machine ≤ p.credit i := by
    induction n with
    | zero => simp [Machine.calls]
    | succ n ih =>
      simp only [Machine.calls, Machine.call]
      split
      · exact ih
      · rename_i line waiting hpop
        have htaken := CommandQueue.length_taken_le
          (p.dispatch line (p.toMachine.calls i q n).machine).2 waiting
        have hpays := p.pays line (p.toMachine.calls i q n).machine
        simp only [toMachine_dispatch, List.length_append]
        omega
  exact ⟨p.credit i, fun n _ => Nat.le_trans (Nat.le_add_right _ _) (hpaid n)⟩

end Interpreter

namespace Machine

/-- If the queue takes only finitely many lines from the machine, the drain comes to an end, in one way,
which is that of the interpreter if the machine is one. It leaves the queue empty, and as many calls as it
reports have executed the lines that waited and then those that were taken, in this order: up to the first
call that leaves the machine halted, and then the lines that wait are discarded and counted, or all of them,
and then none is discarded. -/
theorem drain_of_finitely_many (m : Machine ι) (i : ι) (q : CommandQueue) (h : m.SendsFinitely i q) :
    ∃ d : Drained ι, m.Drains i q d ∧ (∀ d', m.Drains i q d' → d' = d) ∧
      (∀ p : Interpreter ι, p.toMachine = m → p.drain i q = d) ∧
      d.queue = { q with lines := [] } ∧
      let n := d.dispatched.length
      let s := m.calls i q n
      d.machine = s.machine ∧ d.dispatched = s.executed ∧ d.replies = s.replies ∧
        s.executed ++ s.queue.lines = q.lines ++ s.accepted ∧
        (∀ k, 0 < k → k < n → m.isHalted (m.calls i q k).machine = false) ∧
        ((0 < n ∧ m.isHalted s.machine = true) ∧ d.discarded = s.queue.lines.length ∨
          ¬ (0 < n ∧ m.isHalted s.machine = true) ∧ d.dispatched = q.lines ++ s.accepted ∧
            d.discarded = 0) := by
  obtain ⟨n, hends⟩ := m.exists_endsAfter h
  have hdrains := m.drains_of_endsAfter hends
  have hlength : (m.outcome i q n).dispatched.length = n := m.length_executed i q hends.busy
  refine ⟨m.outcome i q n, hdrains, fun d' hd' => hd'.unique m hdrains, ?_, ?_, ?_⟩
  · rintro p rfl
    exact (p.drains i q).unique p.toMachine hdrains
  · have hcapacity := m.calls_capacity i q n
    unfold outcome CommandQueue.clear
    rw [← hcapacity]
  · rw [hlength]
    refine ⟨rfl, rfl, rfl, m.calls_lines i q n, hends.running, ?_⟩
    by_cases hhalt : 0 < n ∧ m.isHalted (m.calls i q n).machine = true
    · exact Or.inl ⟨hhalt, rfl⟩
    · have hempty := hends.ended.resolve_right hhalt
      have hlines := m.calls_lines i q n
      rw [hempty, List.append_nil] at hlines
      exact Or.inr ⟨hhalt, hlines, congrArg List.length hempty⟩

/-- A machine that answers the first line with more than there is room for, and halts on the second,
which it answers with one more line. -/
def answering : ScriptedMachine where
  halted := false
  haltOn := ["b"]
  replies := [("a", "x\ny\nz"), ("b", "u")]

theorem drain_of_answering :
    ScriptedMachine.interpreter.toMachine.SendsFinitely answering ⟨4, ["a", "b", "c"]⟩ ∧
      let d := ScriptedMachine.interpreter.drain answering ⟨4, ["a", "b", "c"]⟩
      d.dispatched = ["a", "b"] ∧ d.replies = [.error .full, .ok 1] ∧ d.discarded = 2 ∧
        d.queue = ⟨4, []⟩ := by
  have hfinite := ScriptedMachine.interpreter.sendsFinitely answering ⟨4, ["a", "b", "c"]⟩
  obtain ⟨d, _, hunique, hdrain, hqueue, _⟩ := drain_of_finitely_many _ _ _ hfinite
  have hcalls := hunique _ (.run rfl rfl (.halt rfl rfl))
  refine ⟨hfinite, ?_⟩
  rw [hdrain ScriptedMachine.interpreter rfl, ← hcalls]
  exact ⟨rfl, rfl, rfl, hcalls ▸ hqueue⟩

end Machine

end FrontPanel
