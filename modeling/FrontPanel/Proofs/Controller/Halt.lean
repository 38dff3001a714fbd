import FrontPanel.Controller.Executor
import FrontPanel.Proofs.Command.History

/-!
# The emergency stop

A stop halts the executor, a resume lets it go on, and whatever waits when a drain finds the executor
halted is dropped. Texts may join the queue at any moment of a drain; all the same, no line that waits
when a stop is executed is executed later.
-/

namespace FrontPanel

set_option autoImplicit false

namespace Command

def word (line : String) : String := String.ofList (Text.firstWord line.toList)

def isStop (line : String) : Bool := word line == "M112"

def isResume (line : String) : Bool := word line == "M999"

theorem isStop_iff {line : String} : isStop line = true ↔ word line = "M112" := beq_iff_eq

theorem isResume_eq_false_iff {line : String} : isResume line = false ↔ word line ≠ "M999" :=
  beq_eq_false_iff_ne

end Command

open Command (isStop isResume)

/-- What a drain did, in the order in which it did it. -/
structure DrainRecord where
  haltedBefore : Bool
  /-- The line that waited in front when the drain began. -/
  first : Option String
  executed : List String := []
  discarded : Nat := 0
  haltedAfter : Bool := false
  /-- The number of lines that wait when the drain ends. -/
  left : Nat := 0

inductive DrainPhase where
  | idle
  /-- The next line is to be taken out and executed. -/
  | taking (d : DrainRecord)
  /-- A line was executed, and the executor has not been looked at since. -/
  | looking (d : DrainRecord)

/-- A text is sent, or the drain goes on. -/
inductive ExecutorStep where
  | enqueue (text : String)
  | drain

structure ExecutorHistory where
  executor : Executor
  queue : CommandQueue
  phase : DrainPhase := .idle
  accepted : List String := []
  /-- The accepted lines that left the queue, each with its fate: executed or dropped. -/
  settled : List (String × Bool) := []
  /-- The drains that came to an end. -/
  drains : List DrainRecord := []

namespace ExecutorHistory

def finish (h : ExecutorHistory) (d : DrainRecord) : ExecutorHistory :=
  { h with
    phase := .idle
    drains := h.drains ++
      [{ d with haltedAfter := h.executor.halted, left := h.queue.lines.length }] }

def step (h : ExecutorHistory) : ExecutorStep → ExecutorHistory
  | .enqueue text =>
    match CommandQueue.enqueue text h.queue with
    | .ok _ q => { h with queue := q, accepted := h.accepted ++ Command.linesOf text }
    | .error _ q => { h with queue := q }
  | .drain =>
    match h.phase with
    | .idle =>
      { h with phase := .taking { haltedBefore := h.executor.halted, first := h.queue.lines.head? } }
    | .taking d =>
      match h.queue.pop with
      | none => h.finish d
      | some (line, q) =>
        { h with
          executor := h.executor.execute line
          queue := q
          settled := h.settled ++ [(line, true)]
          phase := .looking { d with executed := d.executed ++ [line] } }
    | .looking d =>
      if h.executor.halted then
        { h with
          queue := h.queue.clear.2
          settled := h.settled ++ CommandHistory.allDropped h.queue.lines }.finish
            { d with discarded := h.queue.clear.1 }
      else { h with phase := .taking d }

def run (h : ExecutorHistory) (steps : List ExecutorStep) : ExecutorHistory := steps.foldl step h

/-- The lines that were executed, the latest at the end. -/
def executed (h : ExecutorHistory) : List String :=
  (h.settled.filter fun s => s.2).map Prod.fst

/-- The latest line that stops or resumes. -/
def lastOrder (h : ExecutorHistory) : Option String :=
  (h.executed.filter fun line => isStop line || isResume line).getLast?

/-- The accepted line number `k` waits. -/
def Waits (h : ExecutorHistory) (k : Nat) : Prop := h.settled.length ≤ k ∧ k < h.accepted.length

/-- The accepted line number `k` was executed. -/
def WasExecuted (h : ExecutorHistory) (k : Nat) : Prop := ∃ line, h.settled[k]? = some (line, true)

end ExecutorHistory

namespace Executor

@[simp] theorem halted_say (entry : LogEntry) (e : Executor) : (e.say entry).halted = e.halted := rfl

@[simp] theorem halted_sayAll (entries : List LogEntry) (e : Executor) :
    (e.sayAll entries).halted = e.halted := by
  rw [sayAll_eq]

@[simp] theorem halted_onFlow (x : Action FlowError (FlowSensor × RegisterBank) Unit)
    (failure : FlowError → LogEntry) (e : Executor) : (e.onFlow x failure).halted = e.halted := by
  unfold onFlow
  cases e.flow with
  | none => rfl
  | some f => cases h : x.outcome (f, e.sensors) <;> simp only [h, halted_say]

/-- What neither an entry of the console nor the command itself changes stays as it is. -/
theorem flowCommand_keeps {α : Type} (part : Executor → α) (code : String)
    {x : FlowSensor → Executor → Executor} (e : Executor) (hsay : ∀ entry, part (e.say entry) = part e)
    (hx : ∀ f, part (x f e) = part e) : part (e.flowCommand code x) = part e := by
  unfold flowCommand
  cases e.flow with
  | none => exact hsay _
  | some f => exact hx f

theorem halted_flowCommand (code : String) {x : FlowSensor → Executor → Executor} (e : Executor)
    (hx : ∀ f, (x f e).halted = e.halted) : (e.flowCommand code x).halted = e.halted :=
  flowCommand_keeps halted code e (fun entry => e.halted_say entry) hx

theorem halted_execute (line : String) (e : Executor) :
    (e.execute line).halted =
      if isStop line then true else if isResume line then false else e.halted := by
  unfold execute isStop isResume Command.word
  split
  · rename_i hword
    simp [hword]
  · rename_i hword
    simp [hword]
  · rename_i hword
    rw [hword]
    exact halted_flowCommand _ _ fun _ => rfl
  · rename_i hword
    rw [hword]
    exact halted_flowCommand _ _ fun _ => halted_sayAll _ _
  · rename_i hword
    rw [hword]
    split
    · exact halted_flowCommand _ _ fun _ => halted_onFlow _ _ _
    · rfl
  · rename_i hstop hresume _ _ _
    simp [beq_iff_eq, show ¬ _ from hstop, show ¬ _ from hresume]

theorem drain_of_halted {e : Executor} {q waiting : CommandQueue} {line : String}
    (hpop : q.pop = some (line, waiting)) (hhalted : (e.execute line).halted = true) :
    interpreter.drain e q =
      ⟨e.execute line, waiting.clear.2, [line], [], waiting.lines.length⟩ :=
  interpreter.drain_of_halt hpop hhalted

theorem drain_of_not_halted {e : Executor} {q waiting : CommandQueue} {line : String}
    (hpop : q.pop = some (line, waiting)) (hrunning : ¬ (e.execute line).halted = true) :
    interpreter.drain e q =
      let d := interpreter.drain (e.execute line) waiting
      { d with dispatched := line :: d.dispatched } :=
  interpreter.drain_of_run hpop hrunning

end Executor

/-- While a drain goes on: if it began halted on a line that does not resume, this line alone was executed,
and the executor is halted. -/
def DrainRecord.Stopped (d : DrainRecord) (halted : Bool) : Prop :=
  d.haltedBefore = true → ∀ line, d.first = some line → isResume line = false →
    d.executed = [line] ∧ halted = true

structure DrainRecord.Sound (d : DrainRecord) : Prop where
  stopped : d.Stopped d.haltedAfter
  halted_of_discarded : d.discarded ≠ 0 → d.haltedAfter = true
  left : d.left = 0

/-- Before its first line a drain is as it began; before any other line the executor is not halted. -/
def DrainPhase.Sound (halted : Bool) (waiting : List String) : DrainPhase → Prop
  | .idle => True
  | .taking d =>
    d.discarded = 0 ∧
      (d.executed = [] ∧ d.haltedBefore = halted ∧
          (∀ line, d.first = some line → waiting.head? = some line) ∨
        d.Stopped halted ∧ halted = false)
  | .looking d => d.discarded = 0 ∧ d.Stopped halted

namespace ExecutorHistory

structure Sound (h : ExecutorHistory) : Prop where
  accounts : h.accepted = h.settled.map Prod.fst ++ h.queue.lines
  halted : h.executor.halted = h.lastOrder.any isStop
  phase : h.phase.Sound h.executor.halted h.queue.lines
  drains : ∀ d ∈ h.drains, d.Sound

theorem new_sound (e : Executor) (n : Nat) :
    Sound { executor := { e with halted := false }, queue := { capacity := n } } where
  accounts := rfl
  halted := rfl
  phase := trivial
  drains _ hd := by cases hd

variable {h : ExecutorHistory}

theorem phase_of_append {halted : Bool} {waiting : List String} (more : List String)
    {phase : DrainPhase} (hphase : phase.Sound halted waiting) :
    phase.Sound halted (waiting ++ more) := by
  cases phase with
  | idle => trivial
  | taking d =>
    obtain ⟨hdiscarded, ⟨hnone, hbefore, hfirst⟩ | hstopped⟩ := hphase
    · refine ⟨hdiscarded, Or.inl ⟨hnone, hbefore, fun line hline => ?_⟩⟩
      rw [List.head?_append, hfirst line hline]
      rfl
    · exact ⟨hdiscarded, Or.inr hstopped⟩
  | looking d => exact hphase

theorem Sound.enqueue (hs : h.Sound) (text : String) : (h.step (.enqueue text)).Sound := by
  rcases CommandQueue.enqueue_cases text h.queue with ⟨e, hrun⟩ | ⟨_, _, hrun⟩
  · simp only [step, hrun]
    exact ⟨hs.accounts, hs.halted, hs.phase, hs.drains⟩
  · simp only [step, hrun]
    refine ⟨?_, hs.halted, phase_of_append _ hs.phase, hs.drains⟩
    rw [hs.accounts, List.append_assoc]

theorem drains_of_finish {drains : List DrainRecord} (hs : ∀ d ∈ drains, d.Sound)
    {d : DrainRecord} (hd : d.Sound) : ∀ d' ∈ drains ++ [d], d'.Sound :=
  List.forall_mem_append.mpr ⟨hs, List.forall_mem_singleton.mpr hd⟩

/-- An executed line decides about the halt if it stops or resumes, and changes nothing otherwise. -/
theorem any_isStop_append (lines : List String) (line : String) (halted : Bool)
    (hhalted : halted = (lines.filter fun l => isStop l || isResume l).getLast?.any isStop) :
    (if isStop line then true else if isResume line then false else halted) =
      ((lines ++ [line]).filter fun l => isStop l || isResume l).getLast?.any isStop := by
  rw [List.filter_append]
  by_cases hstop : isStop line = true
  · simp [hstop]
  · by_cases hresume : isResume line = true
    · simp [hstop, hresume]
    · simp [hstop, hresume, hhalted]

theorem Sound.begin (hs : h.Sound) (hidle : h.phase = .idle) : (h.step .drain).Sound := by
  simp only [step, hidle]
  exact ⟨hs.accounts, hs.halted, ⟨rfl, Or.inl ⟨rfl, rfl, fun _ hline => hline⟩⟩, hs.drains⟩

theorem Sound.take (hs : h.Sound) {d : DrainRecord} (htaking : h.phase = .taking d) :
    (h.step .drain).Sound := by
  have hphase := hs.phase
  rw [htaking] at hphase
  obtain ⟨hdiscarded, hphase⟩ := hphase
  rcases h.queue.pop_cases with hpop | ⟨line, rest, hlines, hpop⟩
  · have hempty := CommandQueue.lines_of_pop_none hpop
    simp only [step, htaking, hpop]
    refine ⟨hs.accounts, hs.halted, trivial, drains_of_finish hs.drains ⟨?_, ?_, ?_⟩⟩
    · intro hbefore line hfirst hresume
      rcases hphase with ⟨_, _, hhead⟩ | ⟨hstopped, _⟩
      · have hline := hhead line hfirst
        rw [hempty] at hline
        cases hline
      · exact hstopped hbefore line hfirst hresume
    · exact fun hsome => absurd hdiscarded hsome
    · rw [hempty]
      rfl
  · simp only [step, htaking, hpop]
    refine ⟨?_, ?_, ?_, hs.drains⟩
    · rw [hs.accounts, hlines]
      simp
    · rw [Executor.halted_execute]
      have hexecuted := any_isStop_append h.executed line h.executor.halted hs.halted
      simpa [lastOrder, executed] using hexecuted
    · refine ⟨hdiscarded, fun hbefore first hfirst hresume => ?_⟩
      rcases hphase with ⟨hnone, hsame, hhead⟩ | ⟨hstopped, hrunning⟩
      · have hline := hhead first hfirst
        rw [hlines, List.head?_cons, Option.some.injEq] at hline
        subst hline
        refine ⟨by rw [hnone]; rfl, ?_⟩
        rw [Executor.halted_execute, ← hsame, hbefore, hresume]
        simp
      · have hhalted := (hstopped hbefore first hfirst hresume).2
        rw [hrunning] at hhalted
        cases hhalted

theorem Sound.look (hs : h.Sound) {d : DrainRecord} (hlooking : h.phase = .looking d) :
    (h.step .drain).Sound := by
  have hphase := hs.phase
  rw [hlooking] at hphase
  obtain ⟨hdiscarded, hstopped⟩ := hphase
  by_cases hhalted : h.executor.halted = true
  · simp only [step, hlooking, if_pos hhalted]
    refine ⟨?_, ?_, trivial, drains_of_finish hs.drains ⟨hstopped, fun _ => hhalted, rfl⟩⟩
    · simp [finish, CommandQueue.clear, hs.accounts, CommandHistory.map_fst_allDropped]
    · have hkept := hs.halted
      simp only [lastOrder, executed] at hkept
      simp [finish, lastOrder, executed, (CommandHistory.filter_allDropped _).1, hkept]
  · simp only [step, hlooking, if_neg hhalted]
    have hrunning : h.executor.halted = false := Bool.eq_false_iff.mpr hhalted
    exact ⟨hs.accounts, hs.halted, ⟨hdiscarded, Or.inr ⟨hstopped, hrunning⟩⟩, hs.drains⟩

theorem Sound.step (hs : h.Sound) (s : ExecutorStep) : (h.step s).Sound := by
  cases s with
  | enqueue text => exact hs.enqueue text
  | drain =>
    cases hphase : h.phase with
    | idle => exact hs.begin hphase
    | taking d => exact hs.take hphase
    | looking d => exact hs.look hphase

theorem Sound.run (hs : h.Sound) (steps : List ExecutorStep) : (h.run steps).Sound := by
  induction steps generalizing h with
  | nil => exact hs
  | cons s rest ih => exact ih (hs.step s)

theorem run_append (h : ExecutorHistory) (before after : List ExecutorStep) :
    h.run (before ++ after) = (h.run before).run after := List.foldl_append

theorem lastOrder_of_stop {line : String} (hlast : h.executed.getLast? = some line)
    (hstop : isStop line = true) : h.lastOrder = some line := by
  obtain ⟨before, hexecuted⟩ := List.getLast?_eq_some_iff.mp hlast
  unfold lastOrder
  rw [hexecuted, List.filter_append]
  simp [hstop]

/-- The accepted line number `k` was dropped, or it waits behind a line after which the drain finds the
executor halted. -/
inductive Doomed (h : ExecutorHistory) (k : Nat) : Prop where
  | waiting (d : DrainRecord) (looking : h.phase = .looking d) (halted : h.executor.halted = true)
      (le : h.settled.length ≤ k) (lt : k < h.settled.length + h.queue.lines.length)
  | dropped (line : String) (settled : h.settled[k]? = some (line, false))

theorem Doomed.not_wasExecuted {k : Nat} (hk : h.Doomed k) : ¬ h.WasExecuted k := by
  rintro ⟨line, hline⟩
  cases hk with
  | waiting d hlooking hhalted hle hlt =>
    rw [List.getElem?_eq_none hle] at hline
    cases hline
  | dropped other hdropped =>
    rw [hdropped] at hline
    cases hline

/-- What became of a line does not change any more. -/
theorem settled_step (h : ExecutorHistory) (s : ExecutorStep) :
    ∃ more, (h.step s).settled = h.settled ++ more := by
  cases s with
  | enqueue text =>
    rcases CommandQueue.enqueue_cases text h.queue with ⟨e, hrun⟩ | ⟨_, _, hrun⟩
    · exact ⟨[], by simp [step, hrun]⟩
    · exact ⟨[], by simp [step, hrun]⟩
  | drain =>
    cases hphase : h.phase with
    | idle => exact ⟨[], by simp [step, hphase]⟩
    | taking d =>
      rcases h.queue.pop_cases with hpop | ⟨line, rest, _, hpop⟩
      · exact ⟨[], by simp [step, hphase, hpop, finish]⟩
      · exact ⟨[(line, true)], by simp [step, hphase, hpop]⟩
    | looking d =>
      by_cases hhalted : h.executor.halted = true
      · exact ⟨CommandHistory.allDropped h.queue.lines, by simp [step, hphase, hhalted, finish]⟩
      · exact ⟨[], by simp [step, hphase, hhalted]⟩

theorem Doomed.step {k : Nat} (hk : h.Doomed k) (s : ExecutorStep) : (h.step s).Doomed k := by
  cases hk with
  | dropped line hdropped =>
    obtain ⟨more, hmore⟩ := h.settled_step s
    have hlt : k < h.settled.length := (List.getElem?_eq_some_iff.mp hdropped).1
    refine .dropped line ?_
    rw [hmore, List.getElem?_append_left hlt, hdropped]
  | waiting d hlooking hhalted hle hlt =>
    cases s with
    | enqueue text =>
      rcases CommandQueue.enqueue_cases text h.queue with ⟨e, hrun⟩ | ⟨_, _, hrun⟩
      · simp only [ExecutorHistory.step, hrun]
        exact .waiting d hlooking hhalted hle hlt
      · simp only [ExecutorHistory.step, hrun]
        refine .waiting d hlooking hhalted hle ?_
        simp only [List.length_append]
        omega
    | drain =>
      -- what waits goes behind the settled lines in the order in which it waited
      have hwaits : k - h.settled.length < h.queue.lines.length := by omega
      refine .dropped h.queue.lines[k - h.settled.length] ?_
      simp only [ExecutorHistory.step, hlooking, if_pos hhalted, finish]
      rw [List.getElem?_append_right hle, CommandHistory.allDropped, List.getElem?_map,
        List.getElem?_eq_getElem hwaits]
      rfl

theorem Doomed.run {k : Nat} (hk : h.Doomed k) (steps : List ExecutorStep) :
    (h.run steps).Doomed k := by
  induction steps generalizing h with
  | nil => exact hk
  | cons s rest ih => exact ih (hk.step s)

theorem Sound.doomed_of_stop (hs : h.Sound) {d : DrainRecord} (hlooking : h.phase = .looking d)
    {line : String} (hlast : h.executed.getLast? = some line) (hstop : isStop line = true) {k : Nat}
    (hk : h.Waits k) : h.Doomed k := by
  have hhalted : h.executor.halted = true := by
    rw [hs.halted, lastOrder_of_stop hlast hstop]
    exact hstop
  have haccepted := congrArg List.length hs.accounts
  rw [List.length_append, List.length_map] at haccepted
  exact .waiting d hlooking hhalted hk.1 (haccepted ▸ hk.2)

/-- The history after a drain, which the record `d` began. -/
def drained (h : ExecutorHistory) (d : DrainRecord) (done : Drained Executor)
    (dropped : List String) : ExecutorHistory where
  executor := done.machine
  queue := done.queue
  accepted := h.accepted
  settled :=
    h.settled ++ (done.dispatched.map fun line => (line, true)) ++ CommandHistory.allDropped dropped
  drains := h.drains ++
    [{ d with
      executed := d.executed ++ done.dispatched
      discarded := done.discarded
      haltedAfter := done.machine.halted
      left := done.queue.lines.length }]

theorem run_drain_of_taking {d : DrainRecord} (htaking : h.phase = .taking d)
    (hdiscarded : d.discarded = 0) :
    let done := Executor.interpreter.drain h.executor h.queue
    ∃ n dropped, dropped.length = done.discarded ∧
      h.run (List.replicate n .drain) = h.drained d done dropped := by
  generalize he : h.executor = e
  generalize hq : h.queue = q
  induction e, q using Interpreter.drain.induct Executor.interpreter generalizing h d with
  | case1 e q hpop =>
    subst he hq
    rw [Executor.interpreter.drain_of_empty hpop]
    refine ⟨1, [], rfl, ?_⟩
    simp [run, step, htaking, hpop, finish, drained, CommandHistory.allDropped, hdiscarded]
  | case2 e q line waiting hpop =>
    rename_i done hhalt
    subst he hq
    have hhalted : (h.executor.execute line).halted = true := hhalt
    rw [Executor.drain_of_halted hpop hhalted]
    refine ⟨2, waiting.lines, rfl, ?_⟩
    simp [run, List.replicate, step, htaking, hpop, finish, drained, hhalted, CommandQueue.clear]
  | case3 e q line waiting hpop =>
    rename_i done sent hrun ih
    subst he hq
    have hrunning : ¬ (h.executor.execute line).halted = true := hrun
    rw [Executor.drain_of_not_halted hpop hrunning]
    have htwo : h.run (List.replicate 2 .drain) =
        { h with
          executor := h.executor.execute line
          queue := waiting
          settled := h.settled ++ [(line, true)]
          phase := .taking { d with executed := d.executed ++ [line] } } := by
      simp [run, List.replicate, step, htaking, hpop, hrunning]
    obtain ⟨n, dropped, hlength, hrest⟩ :=
      ih (h := h.run (List.replicate 2 .drain)) (d := { d with executed := d.executed ++ [line] })
        (by rw [htwo]) hdiscarded (by rw [htwo]; rfl) (by rw [htwo]; rfl)
    refine ⟨2 + n, dropped, hlength, ?_⟩
    rw [← List.replicate_append_replicate, run_append, hrest, htwo]
    simp [drained, done, sent, CommandQueue.enqueueAll, Executor.interpreter]

/-- When it starts to take lines out, the drain has what it found at its beginning in its record. -/
theorem run_drain_of_idle (hidle : h.phase = .idle) :
    let done := Executor.interpreter.drain h.executor h.queue
    ∃ n dropped, dropped.length = done.discarded ∧
      h.run (List.replicate n .drain) =
        h.drained { haltedBefore := h.executor.halted, first := h.queue.lines.head? } done dropped := by
  have hbegin : h.step .drain =
      { h with phase := .taking { haltedBefore := h.executor.halted, first := h.queue.lines.head? } } := by
    simp only [step, hidle]
  obtain ⟨n, dropped, hlength, hrun⟩ :=
    run_drain_of_taking (h := h.step .drain) (by rw [hbegin]) rfl
  rw [hbegin] at hlength hrun
  refine ⟨n + 1, dropped, hlength, ?_⟩
  rw [List.replicate_succ]
  change (h.step .drain).run _ = _
  rw [hbegin, hrun]
  rfl

/-- However texts and drains follow each other, the executor is halted if and only if the latest line that
stops or resumes is a stop; a line that waits when a stop was executed is never executed; a drain that
begins halted executes the first line alone and leaves nothing, unless this line resumes; only a drain
that ends halted drops lines; and without texts in between the steps of a drain are the drain. -/
theorem halt_of_run (e : Executor) (n : Nat) (steps : List ExecutorStep) :
    let start : ExecutorHistory :=
      { executor := { e with halted := false }, queue := { capacity := n } }
    let h := start.run steps
    h.accepted = h.settled.map Prod.fst ++ h.queue.lines ∧
      (h.executor.halted = true ↔ ∃ line, h.lastOrder = some line ∧ Command.word line = "M112") ∧
      (∀ d line, h.phase = .looking d → h.executed.getLast? = some line →
        Command.word line = "M112" →
          ∀ k, h.Waits k → ∀ later, ¬ (h.run later).WasExecuted k) ∧
      (∀ d ∈ h.drains,
        (d.haltedBefore = true → ∀ line, d.first = some line → Command.word line ≠ "M999" →
          d.executed = [line] ∧ d.left = 0 ∧ d.haltedAfter = true) ∧
        (d.discarded ≠ 0 → d.haltedAfter = true)) ∧
      (h.phase = .idle →
        let done := Executor.interpreter.drain h.executor h.queue
        ∃ k dropped, dropped.length = done.discarded ∧
          h.run (List.replicate k .drain) =
            h.drained { haltedBefore := h.executor.halted, first := h.queue.lines.head? }
              done dropped) := by
  intro start h
  have hs : h.Sound := (new_sound e n).run steps
  refine ⟨hs.accounts, ?_, ?_, fun d hd => ⟨?_, (hs.drains d hd).halted_of_discarded⟩,
    run_drain_of_idle⟩
  · rw [hs.halted, Option.any_eq_true]
    exact exists_congr fun line => and_congr_right fun _ => Command.isStop_iff
  · intro d line hlooking hlast hstop k hk later
    exact ((hs.doomed_of_stop hlooking hlast (Command.isStop_iff.mpr hstop) hk).run later).not_wasExecuted
  · intro hbefore line hfirst hresume
    obtain ⟨hexecuted, hafter⟩ :=
      (hs.drains d hd).stopped hbefore line hfirst (Command.isResume_eq_false_iff.mpr hresume)
    exact ⟨hexecuted, (hs.drains d hd).left, hafter⟩

end ExecutorHistory

end FrontPanel
