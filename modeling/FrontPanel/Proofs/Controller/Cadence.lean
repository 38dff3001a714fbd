import Mathlib.Algebra.Ring.Nat
import FrontPanel.Controller.Basic
import FrontPanel.Proofs.Controller.Halt
import FrontPanel.Proofs.Controller.Input

/-!
# How often the flow sensor is read

The sampler counts its samples in 32 bits and reads the flow sensor after every one whose number is a multiple
of ten. The range of the count is not such a multiple, so where it wraps around two readings come closer
together, and never further apart. All this holds whatever the other tasks and the surroundings do in between,
and every sample is published, whether a reading follows or not.
-/

namespace FrontPanel

set_option autoImplicit false

/-- What the sampler does to the rest of the controller. -/
inductive SamplerAct where
  | publish (buttons : ButtonMask) (steps : Int)
  | updateFlow
  deriving DecidableEq

def SamplerAct.isPublish : SamplerAct → Bool
  | publish _ _ => true
  | updateFlow => false

/-- A task runs, the main task starts or waits, or the surroundings change. -/
inductive ControllerStep where
  | start
  | beat
  | sample
  | panel
  | execute
  | level (number : Nat) (high : Bool)
  | serial (change : SerialBus → SerialBus)
  | sensors (change : RegisterBank → RegisterBank)

namespace Controller

def step (c : Controller) : ControllerStep → Controller
  | .start => c.start
  | .beat => c.beat
  | .sample => c.runSampler
  | .panel => c.runPanel
  | .execute => c.runExecutor
  | .level number high => c.setLevel number high
  | .serial change => c.onSerial change
  | .sensors change => c.onSensors change

/-- What the sampler does in its next run. In its first run it only announces itself. -/
def sampling (c : Controller) : Option (List SamplerAct) :=
  match c.phase with
  | .running t =>
    if t.sampler.started then
      let ((buttons, steps), sampler) := t.sampler.take c.levels
      some (.publish buttons steps ::
        if sampler.isFlowDue && c.executor.flow.isSome then [.updateFlow] else [])
    else none
  | _ => none

def perform (c : Controller) : SamplerAct → Controller
  | .publish buttons steps => c.whileRunning fun t =>
    { c with phase := .running (t.mapLcd (Tft.publish buttons steps)) }
  | .updateFlow => { c with executor := c.executor.updateFlow }

/-- The sampler has taken a sample, and nothing else has changed. -/
def sampled (c : Controller) : Controller := c.whileRunning fun t =>
  { c with phase := .running { t with sampler := (t.sampler.take c.levels).2 } }

end Controller

/-- A controller and the samples it has taken, each as what the sampler did. -/
structure SamplerHistory where
  controller : Controller
  samples : List (List SamplerAct) := []

namespace SamplerHistory

def step (h : SamplerHistory) (s : ControllerStep) : SamplerHistory where
  controller := h.controller.step s
  samples :=
    match s with
    | .sample => h.samples ++ h.controller.sampling.toList
    | _ => h.samples

def run (h : SamplerHistory) (steps : List ControllerStep) : SamplerHistory := steps.foldl step h

end SamplerHistory

namespace Executor

theorem flow_sayAll (entries : List LogEntry) (e : Executor) : (e.sayAll entries).flow = e.flow := by
  rw [sayAll_eq]

theorem hasFlow_onFlow (x : Action FlowError (FlowSensor × RegisterBank) Unit)
    (failure : FlowError → LogEntry) (e : Executor) :
    (e.onFlow x failure).flow.isSome = e.flow.isSome := by
  unfold onFlow
  cases hflow : e.flow with
  | none => rw [hflow]
  | some f =>
    cases h : x.outcome (f, e.sensors) with
    | ok _ => simp only [h, Option.isSome_some]
    | error _ => simp only [h, say, Option.isSome_some]

theorem updateFlow_of_none {e : Executor} (h : e.flow = none) : e.updateFlow = e := by
  unfold updateFlow onFlow
  rw [h]

theorem hasFlow_flowCommand (code : String) {x : FlowSensor → Executor → Executor} (e : Executor)
    (hx : ∀ f, (x f e).flow.isSome = e.flow.isSome) :
    (e.flowCommand code x).flow.isSome = e.flow.isSome :=
  flowCommand_keeps (fun e => e.flow.isSome) code e (fun _ => rfl) hx

theorem hasFlow_startFlow (settings : FlowSettings) (e : Executor) :
    (e.startFlow settings).flow.isSome = true := by
  unfold startFlow
  dsimp only
  split
  · exact hasFlow_onFlow _ _ _
  · exact hasFlow_onFlow _ _ _

theorem hasFlow_execute (line : String) (e : Executor) :
    (e.execute line).flow.isSome = e.flow.isSome := by
  unfold execute
  split
  · rfl
  · rfl
  · exact hasFlow_flowCommand _ _ fun _ => rfl
  · exact hasFlow_flowCommand _ _ fun _ => congrArg Option.isSome (flow_sayAll _ _)
  · split
    · exact hasFlow_flowCommand _ _ fun _ => hasFlow_onFlow _ _ _
    · rfl
  · rfl

theorem hasFlow_drained (e : Executor) (q : CommandQueue) :
    (interpreter.drain e q).machine.flow.isSome = e.flow.isSome := by
  induction e, q using Interpreter.drain.induct interpreter with
  | case1 e q hpop => rw [interpreter.drain_of_empty hpop]
  | case2 e q line waiting hpop =>
    rename_i done hhalt
    rw [drain_of_halted hpop hhalt]
    exact hasFlow_execute line e
  | case3 e q line waiting hpop =>
    rename_i done sent hrun ih
    rw [drain_of_not_halted hpop hrun]
    exact ih.trans (hasFlow_execute line e)

theorem hasFlow_drain (e : Executor) (q : CommandQueue) : (e.drain q).1.flow.isSome = e.flow.isSome :=
  (congrArg Option.isSome (flow_sayAll _ _)).trans (hasFlow_drained e q)

end Executor

/-- How far the controller is, with its sampler once its tasks run. -/
inductive SamplerPhase where
  | off
  | parked
  | running (s : Sampler)

/-- All of the controller that the reading of the flow sensor depends on. -/
structure Overview where
  settings : Settings
  hasFlow : Bool
  phase : SamplerPhase

namespace Controller

def overview (c : Controller) : Overview where
  settings := c.settings
  hasFlow := c.executor.flow.isSome
  phase :=
    match c.phase with
    | .off => .off
    | .parked => .parked
    | .running t => .running t.sampler

section Overview

variable (c : Controller)

theorem overview_sayAll (entries : List LogEntry) : (c.sayAll entries).overview = c.overview := by
  unfold overview sayAll
  rw [Executor.flow_sayAll]

theorem overview_beat : c.beat.overview = c.overview := by
  unfold beat
  cases c.phase <;> rfl

theorem overview_runPanel : c.runPanel.overview = c.overview := by
  unfold runPanel whileRunning
  cases hphase : c.phase with
  | running t =>
    dsimp only
    rw [overview_sayAll]
    simp only [overview, collect, record, hphase]
    rfl
  | _ => rfl

theorem overview_runExecutor : c.runExecutor.overview = c.overview := by
  unfold runExecutor whileRunning
  cases hphase : c.phase with
  | running t =>
    dsimp only
    split
    · simp only [overview, Executor.hasFlow_drain, hphase]
    · simp only [overview, hphase]
      rfl
  | _ => rfl

theorem overview_onSerial (change : SerialBus → SerialBus) :
    (c.onSerial change).overview = c.overview := by
  unfold onSerial
  cases hphase : c.phase with
  | running t =>
    simp only [overview, hphase]
    rfl
  | _ => simp only [overview, hphase]

/-- Everything but the start and the sampler. -/
theorem overview_step {s : ControllerStep} (hstart : s ≠ .start) (hsample : s ≠ .sample) :
    (c.step s).overview = c.overview := by
  cases s with
  | start => exact absurd rfl hstart
  | sample => exact absurd rfl hsample
  | beat => exact c.overview_beat
  | panel => exact c.overview_runPanel
  | execute => exact c.overview_runExecutor
  | level number high => rfl
  | serial change => exact c.overview_onSerial change
  | sensors change => rfl

end Overview

section Start

variable (c : Controller)

theorem settings_startBuses : c.startBuses.settings = c.settings := by
  unfold startBuses
  dsimp only
  split <;> rfl

theorem hasFlow_startBuses (h : c.executor.flow = none) :
    c.startBuses.executor.flow.isSome = c.settings.flow.enabled := by
  unfold startBuses
  dsimp only
  split
  · rename_i henabled
    rw [Executor.hasFlow_startFlow]
    exact henabled.symm
  · rename_i hdisabled
    exact (congrArg Option.isSome h).trans (Bool.eq_false_iff.mpr hdisabled).symm

theorem overview_startPanel :
    c.startPanel.overview = { c.overview with phase := .parked } ∨
      ∃ s, s.count = 0 ∧ c.startPanel.overview = { c.overview with phase := .running s } := by
  unfold startPanel
  dsimp only
  split
  · left
    simp only [overview, sayAll, record, Executor.flow_sayAll]
  · refine .inr ⟨.ofWiring (.ofSettings c.settings.panel) c.levels, rfl, ?_⟩
    simp only [overview, collect, say, sayAll, record, Executor.say, Executor.flow_sayAll]
    rfl

theorem overview_start (hphase : c.phase = .off) (hflow : c.executor.flow = none) :
    c.start.overview = ⟨c.settings, c.settings.flow.enabled, .parked⟩ ∨
      ∃ s, s.count = 0 ∧ c.start.overview = ⟨c.settings, c.settings.flow.enabled, .running s⟩ := by
  have hstart : c.start.overview = c.startBuses.startPanel.overview := by
    unfold start
    rw [hphase]
    rfl
  have hsettings : c.startBuses.overview.settings = c.settings := c.settings_startBuses
  have hhas : c.startBuses.overview.hasFlow = c.settings.flow.enabled := c.hasFlow_startBuses hflow
  rw [hstart]
  simpa only [hsettings, hhas] using c.startBuses.overview_startPanel

theorem start_of_not_off (hphase : c.phase ≠ .off) : c.start = c := by
  unfold start
  split
  · rename_i hoff
    exact absurd hoff hphase
  · rfl

end Start

section Sample

variable {c : Controller} {t : Tasks}

theorem count_take (level : Nat → Bool) (s : Sampler) : (s.take level).2.count = s.count + 1 := by
  unfold Sampler.take
  cases s.knob <;> rfl

theorem sampling_of_running (hphase : c.phase = .running t) (hstarted : t.sampler.started = true) :
    c.sampling = some (.publish (t.sampler.take c.levels).1.1 (t.sampler.take c.levels).1.2 ::
      if (t.sampler.take c.levels).2.isFlowDue && c.executor.flow.isSome then [.updateFlow] else []) := by
  unfold sampling
  rw [hphase]
  exact if_pos hstarted

theorem runSampler_of_running (hphase : c.phase = .running t) (hstarted : t.sampler.started = true) :
    c.runSampler =
      (c.sampled.perform (.publish (t.sampler.take c.levels).1.1 (t.sampler.take c.levels).1.2)).updateFlow
        (t.sampler.take c.levels).2 := by
  simp only [runSampler, sampled, perform, whileRunning, hphase, hstarted, if_true]

theorem updateFlow_eq_foldl (s : Sampler) (c : Controller) :
    c.updateFlow s =
      (if s.isFlowDue && c.executor.flow.isSome then [SamplerAct.updateFlow] else []).foldl perform c := by
  unfold updateFlow
  cases s.isFlowDue with
  | false => rfl
  | true =>
    cases hflow : c.executor.flow with
    | none =>
      rw [if_pos rfl, Executor.updateFlow_of_none hflow]
      rfl
    | some _ => rfl

theorem executor_publish (hphase : c.phase = .running t) (buttons : ButtonMask) (steps : Int) :
    (c.sampled.perform (.publish buttons steps)).executor = c.executor := by
  simp only [sampled, perform, whileRunning, hphase]

/-- What the sampler does is all that its run does besides taking the sample. -/
theorem exists_sampling (hphase : c.phase = .running t) (hstarted : t.sampler.started = true) :
    ∃ acts, c.sampling = some acts ∧ c.runSampler = acts.foldl perform c.sampled := by
  refine ⟨_, sampling_of_running hphase hstarted, ?_⟩
  rw [runSampler_of_running hphase hstarted, updateFlow_eq_foldl, executor_publish hphase]
  rfl

/-- A sample that is published goes into the shared input, and nowhere else. -/
theorem perform_publish (hphase : c.phase = .running t) (buttons : ButtonMask) (steps : Int) :
    let published := c.perform (.publish buttons steps)
    published.input = c.input.map (InputAccumulator.publish buttons steps) ∧
      published.executor = c.executor := by
  simp only [perform, whileRunning, input, tasks, hphase]
  exact ⟨rfl, trivial⟩

/-- An update runs on the sensor and its bus; that it fails is said on the console. -/
theorem perform_updateFlow {f : FlowSensor} (hflow : c.executor.flow = some f) :
    let sensor := (f, c.executor.sensors)
    let updated := c.perform .updateFlow
    updated.executor.flow = some (FlowSensor.update.after sensor).1 ∧
      updated.executor.sensors = (FlowSensor.update.after sensor).2 ∧
      updated.executor.console =
        (match FlowSensor.update.outcome sensor with
          | .ok _ => []
          | .error failed => [LogEntry.error failed.message]) ++ c.executor.console ∧
      updated.input = c.input := by
  intro sensor updated
  simp only [updated, perform, Executor.updateFlow, Executor.onFlow, hflow]
  cases FlowSensor.update.outcome sensor with
  | ok _ => exact ⟨rfl, rfl, rfl, rfl⟩
  | error _ => exact ⟨rfl, rfl, rfl, rfl⟩

theorem input_of_phase {d : Controller} (h : d.phase = c.phase) : d.input = c.input := by
  unfold input tasks
  rw [h]

theorem sampled_of_running (hphase : c.phase = .running t) :
    c.sampled.phase = .running { t with sampler := (t.sampler.take c.levels).2 } ∧
      c.sampled.input = c.input := by
  simp only [sampled, whileRunning, input, tasks, hphase]
  exact ⟨trivial, rfl⟩

theorem input_runSampler (hphase : c.phase = .running t) (hstarted : t.sampler.started = true) :
    c.runSampler.input = c.input.map
      (InputAccumulator.publish (t.sampler.take c.levels).1.1 (t.sampler.take c.levels).1.2) := by
  obtain ⟨hsampled, hinput⟩ := sampled_of_running hphase
  rw [runSampler_of_running hphase hstarted, input_of_phase (phase_updateFlow _ _),
    (perform_publish hsampled _ _).1, hinput]

theorem Supplied.step (h : c.Supplied) (a : ControllerStep) : (c.step a).Supplied := by
  cases a with
  | start => exact h.start
  | beat => exact h.beat
  | sample => exact h.runSampler
  | panel => exact h.runPanel
  | execute => exact h.runExecutor
  | level number high => exact supplied_of_eq rfl h
  | serial change => exact h.onSerial change
  | sensors change => exact supplied_of_eq rfl h

theorem overview_updateFlow (s : Sampler) (c : Controller) : (c.updateFlow s).overview = c.overview := by
  unfold updateFlow
  split
  · simp only [overview, Executor.updateFlow, Executor.hasFlow_onFlow]
  · rfl

theorem overview_runSampler (hphase : c.phase = .running t) :
    c.runSampler.overview =
      { c.overview with
        phase := .running
          (if t.sampler.started then (t.sampler.take c.levels).2 else { t.sampler with started := true }) } := by
  cases hstarted : t.sampler.started with
  | true =>
    rw [runSampler_of_running hphase hstarted, overview_updateFlow]
    simp only [overview, sampled, perform, whileRunning, hphase, if_true]
    rfl
  | false =>
    simp only [runSampler, whileRunning, hphase, hstarted, Bool.false_eq_true, if_false]
    rfl

theorem runSampler_of_not_running (hphase : ∀ t, c.phase ≠ .running t) : c.runSampler = c := by
  unfold runSampler whileRunning
  split
  · rename_i t hrunning
    exact absurd hrunning (hphase t)
  · rfl

end Sample

end Controller

/-- The count of the sampler is a multiple of ten once it has taken this many samples. -/
def IsDue (samples : Nat) : Prop := samples % 2 ^ 32 % 10 = 0

instance : DecidablePred IsDue := fun n => inferInstanceAs (Decidable (n % 2 ^ 32 % 10 = 0))

theorem isFlowDue_iff {s : Sampler} {n : Nat} (h : s.count = UInt32.ofNat n) :
    s.isFlowDue = true ↔ IsDue n := by
  unfold Sampler.isFlowDue IsDue
  rw [beq_iff_eq, h, ← UInt32.toNat_inj, UInt32.toNat_mod, UInt32.toNat_ofNat']
  rfl

/-- What the sampler does for the sample with this number, where the first one is number one. -/
def IsSample (hasFlow : Bool) (number : Nat) (acts : List SamplerAct) : Prop :=
  ∃ buttons steps, acts = .publish buttons steps ::
    if IsDue number ∧ hasFlow = true then [.updateFlow] else []

/-- What can be seen of a controller with these settings when it has taken so many samples. -/
def Overview.Fits (s : Settings) (samples : Nat) (o : Overview) : Prop :=
  o.settings = s ∧
    match o.phase with
    | .off => o.hasFlow = false ∧ samples = 0
    | .parked => True
    | .running sampler => o.hasFlow = s.flow.enabled ∧ sampler.count = UInt32.ofNat samples

namespace Controller

section Fits

variable {c : Controller} {t : Tasks} {acts : List SamplerAct} {s : Settings} {n : Nat}

theorem fits_of_running (hphase : c.phase = .running t) :
    c.overview.Fits s n ↔
      c.settings = s ∧ c.executor.flow.isSome = s.flow.enabled ∧ t.sampler.count = UInt32.ofNat n := by
  simp only [Overview.Fits, overview, hphase]

theorem fits_start (h : c.overview.Fits s n) : c.start.overview.Fits s n := by
  by_cases hphase : c.phase = .off
  · simp only [Overview.Fits, overview, hphase, Option.isSome_eq_false_iff,
      Option.isNone_iff_eq_none] at h
    obtain ⟨rfl, hflow, rfl⟩ := h
    obtain hparked | ⟨sampler, hcount, hrunning⟩ := c.overview_start hphase hflow
    · rw [hparked]
      exact ⟨rfl, trivial⟩
    · rw [hrunning]
      exact ⟨rfl, rfl, hcount⟩
  · rwa [start_of_not_off c hphase]

theorem count_next (h : t.sampler.count = UInt32.ofNat n) :
    (t.sampler.take c.levels).2.count = UInt32.ofNat (n + 1) := by
  rw [count_take, h, UInt32.ofNat_add]
  rfl

/-- Without a sample the sampler at most announces itself. -/
theorem fits_of_no_sample (hsampling : c.sampling = none) (h : c.overview.Fits s n) :
    c.runSampler.overview.Fits s n := by
  cases hphase : c.phase with
  | running t =>
    cases hstarted : t.sampler.started with
    | true => simp only [sampling_of_running hphase hstarted, reduceCtorEq] at hsampling
    | false =>
      rw [overview_runSampler hphase, hstarted]
      rwa [fits_of_running hphase] at h
  | _ => rwa [runSampler_of_not_running fun t => hphase ▸ nofun]

theorem fits_of_sample (hsampling : c.sampling = some acts) (h : c.overview.Fits s n) :
    c.runSampler.overview.Fits s (n + 1) ∧ IsSample s.flow.enabled (n + 1) acts := by
  cases hphase : c.phase with
  | running t =>
    cases hstarted : t.sampler.started with
    | true =>
      rw [fits_of_running hphase] at h
      obtain ⟨hsettings, hflow, hcount⟩ := h
      rw [sampling_of_running hphase hstarted, Option.some_inj] at hsampling
      constructor
      · rw [overview_runSampler hphase, hstarted]
        exact ⟨hsettings, hflow, count_next hcount⟩
      · refine ⟨(t.sampler.take c.levels).1.1, (t.sampler.take c.levels).1.2, ?_⟩
        rw [← hsampling]
        simp only [Bool.and_eq_true, isFlowDue_iff (count_next hcount), hflow]
    | false =>
      simp only [sampling, hphase, hstarted, Bool.false_eq_true, if_false, reduceCtorEq] at hsampling
  | _ => simp only [sampling, hphase, reduceCtorEq] at hsampling

end Fits

end Controller

namespace SamplerHistory

/-- The history is one that a controller with these settings can have. -/
structure IsSound (s : Settings) (h : SamplerHistory) : Prop where
  fits : h.controller.overview.Fits s h.samples.length
  isSample : ∀ i acts, h.samples[i]? = some acts → IsSample s.flow.enabled (i + 1) acts

section Sound

variable {s : Settings} {h : SamplerHistory}

theorem IsSound.sample (hs : h.IsSound s) : (h.step .sample).IsSound s := by
  cases hsampling : h.controller.sampling with
  | none =>
    have hsamples : (h.step .sample).samples = h.samples := by
      simp only [step, hsampling, Option.toList_none, List.append_nil]
    exact ⟨hsamples ▸ Controller.fits_of_no_sample hsampling hs.fits, hsamples ▸ hs.isSample⟩
  | some acts =>
    obtain ⟨hfits, hacts⟩ := Controller.fits_of_sample hsampling hs.fits
    have hsamples : (h.step .sample).samples = h.samples ++ [acts] := by
      simp only [step, hsampling, Option.toList_some]
    refine ⟨?_, fun i acts' hi => ?_⟩
    · rw [hsamples, List.length_append]
      exact hfits
    · rw [hsamples] at hi
      obtain hlt | rfl | hgt := Nat.lt_trichotomy i h.samples.length
      · rw [List.getElem?_append_left hlt] at hi
        exact hs.isSample i acts' hi
      · rw [List.getElem?_concat_length, Option.some_inj] at hi
        exact hi ▸ hacts
      · rw [List.getElem?_eq_none (by rw [List.length_append, List.length_singleton]; omega)] at hi
        cases hi

theorem IsSound.step (hs : h.IsSound s) (a : ControllerStep) : (h.step a).IsSound s := by
  by_cases hsample : a = .sample
  · exact hsample ▸ hs.sample
  · have hsamples : (h.step a).samples = h.samples := by
      cases a with
      | sample => exact absurd rfl hsample
      | _ => rfl
    refine ⟨?_, hsamples ▸ hs.isSample⟩
    rw [hsamples]
    by_cases hstart : a = .start
    · rw [hstart]
      exact Controller.fits_start hs.fits
    · rw [show (h.step a).controller.overview = _ from h.controller.overview_step hstart hsample]
      exact hs.fits

theorem IsSound.run (hs : h.IsSound s) (steps : List ControllerStep) : (h.run steps).IsSound s := by
  induction steps generalizing h with
  | nil => exact hs
  | cons a rest ih => exact ih (hs.step a)

end Sound

theorem supplied_run {h : SamplerHistory} (hs : h.controller.Supplied) (steps : List ControllerStep) :
    (h.run steps).controller.Supplied := by
  induction steps generalizing h with
  | nil => exact hs
  | cons a rest ih => exact ih (h := h.step a) (hs.step a)

end SamplerHistory

section Distance

theorem isDue_mul_add {q r : Nat} (hr : r < 2 ^ 32) : IsDue (2 ^ 32 * q + r) ↔ r % 10 = 0 := by
  rw [IsDue, Nat.mul_add_mod, Nat.mod_eq_of_lt hr]

/-- The count wraps around to zero, and zero is a multiple of ten. -/
theorem isDue_wrap (q : Nat) : IsDue (2 ^ 32 * q) := (isDue_mul_add (r := 0) (by decide)).mpr rfl

theorem exists_mul_add (n : Nat) : ∃ q r, r < 2 ^ 32 ∧ n = 2 ^ 32 * q + r :=
  ⟨n / 2 ^ 32, n % 2 ^ 32, Nat.mod_lt _ (by decide), (Nat.div_add_mod _ _).symm⟩

theorem exists_isDue (n : Nat) : ∃ m, n ≤ m ∧ m < n + 10 ∧ IsDue m := by
  obtain ⟨q, r, hr, rfl⟩ := exists_mul_add n
  -- Either the next multiple of ten is reached, or the count wraps around before.
  by_cases hwrap : (r + 9) / 10 * 10 < 2 ^ 32
  · refine ⟨2 ^ 32 * q + (r + 9) / 10 * 10, by omega, by omega, ?_⟩
    exact (isDue_mul_add hwrap).mpr (Nat.mul_mod_left _ _)
  · exact ⟨2 ^ 32 * (q + 1), by omega, by omega, isDue_wrap _⟩

theorem next_isDue {i j : Nat} (hi : IsDue i) (hj : IsDue j) (hij : i < j)
    (hbetween : ∀ k, i < k → k < j → ¬ IsDue k) :
    j = i + if i / 2 ^ 32 = j / 2 ^ 32 then 10 else 6 := by
  obtain ⟨q, r, hr, rfl⟩ := exists_mul_add i
  rw [isDue_mul_add hr] at hi
  -- The next reading is no later than ten samples on, and no later than where the count wraps around.
  have hten : r + 10 < 2 ^ 32 → j ≤ 2 ^ 32 * q + (r + 10) := fun hr' =>
    Nat.le_of_not_lt fun hlt =>
      hbetween _ (by omega) hlt ((isDue_mul_add hr').mpr (by omega))
  have hwrap : j ≤ 2 ^ 32 * (q + 1) := Nat.le_of_not_lt fun hlt =>
    hbetween _ (by omega) hlt (isDue_wrap _)
  obtain ⟨q', r', hr', rfl⟩ := exists_mul_add j
  rw [isDue_mul_add hr'] at hj
  rw [Nat.mul_add_div (by decide), Nat.mul_add_div (by decide), Nat.div_eq_of_lt hr, Nat.div_eq_of_lt hr']
  split
  · rename_i hq
    obtain rfl : q = q' := hq
    omega
  · rename_i hq
    have hq : q ≠ q' := hq
    obtain rfl : q' = q + 1 := by omega
    omega

/-- Readings before and behind the place where the count wraps around. -/
example : (List.range 30).filter (fun k => IsDue (4294967280 + k)) = [0, 10, 16, 26] := rfl

end Distance

section Readings

variable {acts : List SamplerAct} {samples : List (List SamplerAct)}

theorem countP_isPublish_of_isSample {hasFlow : Bool} {n : Nat} (h : IsSample hasFlow n acts) :
    acts.countP SamplerAct.isPublish = 1 := by
  obtain ⟨buttons, steps, rfl⟩ := h
  split <;> rfl

theorem updateFlow_mem_of_isSample {n : Nat} (h : IsSample true n acts) :
    .updateFlow ∈ acts ↔ IsDue n := by
  obtain ⟨buttons, steps, rfl⟩ := h
  simp only [List.mem_cons, reduceCtorEq, false_or, List.mem_ite_nil_right, true_or, and_true]

/-- The flow sensor is read after the sample at this place. -/
def Reads (samples : List (List SamplerAct)) (i : Nat) : Prop :=
  ∃ acts, samples[i]? = some acts ∧ .updateFlow ∈ acts

theorem reads_iff (h : ∀ i acts, samples[i]? = some acts → IsSample true (i + 1) acts) (i : Nat) :
    Reads samples i ↔ i < samples.length ∧ IsDue (i + 1) := by
  constructor
  · rintro ⟨acts, hi, hmem⟩
    exact ⟨(List.getElem?_eq_some_iff.mp hi).1, (updateFlow_mem_of_isSample (h i acts hi)).mp hmem⟩
  · rintro ⟨hlt, hdue⟩
    have hi := List.getElem?_eq_getElem hlt
    exact ⟨_, hi, (updateFlow_mem_of_isSample (h i _ hi)).mpr hdue⟩

theorem exists_reads (h : ∀ i acts, samples[i]? = some acts → IsSample true (i + 1) acts) {i : Nat}
    (hi : i + 10 ≤ samples.length) : ∃ j, i ≤ j ∧ j < i + 10 ∧ Reads samples j := by
  obtain ⟨m, hle, hlt, hdue⟩ := exists_isDue (i + 1)
  obtain ⟨j, rfl⟩ : ∃ j, m = j + 1 := ⟨m - 1, by omega⟩
  exact ⟨j, by omega, by omega, (reads_iff h j).mpr ⟨by omega, hdue⟩⟩

theorem next_reads (h : ∀ i acts, samples[i]? = some acts → IsSample true (i + 1) acts) {i j : Nat}
    (hij : i < j) (hi : Reads samples i) (hj : Reads samples j)
    (hbetween : ∀ k, i < k → k < j → ¬ Reads samples k) :
    j = i + if (i + 1) / 2 ^ 32 = (j + 1) / 2 ^ 32 then 10 else 6 := by
  simp only [reads_iff h] at hi hj hbetween
  have hnext := next_isDue hi.2 hj.2 (by omega) fun k hik hkj hdue => by
    obtain ⟨k, rfl⟩ : ∃ l, k = l + 1 := ⟨k - 1, by omega⟩
    exact hbetween k (by omega) (by omega) ⟨by omega, hdue⟩
  omega

end Readings

namespace SamplerHistory

theorem isSound_nil (s : Settings) (levels : Nat → Bool) (serial : SerialBus) (sensors : RegisterBank) :
    IsSound s ⟨{ settings := s, levels, serial, executor := { sensors } }, []⟩ :=
  ⟨⟨rfl, rfl, rfl⟩, nofun⟩

/-- As long as the tasks run, each run of the sampler is a sample. Each sample is published once, into the
input that the panel reads; a reading, which is an update of the sensor, follows at least one of any ten
samples, and from one reading to the next there are ten samples, or six where the count wraps around. -/
theorem cadence_of_run (s : Settings) (levels : Nat → Bool) (serial : SerialBus) (sensors : RegisterBank)
    (steps : List ControllerStep) :
    (∀ (c : Controller) (t : Tasks), c.phase = .running t → t.sampler.started = true →
      ∃ acts, c.sampling = some acts ∧ c.runSampler = acts.foldl Controller.perform c.sampled) ∧
    (∀ (c : Controller) (t : Tasks), c.phase = .running t → ∀ buttons turn,
      let published := c.perform (.publish buttons turn)
      published.input = c.input.map (InputAccumulator.publish buttons turn) ∧
        published.executor = c.executor) ∧
    (∀ (c : Controller) (f : FlowSensor), c.executor.flow = some f →
      let sensor := (f, c.executor.sensors)
      let updated := c.perform .updateFlow
      updated.executor.flow = some (FlowSensor.update.after sensor).1 ∧
        updated.executor.sensors = (FlowSensor.update.after sensor).2 ∧
        updated.executor.console =
          (match FlowSensor.update.outcome sensor with
            | .ok _ => []
            | .error failed => [LogEntry.error failed.message]) ++ c.executor.console ∧
        updated.input = c.input) ∧
    (∀ before after, steps = before ++ .sample :: after →
      let c := (run ⟨{ settings := s, levels, serial, executor := { sensors } }, []⟩ before).controller
      ∀ t, c.phase = .running t → t.sampler.started = true →
        let ((buttons, turn), _) := t.sampler.take c.levels
        ∃ a, c.input = some a ∧ (c.step .sample).input = some (a.publish buttons turn)) ∧
    let samples := (run ⟨{ settings := s, levels, serial, executor := { sensors } }, []⟩ steps).samples
    (∀ acts ∈ samples, acts.countP SamplerAct.isPublish = 1) ∧
    (s.flow.enabled = true →
      (∀ i, i + 10 ≤ samples.length → ∃ j, i ≤ j ∧ j < i + 10 ∧ Reads samples j) ∧
      ∀ i j, i < j → Reads samples i → Reads samples j → (∀ k, i < k → k < j → ¬ Reads samples k) →
        j = i + if (i + 1) / 2 ^ 32 = (j + 1) / 2 ^ 32 then 10 else 6) := by
  have hsound := (isSound_nil s levels serial sensors).run steps
  refine ⟨fun c t => Controller.exists_sampling, fun c t => Controller.perform_publish,
    fun c f => Controller.perform_updateFlow, ?_, fun acts hacts => ?_, fun henabled => ?_⟩
  · intro before _ _ c t hphase hstarted
    have hoff (t : Tasks) : ControllerPhase.off ≠ .running t := nofun
    have hsupplied : c.Supplied := supplied_run (fun t ht => absurd ht (hoff t)) before
    obtain ⟨a, ha⟩ := Option.isSome_iff_exists.mp (hsupplied.isSome_input hphase)
    refine ⟨a, ha, (Controller.input_runSampler hphase hstarted).trans ?_⟩
    rw [ha]
    rfl
  · obtain ⟨i, hi⟩ := List.mem_iff_getElem?.mp hacts
    exact countP_isPublish_of_isSample (hsound.isSample i acts hi)
  · have hsample := hsound.isSample
    rw [henabled] at hsample
    exact ⟨fun i hi => exists_reads hsample hi, fun i j => next_reads hsample⟩

end SamplerHistory

end FrontPanel
