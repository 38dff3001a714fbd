import FrontPanel.Page.Context
import FrontPanel.Tft.Display

/-!
# Every step of the knob arrives

The sampler publishes steps at its own rate, the panel reads them at another. On their way they wait in a
sum of sixteen bits, are taken out one signed byte at a time, and are divided into detents, with a carry
that has the sign of the turn. As long as the steps that wait fit into their sum, each of them is in a
reported detent, in the carry, in the hands of the panel, or still waits.
-/

namespace FrontPanel

set_option autoImplicit false

/-- How far the panel is with a reading. -/
inductive PanelReading where
  | idle
  | looked (buttons : ButtonMask)
  | took (buttons : ButtonMask) (steps : Int)
  deriving DecidableEq

/-- The steps that were taken out and not yet taken in. -/
def PanelReading.inHand : PanelReading → Int
  | .took _ steps => steps
  | _ => 0

/-- The panel reads the buttons, takes steps out, and takes both in. The sampler may publish between any
two of these. -/
inductive InputStep where
  | publish (buttons : ButtonMask) (steps : Int)
  | read

structure InputHistory where
  shared : InputAccumulator := {}
  tracker : DetentTracker
  reading : PanelReading := .idle
  /-- The sum of all published steps. -/
  published : Int := 0
  /-- The sum of all steps that were taken out. -/
  taken : Int := 0
  /-- The sum of all reported detents. -/
  reported : Int := 0
  deriving DecidableEq

namespace InputHistory

def ofResolution (resolution : Nat) : InputHistory := { tracker := .ofResolution resolution }

def step (h : InputHistory) : InputStep → InputHistory
  | .publish buttons steps =>
    { h with shared := h.shared.publish buttons steps, published := h.published + steps }
  | .read =>
    match h.reading with
    | .idle => { h with reading := .looked h.shared.buttons }
    | .looked buttons =>
      { h with
        shared := h.shared.take.2
        taken := h.taken + h.shared.take.1
        reading := .took buttons h.shared.take.1 }
    | .took buttons steps =>
      { h with
        tracker := (h.tracker.update buttons steps).2
        reported := h.reported + (h.tracker.update buttons steps).1.detents
        reading := .idle }

def run (h : InputHistory) (steps : List InputStep) : InputHistory := steps.foldl step h

/-- The steps that nobody took out. -/
def backlog (h : InputHistory) : Int := h.published - h.taken

end InputHistory

def Number.IsByte (x : Int) : Prop := -128 ≤ x ∧ x ≤ 127

def Number.IsWord (x : Int) : Prop := -32768 ≤ x ∧ x ≤ 32767

instance : DecidablePred Number.IsByte := fun x => by unfold Number.IsByte; infer_instance

instance : DecidablePred Number.IsWord := fun x => by unfold Number.IsWord; infer_instance

namespace InputHistory

open Number

/-- The backlog is in range now and after every step. -/
def KeepsUp (h : InputHistory) : List InputStep → Prop
  | [] => IsWord h.backlog
  | s :: rest => IsWord h.backlog ∧ KeepsUp (h.step s) rest

instance decidableKeepsUp : ∀ (h : InputHistory) (steps : List InputStep), Decidable (h.KeepsUp steps)
  | h, [] => inferInstanceAs (Decidable (IsWord h.backlog))
  | h, s :: rest =>
    have := decidableKeepsUp (h.step s) rest
    inferInstanceAs (Decidable (IsWord h.backlog ∧ (h.step s).KeepsUp rest))

/-- No operation of a step leaves the range of its numbers, so that none is cut off at a bound. -/
def Exact (h : InputHistory) : InputStep → Prop
  | .publish _ steps => IsWord (h.shared.pending + steps)
  | .read =>
    match h.reading with
    | .idle => True
    | .looked _ => IsByte h.shared.take.1 ∧ IsWord (h.shared.pending - h.shared.take.1)
    | .took buttons steps =>
      let detents := (h.tracker.update buttons steps).1.detents
      IsWord (h.tracker.carry + steps) ∧ IsWord (detents * h.tracker.resolution) ∧
        IsWord (h.tracker.carry + steps - detents * h.tracker.resolution)

/-- Where the steps are. -/
structure Balanced (r : Nat) (h : InputHistory) : Prop where
  resolution : h.tracker.resolution = r
  waiting : h.shared.pending = h.backlog
  taken : h.taken = r * h.reported + h.tracker.carry + h.reading.inHand
  short : h.tracker.carry.natAbs < r
  hand : IsByte h.reading.inHand

end InputHistory

namespace Number

theorem zero_isByte : IsByte 0 := by decide

theorem clamp8_isByte (x : Int) : IsByte (clamp8 x) := clamp_mem (by decide) x

theorem clamp16_of_isWord {x : Int} (h : IsWord x) : clamp16 x = x := clamp_of_mem h

theorem sub_clamp8_isWord {x : Int} (h : IsWord x) : IsWord (x - clamp8 x) := by
  unfold IsWord clamp8 clamp at *
  omega

end Number

namespace DetentTracker

open Number

variable {t : DetentTracker} {buttons : ButtonMask} {steps : Int}

theorem update_of_isWord (buttons : ButtonMask) (h : IsWord (t.carry + steps)) :
    (t.update buttons steps).1.detents = (t.carry + steps).tdiv t.resolution ∧
      (t.update buttons steps).2.carry = (t.carry + steps).tmod t.resolution := by
  have hmod := Int.tmod_add_tdiv_mul (t.carry + steps) t.resolution
  simp only [update, clamp16_of_isWord h, true_and]
  omega

theorem natAbs_tmod_lt (sum : Int) {r : Nat} (hr : 0 < r) : (sum.tmod r).natAbs < r := by
  have hlower := Int.lt_tmod_of_pos sum (Int.natCast_pos.mpr hr)
  have hupper := Int.tmod_lt_of_pos sum (Int.natCast_pos.mpr hr)
  omega

theorem carry_add_isWord {r : Nat} (hr : r ≤ 255) (hcarry : t.carry.natAbs < r)
    (hsteps : IsByte steps) : IsWord (t.carry + steps) := by
  unfold IsByte IsWord at *
  omega

end DetentTracker

namespace InputHistory

open Number

variable {r : Nat} {h : InputHistory}

theorem ofResolution_balanced (resolution : Nat) :
    (ofResolution resolution).Balanced (max 1 resolution) := by
  constructor
  all_goals
    simp only [ofResolution, DetentTracker.ofResolution, PanelReading.inHand, backlog, IsByte]
    omega

theorem publish_balanced (hb : h.Balanced r) (buttons : ButtonMask) {steps : Int}
    (hfits : IsWord (h.step (.publish buttons steps)).backlog) :
    (h.step (.publish buttons steps)).Balanced r ∧ h.Exact (.publish buttons steps) := by
  have hsum : (h.step (.publish buttons steps)).backlog = h.shared.pending + steps := by
    have hwaiting := hb.waiting
    simp only [step, backlog] at hwaiting ⊢
    omega
  have hexact : IsWord (h.shared.pending + steps) := hsum ▸ hfits
  refine ⟨⟨hb.resolution, ?_, hb.taken, hb.short, hb.hand⟩, hexact⟩
  rw [hsum]
  exact clamp16_of_isWord hexact

theorem look_balanced (hb : h.Balanced r) (hidle : h.reading = .idle) :
    (h.step .read).Balanced r ∧ h.Exact .read := by
  have htaken := hb.taken
  have hhand := hb.hand
  rw [hidle] at htaken hhand
  simp only [step, Exact, hidle, and_true]
  exact ⟨hb.resolution, hb.waiting, htaken, hb.short, hhand⟩

theorem take_balanced (hb : h.Balanced r) {buttons : ButtonMask}
    (hlooked : h.reading = .looked buttons) (hfits : IsWord h.backlog) :
    (h.step .read).Balanced r ∧ h.Exact .read := by
  have hwaiting := hb.waiting
  have htaken := hb.taken
  have hbyte : IsByte h.shared.take.1 := clamp8_isByte _
  have hrest : IsWord (h.shared.pending - h.shared.take.1) :=
    sub_clamp8_isWord (hwaiting ▸ hfits)
  rw [hlooked] at htaken
  simp only [step, Exact, hlooked]
  refine ⟨⟨hb.resolution, ?_, ?_, hb.short, hbyte⟩, hbyte, hrest⟩
  · simp only [backlog, InputAccumulator.take] at hwaiting ⊢
    omega
  · simp only [PanelReading.inHand] at htaken ⊢
    omega

theorem takeIn_balanced (hb : h.Balanced r) (hr : 0 < r ∧ r ≤ 255) {buttons : ButtonMask}
    {steps : Int} (htook : h.reading = .took buttons steps) :
    (h.step .read).Balanced r ∧ h.Exact .read := by
  have htaken := hb.taken
  have hbyte := hb.hand
  rw [htook] at htaken hbyte
  have hsum : IsWord (h.tracker.carry + steps) := DetentTracker.carry_add_isWord hr.2 hb.short hbyte
  obtain ⟨hdetents, hcarry⟩ := DetentTracker.update_of_isWord buttons hsum
  rw [hb.resolution] at hdetents hcarry
  have hmod := Int.tmod_add_tdiv_mul (h.tracker.carry + steps) r
  have hshort := DetentTracker.natAbs_tmod_lt (h.tracker.carry + steps) hr.1
  simp only [step, Exact, htook, hdetents, hb.resolution]
  refine ⟨⟨hb.resolution, hb.waiting, ?_, ?_, zero_isByte⟩, hsum, ?_, ?_⟩
  · simp only [PanelReading.inHand, hcarry] at htaken ⊢
    rw [Int.mul_add, Int.mul_comm r (Int.tdiv _ r)]
    omega
  · rw [hcarry]
    exact hshort
  · have hshorter := hb.short
    simp only [IsWord, IsByte, PanelReading.inHand] at *
    omega
  · simp only [IsWord] at *
    omega

/-- The step lemma: steps that fit stay in balance, and their arithmetic is exact. -/
theorem step_balanced (hb : h.Balanced r) (hr : 0 < r ∧ r ≤ 255) (s : InputStep)
    (hbefore : IsWord h.backlog) (hafter : IsWord (h.step s).backlog) :
    (h.step s).Balanced r ∧ h.Exact s := by
  cases s with
  | publish buttons steps => exact publish_balanced hb buttons hafter
  | read =>
    cases hreading : h.reading with
    | idle => exact look_balanced hb hreading
    | looked buttons => exact take_balanced hb hreading hbefore
    | took buttons steps => exact takeIn_balanced hb hr hreading

theorem KeepsUp.backlog {steps : List InputStep} (hkeeps : h.KeepsUp steps) : IsWord h.backlog := by
  cases steps with
  | nil => exact hkeeps
  | cons s rest => exact hkeeps.1

theorem KeepsUp.of_append {before after : List InputStep} (hkeeps : h.KeepsUp (before ++ after)) :
    h.KeepsUp before ∧ (h.run before).KeepsUp after := by
  induction before generalizing h with
  | nil => exact ⟨hkeeps.backlog, hkeeps⟩
  | cons s rest ih => exact ⟨⟨hkeeps.1, (ih hkeeps.2).1⟩, (ih hkeeps.2).2⟩

theorem run_balanced (hb : h.Balanced r) (hr : 0 < r ∧ r ≤ 255) {steps : List InputStep}
    (hkeeps : h.KeepsUp steps) : (h.run steps).Balanced r := by
  induction steps generalizing h with
  | nil => exact hb
  | cons s rest ih =>
    exact ih (step_balanced hb hr s hkeeps.1 hkeeps.2.backlog).1 hkeeps.2

/-- On the serial display, a poll of the panel is a reading that nothing comes in between of. -/
theorem run_read_eq_poll {β : Type} {p : Panel Tft β} (hidle : h.reading = .idle)
    (hshared : p.lcd.input = some h.shared) (htracker : p.tracker = h.tracker) :
    let g := h.run [.read, .read, .read]
    p.poll.lcd.input = some g.shared ∧ p.poll.tracker = g.tracker ∧
      g.reported = h.reported + p.poll.events.detents := by
  obtain ⟨shared, tracker, reading, published, taken, reported⟩ := h
  subst hidle
  simp only [run, step, List.foldl_cons, List.foldl_nil, Panel.poll, Display.readButtons,
    Display.readSteps, Tft.readButtons, Tft.readSteps, hshared, htracker]
  trivial

/-- However the sampler and the panel take turns, as long as the steps that wait fit into sixteen bits:
all published steps are in the reported detents, in the carry, in the hands of the panel, or wait; the
carry is shorter than a detent; and no operation on the way is cut off at a bound. -/
theorem steps_conserved (resolution : UInt8) (steps : List InputStep)
    (hkeeps : (ofResolution resolution.toNat).KeepsUp steps) :
    let r := max 1 resolution.toNat
    let start := ofResolution resolution.toNat
    let h := start.run steps
    h.published = r * h.reported + h.tracker.carry + h.reading.inHand + h.shared.pending ∧
      (h.reading = .idle → h.published = r * h.reported + h.tracker.carry + h.shared.pending) ∧
      h.tracker.carry.natAbs < r ∧
      (∀ before s after, steps = before ++ s :: after → (start.run before).Exact s) ∧
      ∀ (β : Type) (p : Panel Tft β),
        h.reading = .idle → p.lcd.input = some h.shared → p.tracker = h.tracker →
          let g := h.run [.read, .read, .read]
          p.poll.lcd.input = some g.shared ∧ p.poll.tracker = g.tracker ∧
            g.reported = h.reported + p.poll.events.detents := by
  intro r start h
  have hr : 0 < r ∧ r ≤ 255 := by
    have hbyte := resolution.toNat_lt
    omega
  have hstart : start.Balanced r := ofResolution_balanced _
  have hb : h.Balanced r := run_balanced hstart hr hkeeps
  have hsum : h.published = r * h.reported + h.tracker.carry + h.reading.inHand +
      h.shared.pending := by
    have hwaiting := hb.waiting
    have htaken := hb.taken
    unfold backlog at hwaiting
    omega
  refine ⟨hsum, ?_, hb.short, ?_, fun β p hidle => run_read_eq_poll hidle⟩
  · intro hidle
    simpa [hidle, PanelReading.inHand] using hsum
  · rintro before s after rfl
    obtain ⟨hbefore, hnext⟩ := hkeeps.of_append
    have hnow := run_balanced hstart hr hbefore
    exact (step_balanced hnow hr s hnext.1 hnext.2.backlog).2

/-- Two hundred steps forward, more than one reading takes, and turns back while they are read. -/
def backlogAndReversal : List InputStep :=
  [.publish 0 100, .publish 1 100, .read, .read, .publish 0 (-120), .read, .read, .publish 0 (-3),
    .read, .read, .publish 0 5]

theorem backlogAndReversal_keepsUp : (ofResolution 4).KeepsUp backlogAndReversal := by decide

theorem backlogAndReversal_conserved :
    (ofResolution 4).KeepsUp backlogAndReversal ∧
      let h := (ofResolution 4).run backlogAndReversal
      h.published = 82 ∧ h.reported = 20 ∧
        h.published = 4 * h.reported + h.tracker.carry + h.shared.pending :=
  ⟨backlogAndReversal_keepsUp, by decide, by decide,
    (steps_conserved 4 backlogAndReversal backlogAndReversal_keepsUp).2.1 (by decide)⟩

end InputHistory

end FrontPanel
