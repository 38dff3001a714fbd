import Mathlib.Data.List.Chain
import FrontPanel.Proofs.Sensor.Look

/-!
# Turns and angle give the position

The sensor shows where the shaft stands within a turn, and a turn is counted when the angle passes its
origin. If the shaft moves by less than a quarter of a turn from one reading to the next, turns and angle
together give its position, counted from the reset, whichever readings fail in between.
-/

namespace FrontPanel

set_option autoImplicit false

open FrontPanel.Action

namespace AngleSensor

variable {β : Type} [RegisterBus β]

theorem angleOf_lt (bytes : List UInt8) : angleOf bytes < countsPerTurn := by
  have hlow := (bytes.getD 1 0).toNat_lt
  unfold angleOf countsPerTurn
  omega

theorem readAngle_lt {bus after : β} {raw : Nat} (h : readAngle bus = .ok raw after) :
    raw < countsPerTurn := by
  unfold readAngle at h
  cases hread : (RegisterBus.writeRead address [angleRegister] 2 : Action BusFault β _) bus with
  | ok bytes t =>
    rw [bind_of_ok hread] at h
    cases h
    exact angleOf_lt bytes
  | error e t =>
    rw [bind_of_error hread] at h
    cases h

end AngleSensor

namespace FlowSensor

variable {β : Type} [RegisterBus β]

/-- Status and angle can be read, and the magnet is seen. -/
def Reads (bus : β) (raw : Nat) : Prop :=
  ∃ magnet between after, AngleSensor.readMagnet bus = .ok magnet between ∧ magnet ≠ .missing ∧
    AngleSensor.readAngle between = .ok raw after

/-- The status cannot be read, or the magnet is seen and the angle cannot be read. -/
inductive Unreadable (bus : β) : Prop
  | status {e : BusFault} {after : β} (hstatus : AngleSensor.readMagnet bus = .error e after)
  | angle {magnet : Magnet} {between after : β} {e : BusFault}
      (hstatus : AngleSensor.readMagnet bus = .ok magnet between) (hseen : magnet ≠ .missing)
      (hangle : AngleSensor.readAngle between = .error e after)

/-- A reading of the sensor, with the bus as it is then: the shaft stands at a position, counted without
end in both directions, or nothing can be read. -/
inductive Sample (β : Type) where
  | shown (bus : β) (position : Int)
  | failing (bus : β)

namespace Sample

def bus : Sample β → β
  | shown bus _ => bus
  | failing bus => bus

def position? : Sample β → Option Int
  | shown _ position => some position
  | failing _ => none

def Holds : Sample β → Prop
  | shown bus position => Reads bus (position % 4096).toNat
  | failing bus => Unreadable bus

end Sample

/-- The sensor after a row of updates. The bus may change in any way between them. -/
def sampled (f : FlowSensor) (samples : List (Sample β)) : FlowSensor :=
  samples.foldl (fun f s => (update.after (f, s.bus)).1) f

def positions (samples : List (Sample β)) : List Int := samples.filterMap Sample.position?

/-- Turns and angle are those of `position`, counted from `start`. -/
structure Tracks (start position : Int) (f : FlowSensor) : Prop where
  running : f.error = none
  origin : f.origin = (start % 4096).toNat
  travelled : f.turns * 4096 + f.lastAngle = position - start
  angle_lt : f.lastAngle < 4096

section Readings

variable {f : FlowSensor} {bus : β} {raw : Nat}

theorem reset_of_reads (h : Reads bus raw) :
    ∃ after, reset (f, bus) =
      .ok () ({ f with turns := 0, lastAngle := 0, error := none, origin := raw }, after) := by
  obtain ⟨magnet, between, after, hstatus, hseen, hangle⟩ := h
  refine ⟨after, ?_⟩
  rw [reset_eq, look_of_angle hstatus hseen hangle]
  rfl

theorem update_of_reads (h : Reads bus raw) (hrunning : f.error = none) :
    ∃ after, update (f, bus) = .ok () (f.advance raw, after) := by
  obtain ⟨magnet, between, after, hstatus, hseen, hangle⟩ := h
  refine ⟨after, ?_⟩
  rw [update_of_running hrunning, look_of_angle hstatus hseen hangle]

theorem update_of_unreadable (h : Unreadable bus) (hrunning : f.error = none) :
    ∃ after, update (f, bus) = .ok () (f, after) := by
  cases h with
  | @status _ after hstatus =>
    refine ⟨after, ?_⟩
    rw [update_of_running hrunning, look_of_status_error hstatus]
  | @angle _ _ after _ hstatus hseen hangle =>
    refine ⟨after, ?_⟩
    rw [update_of_running hrunning, look_of_angle_error hstatus hseen hangle]

end Readings

section Position

variable {start position next : Int} {f : FlowSensor}

theorem relative_eq (start next : Int) :
    (relative (start % 4096).toNat (next % 4096).toNat : Int) = (next - start) % 4096 := by
  unfold relative AngleSensor.countsPerTurn
  omega

/-- Over less than a quarter of a turn, the angle goes from the last quarter to the first exactly if the
shaft passes its origin forwards, and from the first to the last exactly if it passes it backwards. -/
theorem advance_tracks (h : f.Tracks start position) (hslow : (next - position).natAbs < 1024) :
    (f.advance (next % 4096).toNat).Tracks start next := by
  have hangle := relative_eq start next
  have htravelled := h.travelled
  have hlast := h.angle_lt
  have hfirstQuarter : firstQuarter = 1024 := rfl
  have hlastQuarter : lastQuarter = 3072 := rfl
  rw [← h.origin] at hangle
  refine ⟨h.running, h.origin, ?_, ?_⟩
  · simp only [advance]
    split
    · omega
    · split
      · omega
      · omega
  · simp only [advance]
    omega

theorem reset_tracks {bus : β} (h : Reads bus (start % 4096).toNat) :
    (reset.after (f, bus)).1.Tracks start start := by
  obtain ⟨after, hrun⟩ := reset_of_reads (f := f) h
  simp only [Action.after, hrun]
  exact ⟨rfl, rfl, by simp, Nat.zero_lt_succ 4095⟩

/-- The positions that a row of samples shows, none of them far from the one before. -/
def Slow (position : Int) (samples : List (Sample β)) : Prop :=
  (position :: positions samples).IsChain fun p q => (q - p).natAbs < 1024

def lastPosition (position : Int) (samples : List (Sample β)) : Int :=
  (position :: positions samples).getLast (List.cons_ne_nil _ _)

/-- The run lemma: readings that fail leave the sensor as it is, and all others take it along. -/
theorem sampled_tracks {samples : List (Sample β)} (h : f.Tracks start position)
    (hsamples : ∀ s ∈ samples, s.Holds) (hslow : Slow position samples) :
    (f.sampled samples).Tracks start (lastPosition position samples) := by
  induction samples generalizing f position with
  | nil => exact h
  | cons s rest ih =>
    have hs : s.Holds := hsamples s List.mem_cons_self
    have hrest : ∀ s ∈ rest, s.Holds := fun s hs => hsamples s (List.mem_cons_of_mem _ hs)
    cases s with
    | shown bus next =>
      obtain ⟨hnear, hslow⟩ := List.isChain_cons_cons.mp hslow
      obtain ⟨after, hrun⟩ := update_of_reads hs h.running
      have hnext : (update.after (f, bus)).1 = f.advance (next % 4096).toNat := by
        simp only [Action.after, hrun]
      have hrow := ih (advance_tracks h hnear) hrest hslow
      rw [← hnext] at hrow
      exact hrow
    | failing bus =>
      obtain ⟨after, hrun⟩ := update_of_unreadable hs h.running
      have hsame : (update.after (f, bus)).1 = f := by simp only [Action.after, hrun]
      have hrow := ih h hrest hslow
      rw [← hsame] at hrow
      exact hrow

end Position

/-- If the shaft moves by less than a quarter of a turn between any two readings, then after every reading
turns and angle give its position, counted from where the reset found it. The sum and the difference that
the next angle is computed from stay in sixteen bits, and the turns in any range that the turns of the
positions stay in. -/
theorem position_of_samples (f : FlowSensor) {bus : β} {start : Int} {samples : List (Sample β)}
    (hreset : Reads bus (start % 4096).toNat) (hsamples : ∀ s ∈ samples, s.Holds)
    (hslow : Slow start samples) :
    let g := (reset.after (f, bus)).1.sampled samples
    reset.outcome (f, bus) = .ok () ∧ g.error = none ∧
      g.turns * 4096 + g.lastAngle = lastPosition start samples - start ∧ g.lastAngle ≤ 4095 ∧
      (∀ (bus after : β) (raw : Nat), AngleSensor.readAngle bus = .ok raw after →
        raw + 4096 < 65536 ∧ g.origin ≤ raw + 4096) ∧
      ((∀ position ∈ start :: positions samples,
          -2147483648 ≤ (position - start) / 4096 ∧ (position - start) / 4096 < 2147483648) →
        -2147483648 ≤ g.turns ∧ g.turns < 2147483648) := by
  intro g
  have hg : g.Tracks start (lastPosition start samples) :=
    sampled_tracks (reset_tracks hreset) hsamples hslow
  have htravelled := hg.travelled
  have hangle := hg.angle_lt
  obtain ⟨after, hrun⟩ := reset_of_reads (f := f) hreset
  refine ⟨by simp only [Action.outcome, hrun], hg.running, htravelled, by omega, ?_, ?_⟩
  · intro bus after raw hread
    have hraw := AngleSensor.readAngle_lt hread
    have horigin := hg.origin
    unfold AngleSensor.countsPerTurn at hraw
    omega
  · intro hfits
    have hturns := hfits (lastPosition start samples) (List.getLast_mem _)
    omega

/-- A sensor that sees its magnet, with its shaft at a position. -/
def bankAt (position : Int) : RegisterBank where
  address := AngleSensor.address
  values register :=
    if register = AngleSensor.statusRegister then 0x20
    else if register = AngleSensor.angleRegister then .ofNat ((position % 4096).toNat / 256)
    else .ofNat ((position % 4096).toNat % 256)

def deadBank : RegisterBank := { address := AngleSensor.address, failing := true }

/-- Back over the place of the reset, forward again, a reading that fails, and the longest way that may
lie between two readings. -/
def backAndForth : List (Sample RegisterBank) :=
  [.shown (bankAt 3500) 3500, .shown (bankAt 4400) 4400, .failing deadBank, .shown (bankAt 5423) 5423]

theorem backAndForth_holds : ∀ s ∈ backAndForth, s.Holds := by
  simp only [backAndForth, List.forall_mem_cons]
  refine ⟨?_, ?_, .status rfl, ?_, by simp⟩
  all_goals exact ⟨.good, _, _, rfl, by decide, rfl⟩

theorem position_of_backAndForth :
    Reads (bankAt 4000) ((4000 : Int) % 4096).toNat ∧ (∀ s ∈ backAndForth, s.Holds) ∧
      Slow 4000 backAndForth ∧
      let g := (reset.after (ofSettings {}, bankAt 4000)).1.sampled backAndForth
      g.turns * 4096 + g.lastAngle = 1423 := by
  have hreset : Reads (bankAt 4000) ((4000 : Int) % 4096).toNat :=
    ⟨.good, _, _, rfl, by decide, rfl⟩
  have hslow : Slow 4000 backAndForth := by
    change [4000, 3500, 4400, 5423].IsChain fun p q : Int => (q - p).natAbs < 1024
    simp
  exact ⟨hreset, backAndForth_holds, hslow,
    (position_of_samples (ofSettings {}) hreset backAndForth_holds hslow).2.2.1⟩

end FlowSensor

end FrontPanel
