import FrontPanel.Controller.Executor
import FrontPanel.Proofs.Sensor.Latch
import FrontPanel.Proofs.Sensor.Position
import FrontPanel.Proofs.Text.Size

/-!
# The status report fits

The report of the flow sensor is written into a place of bounded size. Whatever bytes the bus gives, the sensor
keeps angles of twelve bits, and so four digits for each of them. Then a report takes at most 107 bytes, as
long as the count of turns is one of 32 bits, and comes out whole.
-/

namespace FrontPanel

set_option autoImplicit false

open FrontPanel.Action

namespace FlowSensor

open AngleSensor

theorem Looked.shown_lt {exchanges : List Exchange} {raw : Nat} (h : Looked exchanges (.shown raw)) :
    raw < countsPerTurn := by
  cases h with
  | shown => exact angleOf_lt _

/-- Origin and latest angle are within a turn. -/
structure InTurn (f : FlowSensor) : Prop where
  origin : f.origin < countsPerTurn
  lastAngle : f.lastAngle < countsPerTurn

theorem InTurn.advance {f : FlowSensor} (h : f.InTurn) (raw : Nat) : (f.advance raw).InTurn :=
  ⟨h.origin, Nat.mod_lt _ (by decide)⟩

theorem InTurn.does {f after : FlowSensor} {c : FlowCall} {exchanges : List Exchange}
    {result : Except FlowError Unit} (hdoes : FlowCall.Does f c exchanges result after) (h : f.InTurn) :
    after.InTurn := by
  have hzero : 0 < countsPerTurn := by decide
  induction hdoes with
  | notSetUp => exact ⟨h.origin, h.lastAngle⟩
  | setUp _ ih => exact ih
  | resetUnreadable | resetMissing => exact ⟨h.origin, hzero⟩
  | resetShown hlooked => exact ⟨hlooked.shown_lt, hzero⟩
  | updateLatched | updateUnreadable | reported => exact h
  | updateMissing => exact ⟨h.origin, h.lastAngle⟩
  | updateShown => exact h.advance _

variable {β : Type} [RegisterBus β]

/-- The sensor after a row of calls. The bus may be any other one at each of them. -/
def afterCalls (f : FlowSensor) (calls : List (FlowCall × β)) : FlowSensor :=
  calls.foldl (fun f c => (c.1.run.after (f, c.2)).1) f

theorem InTurn.afterCalls {f : FlowSensor} (h : f.InTurn) (calls : List (FlowCall × β)) :
    (f.afterCalls calls).InTurn := by
  induction calls generalizing f with
  | nil => exact h
  | cons c rest ih => exact ih (h.does (FlowEvent.of_does f c.1 c.2))

end FlowSensor

namespace FlowReport

open AngleSensor

/-- The angles are within a turn, and the turns are a number of 32 bits. -/
structure Bounded (r : FlowReport) : Prop where
  angle : ∀ angle, r.angle = some angle → angle < countsPerTurn
  origin : r.origin < countsPerTurn
  turns : r.turns.natAbs ≤ 2 ^ 31
  lastAngle : r.lastAngle < countsPerTurn

theorem utf8ByteSize_angle {angle : Nat} (h : angle < countsPerTurn) :
    (toString angle).utf8ByteSize ≤ 4 :=
  Text.utf8ByteSize_toString_le (by decide) (h.trans (by decide))

theorem utf8ByteSize_label (m : Magnet) : m.label.utf8ByteSize ≤ 7 := by
  cases m <;> decide

theorem utf8ByteSize_seen {r : FlowReport} (h : r.Bounded) :
    (String.join r.seenPieces).utf8ByteSize ≤ 53 := by
  unfold seenPieces
  split
  · rename_i magnet angle _ hangle
    have hlabel := utf8ByteSize_label magnet
    have hdigits := utf8ByteSize_angle (h.angle angle hangle)
    have hfixed : "Flow Sensor - Comm: Ok, Magnet: ".utf8ByteSize = 32 ∧
        ", Angle: ".utf8ByteSize = 9 ∧ "\n".utf8ByteSize = 1 := by decide
    rw [Text.utf8ByteSize_join]
    simp only [List.map_cons, List.map_nil, List.sum_cons, List.sum_nil]
    omega
  · decide

theorem utf8ByteSize_counted {r : FlowReport} (h : r.Bounded) :
    (String.join r.countedPieces).utf8ByteSize ≤ 54 := by
  have horigin := utf8ByteSize_angle h.origin
  have hlast := utf8ByteSize_angle h.lastAngle
  have hsign : (if r.turns < 0 then "-" else "").utf8ByteSize ≤ 1 := by
    split <;> decide
  have hturns : (toString r.turns.natAbs).utf8ByteSize ≤ 10 :=
    Text.utf8ByteSize_toString_le (by decide) (h.turns.trans_lt (by decide))
  have hfixed : "Origin: ".utf8ByteSize = 8 ∧ ", Rotations: ".utf8ByteSize = 13 ∧
      ", Last Angle: ".utf8ByteSize = 14 := by decide
  rw [Text.utf8ByteSize_join]
  simp only [countedPieces, List.map_cons, List.map_nil, List.sum_cons, List.sum_nil]
  omega

theorem utf8ByteSize_text {r : FlowReport} (h : r.Bounded) : r.text.utf8ByteSize ≤ 107 := by
  have hseen := utf8ByteSize_seen h
  have hcounted := utf8ByteSize_counted h
  rw [text, pieces, String.join_append, String.utf8ByteSize_append]
  omega

/-- Four digits for each angle, the longest label, and a count of turns as low as it can be. -/
example : (FlowReport.mk (some .missing) (some 4095) 1000 (-2147483648) 3000).text.utf8ByteSize = 107 := by
  decide

end FlowReport

namespace FlowSensor

open AngleSensor

variable {β : Type} [RegisterBus β]

theorem readAngle_of_report {f : FlowSensor} {bus : β} {angle : Nat}
    (h : (report (f, bus)).1.angle = some angle) :
    (readAngle : Action BusFault β Nat).outcome bus = .ok angle := by
  obtain ⟨⟨magnet, shown⟩, hboth, rfl⟩ := Option.map_eq_some_iff.mp h
  split at hboth
  · rename_i hread
    cases hboth
    exact hread
  · cases hboth

theorem report_bounded {f : FlowSensor} (h : f.InTurn) (hturns : f.turns.natAbs ≤ 2 ^ 31) (bus : β) :
    (report (f, bus)).1.Bounded where
  angle _ hangle := readAngle_lt (eq_ok_of_outcome (readAngle_of_report hangle))
  origin := h.origin
  turns := hturns
  lastAngle := h.lastAngle

end FlowSensor

namespace Executor

theorem reportEntries_of_fits {r : FlowReport} (h : r.text.utf8ByteSize ≤ maxReportLength) :
    reportEntries r = (Command.linesOf r.text).map .info := by
  have hwhole : Text.writeWithin maxReportLength "" r.pieces = (r.text, true) := by
    have hwritten : "" ++ String.join r.pieces = r.text := String.empty_append
    rw [Text.writeWithin_of_fits (hwritten ▸ h), hwritten]
  rw [reportEntries, hwhole]
  rfl

theorem console_of_status {line : String} (hline : String.ofList (Text.firstWord line.toList) = "M407")
    {e : Executor} {f : FlowSensor} (hflow : e.flow = some f) :
    (e.execute line).console =
      (reportEntries (FlowSensor.report (f, e.sensors)).1).reverse ++
        .info ("> " ++ line) :: e.console := by
  unfold execute
  rw [hline]
  simp only [flowCommand, say, hflow, sayReport, sayAll_eq]

end Executor

namespace FlowSensor

variable {β : Type} [RegisterBus β]

/-- Whichever calls were made, whatever the bus gave or failed to give at them, and whatever number of 32 bits
the count of turns is: a report fits into its place of 128 bytes, in whatever pieces it is written. So a status
request is answered by all the lines of the report, and nothing else. -/
theorem report_never_cut (s : FlowSettings) (calls : List (FlowCall × β)) (turns : Int32) (bus : β) :
    let f := { (ofSettings s).afterCalls calls with turns := turns.toInt }
    let r := (report (f, bus)).1
    r.text.utf8ByteSize ≤ 107 ∧
      (∀ pieces, String.join pieces = r.text → Text.writeWithin 128 "" pieces = (r.text, true)) ∧
      Executor.reportEntries r = (Command.linesOf r.text).map .info ∧
      ∀ (e : Executor) (line : String), String.ofList (Text.firstWord line.toList) = "M407" →
        let answer := (report (f, e.sensors)).1.text
        ({ e with flow := some f }.execute line).console =
          ((Command.linesOf answer).map LogEntry.info).reverse ++ .info ("> " ++ line) :: e.console := by
  intro f r
  have hzero : 0 < AngleSensor.countsPerTurn := by decide
  have hstart : (ofSettings s).InTurn := ⟨hzero, hzero⟩
  have hrun := hstart.afterCalls calls
  have hturn : f.InTurn := ⟨hrun.origin, hrun.lastAngle⟩
  have hturns : f.turns.natAbs ≤ 2 ^ 31 := by
    have hlow := turns.le_toInt
    have hhigh := turns.toInt_lt
    change turns.toInt.natAbs ≤ 2 ^ 31
    omega
  have hsize : r.text.utf8ByteSize ≤ 107 := FlowReport.utf8ByteSize_text (report_bounded hturn hturns bus)
  refine ⟨hsize, fun pieces hpieces => ?_, ?_, fun e line hline => ?_⟩
  · have hwritten : "" ++ String.join pieces = r.text := by rw [String.empty_append, hpieces]
    rw [← hwritten]
    apply Text.writeWithin_of_fits
    rw [hwritten]
    omega
  · exact Executor.reportEntries_of_fits (hsize.trans (by decide))
  · have hanswer := FlowReport.utf8ByteSize_text (report_bounded hturn hturns e.sensors)
    rw [Executor.console_of_status hline rfl, Executor.reportEntries_of_fits (hanswer.trans (by decide))]

end FlowSensor

end FrontPanel
