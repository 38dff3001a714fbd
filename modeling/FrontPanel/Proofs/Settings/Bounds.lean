import FrontPanel.Controller.Wiring
import FrontPanel.Proofs.Settings.LastAssignment
import FrontPanel.Proofs.Settings.Value

/-!
# Bounds of the settings

Each kind of values has bounds, which every reader of the kind keeps and every default satisfies. So the
settings that a text is read to lie within them, whatever the text assigns and however often.
-/

namespace FrontPanel

set_option autoImplicit false

namespace Number

theorem BinaryFormat.block_pos (f : BinaryFormat) : 0 < f.block := Nat.pow_pos (by decide)

theorem BinaryFormat.units_zero (f : BinaryFormat) : f.units 0 = 0 := if_pos f.block_pos

theorem BinaryFormat.units_pos (f : BinaryFormat) {code : Nat} (h : 0 < code) : 0 < f.units code := by
  unfold units
  split
  · exact h
  · have hfraction : 0 < f.block + code % f.block := Nat.add_pos_left f.block_pos _
    exact Nat.mul_pos hfraction (Nat.pow_pos (by decide))

/-- What is taken for positive is a number, and greater than zero. -/
theorem Binary.isPositive_iff_signedUnits {f : BinaryFormat} {x : Binary f} :
    x.isPositive = true ↔ x.isNaN = false ∧ 0 < x.signedUnits := by
  unfold isPositive signedUnits isZero
  simp only [Bool.and_eq_true, Bool.not_eq_true', decide_eq_false_iff_not, and_assoc]
  refine and_congr_right fun _ => ?_
  cases hnegative : x.negative with
  | true =>
    simp only [if_true, reduceCtorEq, false_and, false_iff]
    omega
  | false =>
    simp only [Bool.false_eq_true, if_false, true_and]
    by_cases hzero : x.code = 0
    · simp [hzero, f.units_zero]
    · have hpos := f.units_pos (Nat.pos_of_ne_zero hzero)
      simp only [hzero, not_false_eq_true, true_iff]
      omega

end Number

namespace Settings

/-- The bounds of a kind of values. -/
def ValueKind.Admits : (kind : ValueKind) → kind.Value → Prop
  | natural greatest => fun n : Nat => n ≤ greatest
  | count greatest => fun n : Nat => 1 ≤ n ∧ n ≤ greatest
  | pin => fun pin : Option Pin => ∀ line ∈ pin, line.number ≤ Pin.last
  | label => fun label : String => label.utf8ByteSize ≤ maxLabelLength
  | boolean => fun _ : Bool => True
  | length => fun x : Number.Binary32 => x.isNaN = false ∧ 0 < x.signedUnits

instance ValueKind.decidableAdmits : (kind : ValueKind) → (v : kind.Value) → Decidable (kind.Admits v)
  | natural greatest => fun n : Nat => inferInstanceAs (Decidable (n ≤ greatest))
  | count greatest => fun n : Nat => inferInstanceAs (Decidable (1 ≤ n ∧ n ≤ greatest))
  | pin => fun pin : Option Pin => inferInstanceAs (Decidable (∀ line ∈ pin, line.number ≤ Pin.last))
  | label => fun label : String => inferInstanceAs (Decidable (label.utf8ByteSize ≤ maxLabelLength))
  | boolean => fun _ : Bool => inferInstanceAs (Decidable True)
  | length => fun x : Number.Binary32 =>
    inferInstanceAs (Decidable (x.isNaN = false ∧ 0 < x.signedUnits))

/-- What is read is within the bounds of its kind. -/
theorem ValueKind.admits_of_read {kind : ValueKind} {text : List Char} {v : kind.Value}
    (h : kind.read text = .ok v) : kind.Admits v := by
  cases kind with
  | natural greatest => exact Text.natural?_le (readNatural_eq_ok.mp h)
  | count greatest =>
    obtain ⟨hleast, hn⟩ := readCount_eq_ok.mp h
    exact ⟨hleast, Text.natural?_le hn⟩
  | pin =>
    intro line hline
    cases hline
    exact number_le_of_read h
  | label =>
    change readLabel text = .ok v at h
    unfold readLabel at h
    simp only at h
    split at h
    · next hlength =>
      cases h
      exact hlength
    · cases h
  | boolean => trivial
  | length =>
    change readLength text = .ok v at h
    unfold readLength at h
    split at h
    · split at h
      · next hpositive =>
        cases h
        exact Number.Binary.isPositive_iff_signedUnits.mp hpositive
      · cases h
    · cases h

/-- Every default is within the bounds of its key. -/
theorem Key.admits_default (k : Key) : k.entry.kind.Admits (k.get {}) := by
  cases k <;> decide +kernel

theorem Key.admits_of_read {text : String} {s : Settings} (h : Settings.read text = .ok s) (k : Key) :
    k.entry.kind.Admits (k.get s) := by
  obtain ⟨r, hr, rfl⟩ := exists_reading_of_read h
  by_cases hgiven : ∃ value, k.LastGiven (Text.lines text.toList) value
  · obtain ⟨value, hlast⟩ := hgiven
    exact ValueKind.admits_of_read (hr.given k value hlast)
  · have hnone : ∀ i value, ¬ k.GivenAt (Text.lines text.toList) i value := fun _ _ hgives =>
      hgiven (Key.exists_lastGiven hgives)
    rw [hr.untouched k hnone]
    exact k.admits_default

/-- Settings that a panel can run with. -/
structure WithinBounds (s : Settings) : Prop where
  spiChannel : s.panel.spiChannel ≤ 1
  spiFrequency : s.panel.spiFrequency ≤ maxLong
  rotation : s.panel.rotation ≤ 3
  columnStart : s.panel.columnStart ≤ maxWord
  rowStart : s.panel.rowStart ≤ maxWord
  width : s.panel.width ≤ maxWord
  height : s.panel.height ≤ maxWord
  pins : ∀ (role : Role) (pin : Pin), role.pin s.panel = some pin → pin.number ≤ 29
  knobResolution : 1 ≤ s.panel.knobResolution ∧ s.panel.knobResolution ≤ maxByte
  refreshRate : 1 ≤ s.panel.refreshRate ∧ s.panel.refreshRate ≤ maxByte
  machineName : s.identity.machineName.utf8ByteSize ≤ 24
  make : s.identity.make.utf8ByteSize ≤ 24
  model : s.identity.model.utf8ByteSize ≤ 24
  gearDiameter : s.flow.gearDiameter.isNaN = false ∧ 0 < s.flow.gearDiameter.signedUnits

/-- Whatever a text assigns, in whatever order and however often: the settings that it is read to are within
their bounds. -/
theorem withinBounds_of_read {text : String} {s : Settings} (h : read text = .ok s) :
    s.WithinBounds where
  spiChannel := Key.admits_of_read h .spiChannel
  spiFrequency := Key.admits_of_read h .spiFrequency
  rotation := Key.admits_of_read h .rotation
  columnStart := Key.admits_of_read h .columnStart
  rowStart := Key.admits_of_read h .rowStart
  width := Key.admits_of_read h .width
  height := Key.admits_of_read h .height
  pins role := by
    cases role with
    | select => exact Key.admits_of_read h .selectPin
    | reset => exact Key.admits_of_read h .resetPin
    | data => exact Key.admits_of_read h .dataPin
    | knobA => exact Key.admits_of_read h .knobPinA
    | knobB => exact Key.admits_of_read h .knobPinB
    | click => exact Key.admits_of_read h .clickPin
    | back => exact Key.admits_of_read h .backPin
  knobResolution := Key.admits_of_read h .knobResolution
  refreshRate := Key.admits_of_read h .refreshRate
  machineName := Key.admits_of_read h .machineName
  make := Key.admits_of_read h .make
  model := Key.admits_of_read h .model
  gearDiameter := Key.admits_of_read h .gearDiameter

/-- Assignments up to the limits, one of them to a key that was assigned before. -/
def limitsText : String :=
  "[panel]\nrotation = 0\n[about]\nmake = abcdefghijklmnopqrstuvwx\n[panel]\nrotation = 3\nclick_pin=!gpio29"

def limits : Settings where
  panel := { rotation := 3, clickPin := some ⟨29, true, false⟩ }
  identity := { make := "abcdefghijklmnopqrstuvwx" }

theorem limits_withinBounds : read limitsText = .ok limits ∧ limits.WithinBounds := by
  have hread : read limitsText = .ok limits := by decide +kernel
  exact ⟨hread, withinBounds_of_read hread⟩

end Settings

end FrontPanel
