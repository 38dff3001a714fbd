import FrontPanel.Settings.Reader

/-!
# The keys of a configuration text

Each key belongs to one section, has a kind of values, and stands for one field of the settings. An
assignment is read by this table alone, and what is read reaches the field of its key and no other.
-/

namespace FrontPanel.Settings

set_option autoImplicit false

inductive ValueKind where
  | natural (greatest : Nat)
  /-- From one to `greatest`. -/
  | count (greatest : Nat)
  | pin
  | label
  | boolean
  | length

namespace ValueKind

def Value : ValueKind → Type
  | natural _ => Nat
  | count _ => Nat
  | pin => Option Pin
  | label => String
  | boolean => Bool
  | length => Number.Binary32

def read : (kind : ValueKind) → List Char → Except SettingsError kind.Value
  | natural greatest => readNatural greatest
  | count greatest => readCount greatest
  | pin => Pin.read
  | label => readLabel
  | boolean => readBoolean
  | length => readLength

end ValueKind

inductive Key where
  | spiChannel
  | spiFrequency
  | selectPin
  | resetPin
  | dataPin
  | rotation
  | columnStart
  | rowStart
  | width
  | height
  | knobPinA
  | knobPinB
  | clickPin
  | backPin
  | knobResolution
  | refreshRate
  | machineName
  | make
  | model
  | flowEnabled
  | gearDiameter
  | flowForward
  deriving DecidableEq

namespace Key

def all : List Key :=
  [spiChannel, spiFrequency, selectPin, resetPin, dataPin, rotation, columnStart, rowStart, width,
    height, knobPinA, knobPinB, clickPin, backPin, knobResolution, refreshRate, machineName, make,
    model, flowEnabled, gearDiameter, flowForward]

structure Entry where
  heading : Heading
  name : String
  kind : ValueKind

def entry : Key → Entry
  | spiChannel => ⟨.panel, "spi_channel", .natural 1⟩
  | spiFrequency => ⟨.panel, "spi_frequency", .natural maxLong⟩
  | selectPin => ⟨.panel, "cs_pin", .pin⟩
  | resetPin => ⟨.panel, "rst_pin", .pin⟩
  | dataPin => ⟨.panel, "dc_pin", .pin⟩
  | rotation => ⟨.panel, "rotation", .natural 3⟩
  | columnStart => ⟨.panel, "col_start", .natural maxWord⟩
  | rowStart => ⟨.panel, "row_start", .natural maxWord⟩
  | width => ⟨.panel, "width", .natural maxWord⟩
  | height => ⟨.panel, "height", .natural maxWord⟩
  | knobPinA => ⟨.panel, "encoder_a_pin", .pin⟩
  | knobPinB => ⟨.panel, "encoder_b_pin", .pin⟩
  | clickPin => ⟨.panel, "click_pin", .pin⟩
  | backPin => ⟨.panel, "back_pin", .pin⟩
  | knobResolution => ⟨.panel, "encoder_resolution", .count maxByte⟩
  | refreshRate => ⟨.panel, "refresh_hz", .count maxByte⟩
  | machineName => ⟨.about, "machine_name", .label⟩
  | make => ⟨.about, "make", .label⟩
  | model => ⟨.about, "model", .label⟩
  | flowEnabled => ⟨.flowSensor, "enable", .boolean⟩
  | gearDiameter => ⟨.flowSensor, "gear_diameter", .length⟩
  | flowForward => ⟨.flowSensor, "direction", .boolean⟩

def heading (k : Key) : Heading := k.entry.heading

def name (k : Key) : String := k.entry.name

abbrev Value (k : Key) : Type := k.entry.kind.Value

def read (k : Key) (value : List Char) : Except SettingsError k.Value := k.entry.kind.read value

/-- The field that the key stands for. -/
def get : (k : Key) → Settings → k.Value
  | spiChannel, s => s.panel.spiChannel
  | spiFrequency, s => s.panel.spiFrequency
  | selectPin, s => s.panel.selectPin
  | resetPin, s => s.panel.resetPin
  | dataPin, s => s.panel.dataPin
  | rotation, s => s.panel.rotation
  | columnStart, s => s.panel.columnStart
  | rowStart, s => s.panel.rowStart
  | width, s => s.panel.width
  | height, s => s.panel.height
  | knobPinA, s => s.panel.knobPinA
  | knobPinB, s => s.panel.knobPinB
  | clickPin, s => s.panel.clickPin
  | backPin, s => s.panel.backPin
  | knobResolution, s => s.panel.knobResolution
  | refreshRate, s => s.panel.refreshRate
  | machineName, s => s.identity.machineName
  | make, s => s.identity.make
  | model, s => s.identity.model
  | flowEnabled, s => s.flow.enabled
  | gearDiameter, s => s.flow.gearDiameter
  | flowForward, s => s.flow.forward

def setting : (k : Key) → k.Value → Setting
  | spiChannel => .spiChannel
  | spiFrequency => .spiFrequency
  | selectPin => .selectPin
  | resetPin => .resetPin
  | dataPin => .dataPin
  | rotation => .rotation
  | columnStart => .columnStart
  | rowStart => .rowStart
  | width => .width
  | height => .height
  | knobPinA => .knobPinA
  | knobPinB => .knobPinB
  | clickPin => .clickPin
  | backPin => .backPin
  | knobResolution => .knobResolution
  | refreshRate => .refreshRate
  | machineName => .machineName
  | make => .make
  | model => .model
  | flowEnabled => .flowEnabled
  | gearDiameter => .gearDiameter
  | flowForward => .flowForward

/-- What is set is the field of the key. -/
theorem get_set_self (k : Key) (s : Settings) (v : k.Value) : k.get (s.set (k.setting v)) = v := by
  cases k <;> rfl

/-- All other fields stay. -/
theorem get_set_of_ne {k k' : Key} (h : k ≠ k') (s : Settings) (v : k'.Value) :
    k.get (s.set (k'.setting v)) = k.get s := by
  cases k' <;> cases k <;> first | rfl | exact absurd rfl h

theorem mem_all (k : Key) : k ∈ all := by
  cases k <;> decide

/-- Two keys differ in their section or in their name. -/
theorem eq_of_name {k k' : Key} (hheading : k.heading = k'.heading) (hname : k.name = k'.name) :
    k = k' := by
  have hall : ∀ a ∈ all, ∀ b ∈ all, a.heading = b.heading → a.name = b.name → a = b := by decide
  exact hall k (mem_all k) k' (mem_all k') hheading hname

end Key

/-- The key has this name in this section; before the first header there are no keys. -/
structure Key.Named (k : Key) (section? : Option Heading) (name : List Char) : Prop where
  heading : section? = some k.heading
  name : name = k.name.toList

theorem readSetting_named {k : Key} {section? : Option Heading} {name : List Char}
    (h : k.Named section? name) (value : List Char) :
    readSetting section? name value = (k.read value).map k.setting := by
  obtain ⟨rfl, rfl⟩ := h
  cases k <;> rfl

theorem readSetting_unknown {section? : Option Heading} {name : List Char}
    (h : ∀ k : Key, ¬ k.Named section? name) (value : List Char) :
    readSetting section? name value = .error .unknownKey := by
  cases section? with
  | none => rfl
  | some heading =>
    have hnames : ∀ k ∈ Key.all, k.heading = heading → k.name ≠ String.ofList name := by
      rintro k _ rfl hname
      exact h k ⟨rfl, by rw [hname, String.toList_ofList]⟩
    cases heading with
    | panel =>
      change readPanelSetting (String.ofList name) value = _
      generalize String.ofList name = key at hnames ⊢
      unfold readPanelSetting
      split
      case h_17 => rfl
      all_goals exact absurd hnames (by decide)
    | about =>
      change readAboutSetting (String.ofList name) value = _
      generalize String.ofList name = key at hnames ⊢
      unfold readAboutSetting
      split
      case h_4 => rfl
      all_goals exact absurd hnames (by decide)
    | flowSensor =>
      change readFlowSetting (String.ofList name) value = _
      generalize String.ofList name = key at hnames ⊢
      unfold readFlowSetting
      split
      case h_4 => rfl
      all_goals exact absurd hnames (by decide)

end FrontPanel.Settings
