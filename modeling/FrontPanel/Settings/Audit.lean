import FrontPanel.Settings.Basic
import FrontPanel.Settings.Document
import FrontPanel.Text.Numeral
import FrontPanel.Text.Quotes

/-!
# Auditing a configuration document

Before a firmware image is made, the document that goes into it is audited: only known sections and keys,
values in range, and no line of the board used twice or taken from a fixed peripheral. The audit reports
every fault it finds; a document without findings is accepted.
-/

namespace FrontPanel.Settings.Audit

set_option autoImplicit false

inductive Finding where
  | rootNotTable
  | unknownSection (name : String)
  | sectionNotTable (name : String)
  | unknownKey (heading key : String)
  | channelOutOfRange
  | rotationOutOfRange
  | sizeOutOfRange (key : String)
  | resolutionOutOfRange
  | pinNotString (key : String)
  | pinTaken (key : String) (pin : Nat) (owner : String)
  | pinNotNamed (key text : String)
  | pinNotValid (key text : String)
  | diameterNotPositive
  | notBoolean (key : String)
  deriving DecidableEq

def Finding.message : Finding → String
  | .rootNotTable => "top level must be a table"
  | .unknownSection name => "unknown section [" ++ name ++ "]"
  | .sectionNotTable name => "[" ++ name ++ "] must be a table"
  | .unknownKey heading key => "[" ++ heading ++ "] unknown key '" ++ key ++ "'"
  | .channelOutOfRange => "[panel] spi_channel must be 0 or 1"
  | .rotationOutOfRange => "[panel] rotation must be 0-3"
  | .sizeOutOfRange key => "[panel] " ++ key ++ " must be 1-320"
  | .resolutionOutOfRange => "[panel] encoder_resolution must be 1-255"
  | .pinNotString key => "[panel] " ++ key ++ " must be a string"
  | .pinTaken key pin owner =>
    "[panel] " ++ key ++ " gpio" ++ toString pin ++ " already used by " ++ owner
  | .pinNotNamed key text => "[panel] " ++ key ++ ": '" ++ text ++ "' is not a gpio pin"
  | .pinNotValid key text => "[panel] " ++ key ++ ": '" ++ text ++ "' is not a valid RP2040 pin"
  | .diameterNotPositive => "[flow_sensor] gear_diameter must be a positive number"
  | .notBoolean key => "[flow_sensor] " ++ key ++ " must be true or false"

/-- The keys that name a pin, in the order in which they claim it. -/
def pinKeys : List String :=
  ["cs_pin", "rst_pin", "dc_pin", "encoder_a_pin", "encoder_b_pin", "click_pin", "back_pin"]

def catalogue : List (String × List String) :=
  [("panel",
      ["spi_channel", "spi_frequency", "cs_pin", "rst_pin", "dc_pin", "rotation", "col_start",
        "row_start", "width", "height", "encoder_a_pin", "encoder_b_pin", "click_pin", "back_pin",
        "encoder_resolution", "refresh_hz"]),
    ("about", ["machine_name", "make", "model"]),
    ("flow_sensor", ["enable", "gear_diameter", "direction"])]

def sectionFindings (name : String) (value : Document) : List Finding :=
  match catalogue.lookup name with
  | none => [.unknownSection name]
  | some keys =>
    match value.entries? with
    | none => [.sectionNotTable name]
    | some entries =>
      ((Document.inKeyOrder entries).filter fun (key, _) => !keys.contains key).map
        fun (key, _) => .unknownKey name key

def nameFindings (d : Document) : List Finding :=
  match d.entries? with
  | none => [.rootNotTable]
  | some entries =>
    (Document.inKeyOrder entries).flatMap fun (name, value) => sectionFindings name value

def isIntegerWithin (least greatest : Int) : Document → Bool
  | .integer n => least ≤ n && n ≤ greatest
  | _ => false

def isPositiveNumber : Document → Bool
  | .integer n => 0 < n
  | .float x => x.isPositive
  | _ => false

def isBoolean : Document → Bool
  | .boolean _ => true
  | _ => false

/-- The finding, if the section has the key and its value does not satisfy a condition. -/
def requiring (heading : Document) (key : String) (holds : Document → Bool) (finding : Finding) :
    List Finding :=
  match heading.get? key with
  | some value => if holds value then [] else [finding]
  | none => []

def rangeFindings (panel : Document) : List Finding :=
  requiring panel "spi_channel" (isIntegerWithin 0 1) .channelOutOfRange ++
  requiring panel "rotation" (isIntegerWithin 0 3) .rotationOutOfRange ++
  requiring panel "width" (isIntegerWithin 1 320) (.sizeOutOfRange "width") ++
  requiring panel "height" (isIntegerWithin 1 320) (.sizeOutOfRange "height") ++
  requiring panel "encoder_resolution" (isIntegerWithin 1 255) .resolutionOutOfRange

def flowFindings (flow : Document) : List Finding :=
  requiring flow "gear_diameter" isPositiveNumber .diameterNotPositive ++
  requiring flow "enable" isBoolean (.notBoolean "enable") ++
  requiring flow "direction" isBoolean (.notBoolean "direction")

/-- Who holds a line of the board, the most recent owner first. -/
abbrev Owners := List (Nat × String)

/-- The lines of the fixed peripherals: clock and data of both serial channels, and the sensor bus. -/
def reserved : Owners :=
  [(18, "SPI0"), (19, "SPI0"), (16, "SPI0"), (10, "SPI1"), (11, "SPI1"), (12, "SPI1"),
    (26, "flow sensor I2C"), (27, "flow sensor I2C")]

/-- The line that a pin text names, `none` if it is not connected. -/
def pinNumber (key text : String) : Except Finding (Option Nat) :=
  if Text.sameFolded text.toList ['n', 'c'] then .ok none
  else
    match text.toList.dropWhile fun c => c = '!' || c = '^' with
    | 'g' :: 'p' :: 'i' :: 'o' :: numeral =>
      match Text.natural? Pin.last numeral with
      | some pin => .ok (some pin)
      | none => .error (.pinNotValid key text)
    | _ => .error (.pinNotNamed key text)

/-- Faults in the pins of the given keys, claimed in turn. A later claim takes a line over. -/
def pinFindings (panel : Document) : Owners → List String → List Finding
  | _, [] => []
  | owners, key :: keys =>
    match panel.get? key with
    | none => pinFindings panel owners keys
    | some (.string text) =>
      match pinNumber key text with
      | .error finding => finding :: pinFindings panel owners keys
      | .ok none => pinFindings panel owners keys
      | .ok (some pin) =>
        let rest := pinFindings panel ((pin, key) :: owners) keys
        match owners.lookup pin with
        | some owner => .pinTaken key pin owner :: rest
        | none => rest
    | some _ => .pinNotString key :: pinFindings panel owners keys

def tableUnder (d : Document) (name : String) : Option Document :=
  (d.get? name).filter fun value => value.entries?.isSome

def panelFindings (d : Document) : List Finding :=
  match tableUnder d "panel" with
  | none => []
  | some panel => rangeFindings panel ++ pinFindings panel reserved pinKeys

def findings (d : Document) : List Finding :=
  nameFindings d ++ panelFindings d ++
    match tableUnder d "flow_sensor" with
    | none => []
    | some flow => flowFindings flow

end FrontPanel.Settings.Audit
