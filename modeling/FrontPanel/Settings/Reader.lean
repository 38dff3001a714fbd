import FrontPanel.Settings.PinNotation
import FrontPanel.Text.Blank
import FrontPanel.Text.Lines

/-!
# Reading a configuration text

A configuration text is a list of lines. A line is a section header, an assignment to a key of the
section that was opened last, or empty. Everything behind a `#` outside quotes is a comment, and blanks
at either end of a line, a key or a value do not count. Settings that no line assigns keep the value they
start with, a later assignment replaces an earlier one, and the first line that is not understood
refuses the whole text.
-/

namespace FrontPanel.Settings

set_option autoImplicit false

open Number (Binary)

inductive Heading where
  | panel
  | about
  | flowSensor
  deriving DecidableEq

def Heading.ofName (name : List Char) : Except SettingsError Heading :=
  match String.ofList name with
  | "panel" => .ok .panel
  | "about" => .ok .about
  | "flow_sensor" => .ok .flowSensor
  | _ => .error .unknownSection

def readNatural (greatest : Nat) (value : List Char) : Except SettingsError Nat :=
  match Text.natural? greatest value with
  | some n => .ok n
  | none => .error .invalidValue

/-- A numeral from one to `greatest`. -/
def readCount (greatest : Nat) (value : List Char) : Except SettingsError Nat :=
  match Text.natural? greatest value with
  | some (n + 1) => .ok (n + 1)
  | _ => .error .invalidValue

def readBoolean (value : List Char) : Except SettingsError Bool :=
  match String.ofList value with
  | "true" => .ok true
  | "false" => .ok false
  | _ => .error .invalidValue

def readLabel (value : List Char) : Except SettingsError String :=
  let label := String.ofList (Text.unquote value)
  if label.utf8ByteSize ≤ maxLabelLength then .ok label else .error .invalidValue

def readLength (value : List Char) : Except SettingsError Number.Binary32 :=
  match Binary.read? value with
  | some x => if x.isPositive then .ok x else .error .invalidValue
  | none => .error .invalidValue

def maxByte : Nat := 255

def maxWord : Nat := 65535

def maxLong : Nat := 4294967295

def readPanelSetting (key : String) (value : List Char) : Except SettingsError Setting :=
  match key with
  | "spi_channel" => (readNatural 1 value).map .spiChannel
  | "spi_frequency" => (readNatural maxLong value).map .spiFrequency
  | "cs_pin" => (Pin.read value).map .selectPin
  | "rst_pin" => (Pin.read value).map .resetPin
  | "dc_pin" => (Pin.read value).map .dataPin
  | "rotation" => (readNatural 3 value).map .rotation
  | "col_start" => (readNatural maxWord value).map .columnStart
  | "row_start" => (readNatural maxWord value).map .rowStart
  | "width" => (readNatural maxWord value).map .width
  | "height" => (readNatural maxWord value).map .height
  | "encoder_a_pin" => (Pin.read value).map .knobPinA
  | "encoder_b_pin" => (Pin.read value).map .knobPinB
  | "click_pin" => (Pin.read value).map .clickPin
  | "back_pin" => (Pin.read value).map .backPin
  | "encoder_resolution" => (readCount maxByte value).map .knobResolution
  | "refresh_hz" => (readCount maxByte value).map .refreshRate
  | _ => .error .unknownKey

def readAboutSetting (key : String) (value : List Char) : Except SettingsError Setting :=
  match key with
  | "machine_name" => (readLabel value).map .machineName
  | "make" => (readLabel value).map .make
  | "model" => (readLabel value).map .model
  | _ => .error .unknownKey

def readFlowSetting (key : String) (value : List Char) : Except SettingsError Setting :=
  match key with
  | "enable" => (readBoolean value).map .flowEnabled
  | "gear_diameter" => (readLength value).map .gearDiameter
  | "direction" => (readBoolean value).map .flowForward
  | _ => .error .unknownKey

/-- An assignment; before the first header no key is known. -/
def readSetting (heading : Option Heading) (key value : List Char) : Except SettingsError Setting :=
  match heading with
  | none => .error .unknownKey
  | some .panel => readPanelSetting (String.ofList key) value
  | some .about => readAboutSetting (String.ofList key) value
  | some .flowSensor => readFlowSetting (String.ofList key) value

/-- A line without its comment. The flag says whether a quote is open where the text starts. -/
def uncommented (quoted : Bool) : List Char → List Char
  | [] => []
  | c :: rest =>
    if c = '"' then c :: uncommented (!quoted) rest
    else if c = '#' ∧ quoted = false then []
    else c :: uncommented quoted rest

inductive Statement where
  | nothing
  | header (name : List Char)
  | assignment (key value : List Char)
  deriving DecidableEq

def splitAssignment : List Char → Option (List Char × List Char)
  | [] => none
  | c :: rest =>
    if c = '=' then some ([], rest)
    else (splitAssignment rest).map fun (key, value) => (c :: key, value)

/-- Reads one line by its form alone. -/
def Statement.ofLine (line : List Char) : Except SettingsError Statement :=
  let text := Text.trim (uncommented false line)
  if text.isEmpty then .ok .nothing
  else if text.head? = some '[' ∧ text.getLast? = some ']' then
    .ok (.header (Text.trim text.tail.dropLast))
  else
    match splitAssignment text with
    | some (key, value) => .ok (.assignment (Text.trim key) (Text.trim value))
    | none => .error .malformedLine

structure Reading where
  heading : Option Heading := none
  settings : Settings := {}
  deriving DecidableEq

def Reading.follow (r : Reading) : Statement → Except SettingsError Reading
  | .nothing => .ok r
  | .header name => (Heading.ofName name).map fun h => { r with heading := some h }
  | .assignment key value =>
    (readSetting r.heading key value).map fun x => { r with settings := r.settings.set x }

def Reading.next (r : Reading) (line : List Char) : Except SettingsError Reading :=
  Statement.ofLine line >>= r.follow

def read (text : String) : Except SettingsError Settings :=
  ((Text.lines text.toList).foldlM Reading.next {}).map Reading.settings

end FrontPanel.Settings
