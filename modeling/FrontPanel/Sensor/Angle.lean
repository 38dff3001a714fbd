import FrontPanel.Bus.Registers

/-!
# The angle sensor

A magnetic sensor that reports the angle of a shaft in twelve bits, and how well it sees its magnet.
-/

namespace FrontPanel

set_option autoImplicit false

inductive Magnet where
  | good
  | missing
  | weak
  | strong
  deriving DecidableEq

namespace Magnet

/-- Decodes the status register. A magnet that is not seen is neither weak nor strong. -/
def ofStatus (status : UInt8) : Magnet :=
  if status.toNat.testBit 5 = false then .missing
  else if status.toNat.testBit 4 then .weak
  else if status.toNat.testBit 3 then .strong
  else .good

def label : Magnet → String
  | .good => "Good"
  | .missing => "Missing"
  | .weak => "Weak"
  | .strong => "Strong"

end Magnet

namespace AngleSensor

variable {β : Type} [RegisterBus β]

def address : Nat := 0x36

def configurationRegister : UInt8 := 0x07

def statusRegister : UInt8 := 0x0B

def angleRegister : UInt8 := 0x0C

def countsPerTurn : Nat := 4096

/-- The fast filter threshold one, with the slow filter at its slowest. -/
def filterSetting : UInt8 := 0x04

def setUp : Action BusFault β Unit :=
  RegisterBus.write address [configurationRegister, filterSetting]

/-- The value of two bytes, of which the upper four bits do not count. -/
def angleOf (bytes : List UInt8) : Nat :=
  (bytes.getD 0 0).toNat % 16 * 256 + (bytes.getD 1 0).toNat

def readAngle : Action BusFault β Nat := do
  return angleOf (← RegisterBus.writeRead address [angleRegister] 2)

def readMagnet : Action BusFault β Magnet := do
  return Magnet.ofStatus ((← RegisterBus.writeRead address [statusRegister] 1).getD 0 0)

end AngleSensor

end FrontPanel
