import FrontPanel.Tft.Basic

/-!
# Registers of the display controller
-/

namespace FrontPanel

set_option autoImplicit false

namespace Tft

structure Identification where
  all : List UInt8
  single : List UInt8
  deriving DecidableEq

def readIdentification : Action TftError Tft Identification := do
  let all ← query Command.readIdentification 8
  let single ← Command.readIdentifiers.mapM fun c => query c 1
  return ⟨all, single.flatten⟩

structure Status where
  all : List UInt8
  powerMode : Nat
  pixelFormat : Nat
  imageMode : Nat
  deriving DecidableEq

def readRegister (command : UInt8) : Action TftError Tft Nat := do
  let bytes ← query command 1
  return (bytes.headD 0).toNat

def readStatus : Action TftError Tft Status := do
  let all ← query Command.readStatus 10
  let powerMode ← readRegister Command.readPowerMode
  let pixelFormat ← readRegister Command.readPixelFormat
  let imageMode ← readRegister Command.readImageMode
  return { all, powerMode, pixelFormat, imageMode }

end Tft

end FrontPanel
