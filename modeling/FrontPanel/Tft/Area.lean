import FrontPanel.Tft.Basic

/-!
# Areas of the display

An area is painted by programming a window in the memory of the controller and streaming pixels into it.
Numbers of two bytes are sent high byte first.
-/

namespace FrontPanel

set_option autoImplicit false

namespace Tft

def twoBytes (n : Nat) : List UInt8 := [UInt8.ofNat (n / 256), UInt8.ofNat n]

/-- Programs the window of the given place and size, which is not empty. Where it would leave the address
range it ends at the last address. -/
def sendWindow (x y width height : Nat) : Action TftError Tft Unit := do
  let t ← get
  let left := Number.plus x t.offsetX
  let top := Number.plus y t.offsetY
  send Command.columns (twoBytes left ++ twoBytes (Number.plus left (width - 1)))
  send Command.rows (twoBytes top ++ twoBytes (Number.plus top (height - 1)))
  send Command.memoryWrite []

def setWindow (x y width height : Nat) : Action TftError Tft Unit :=
  if width = 0 ∨ height = 0 then pure () else transaction (sendWindow x y width height)

def chunkPixels : Nat := 32

def pixelBytes (color : Color) (count : Nat) : List UInt8 :=
  (List.replicate count (twoBytes color.toNat)).flatten

def sendRepeated (bytes : List UInt8) : Nat → Action TftError Tft Unit
  | 0 => pure ()
  | n + 1 => do
    onBus (SerialBus.write bytes)
    sendRepeated bytes n

def sendPixels (color : Color) (count : Nat) : Action TftError Tft Unit := do
  sendRepeated (pixelBytes color chunkPixels) (count / chunkPixels)
  if count % chunkPixels ≠ 0 then
    onBus (SerialBus.write (pixelBytes color (count % chunkPixels)))

/-- Fills the part of a rectangle that is on the screen. -/
def fillRect (x y width height : Nat) (color : Color) : Action TftError Tft Unit := do
  let t ← get
  if t.initialized = false then throw .notInitialized
  else if t.width ≤ x ∨ t.height ≤ y ∨ width = 0 ∨ height = 0 then pure ()
  else
    let width := min width (t.width - x)
    let height := min height (t.height - y)
    transaction do
      sendWindow x y width height
      sendPixels color (width * height)

end Tft

end FrontPanel
