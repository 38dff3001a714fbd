/-!
# Hexadecimal bytes

A byte is written as two lower-case digits, the high half first.
-/

namespace FrontPanel.Text

set_option autoImplicit false

def hexByte (byte : UInt8) : List Char :=
  [Nat.digitChar (byte.toNat / 16), Nat.digitChar (byte.toNat % 16)]

def hexBytes (bytes : List UInt8) : String := String.ofList (bytes.flatMap hexByte)

end FrontPanel.Text
