/-!
# Writing a text piece by piece

A text may be written piece by piece into a place of bounded size. The first piece that does not fit ends the
writing; what was written before it stays.
-/

namespace FrontPanel.Text

set_option autoImplicit false

/-- Writes pieces behind `written`, up to `room` bytes in all: what stands there at the end, and whether it is
everything. -/
def writeWithin (room : Nat) (written : String) : List String → String × Bool
  | [] => (written, true)
  | piece :: rest =>
    if (written ++ piece).utf8ByteSize ≤ room then writeWithin room (written ++ piece) rest
    else (written, false)

end FrontPanel.Text
