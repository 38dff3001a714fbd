import FrontPanel.Display.Recorder

/-!
# Display traces

The written form of the calls that a recording display received.
-/

namespace FrontPanel

set_option autoImplicit false

def DrawMode.name : DrawMode → String
  | .erase => "Erase"
  | .draw => "Draw"
  | .invert => "Invert"

namespace DisplayCall

def words (name : String) (numbers : List Nat) : String :=
  String.intercalate " " (name :: numbers.map toString)

def text : DisplayCall → String
  | .start => "init"
  | .clear => "clear"
  | .home => "home"
  | .cursor column row => words "cur" [column, row]
  | .write text => "write " ++ text
  | .cursorAt x y => words "px" [x, y]
  | .pixel x y m => words "pixel" [x, y] ++ " " ++ m.name
  | .horizontal x y length m => words "hline" [x, y, length] ++ " " ++ m.name
  | .vertical x y length m => words "vline" [x, y, length] ++ " " ++ m.name
  | .box x y width height m => words "box" [x, y, width, height] ++ " " ++ m.name
  | .mode m => "mode " ++ m.name

end DisplayCall

end FrontPanel
