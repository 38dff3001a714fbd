import FrontPanel.Page.Context
import FrontPanel.Tft.Registers

/-!
# Reports on the console

How failures, transitions and register contents read on the console.
-/

namespace FrontPanel

set_option autoImplicit false

namespace DisplayError

def name : DisplayError → String
  | .bus => "Bus"
  | .unsupported => "Unsupported"
  | .notInitialized => "NotInitialized"

end DisplayError

namespace Command.QueueError

def name : QueueError → String
  | .full => "Full"
  | .lineTooLong => "LineTooLong"

end Command.QueueError

namespace NavigationError

def name : NavigationError → String
  | .cycle => "Cycle"
  | .unknownPage => "UnknownScreen"
  | .full => "Full"

end NavigationError

namespace PanelError

def name : PanelError → String
  | .display e => "Display(" ++ e.name ++ ")"
  | .queue e => "Bridge(" ++ e.name ++ ")"
  | .navigation e => "Nav(" ++ e.name ++ ")"

end PanelError

namespace TftError

def name : TftError → String
  | .transfer => "Spi(Error)"
  | .notInitialized => "NotInitialized"

end TftError

namespace Transition

def name : Transition → String
  | .stay => "Stay"
  | .back => "Back"
  | .enter page => "Enter(ScreenId(" ++ toString page ++ "))"

end Transition

namespace Tft

def byteText (bytes : List UInt8) : String :=
  "[" ++ String.intercalate ", " (bytes.map fun b => toString b.toNat) ++ "]"

def Identification.text (i : Identification) : String :=
  "DisplayId \x7b rddid: " ++ byteText i.all ++ ", rdid: " ++ byteText i.single ++ " \x7d"

def Status.text (s : Status) : String :=
  "DisplayStatus \x7b rddst: " ++ byteText s.all ++ ", power_mode: " ++ toString s.powerMode ++
    ", pixel_format: " ++ toString s.pixelFormat ++ ", image_mode: " ++ toString s.imageMode ++ " \x7d"

end Tft

end FrontPanel
