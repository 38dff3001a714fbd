/-!
# Why a configuration text is refused
-/

namespace FrontPanel

set_option autoImplicit false

/-- The cause for which a line of a configuration text is refused. -/
inductive SettingsError where
  | unknownSection
  | invalidValue
  | invalidPin
  | unknownKey
  | malformedLine
  deriving DecidableEq

end FrontPanel
