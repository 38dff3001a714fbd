import FrontPanel.Number.Binary

/-!
# Configuration documents

A configuration as a tree of typed values, before any of its names means anything. The entries of a
table are looked at in the order of their keys.
-/

namespace FrontPanel.Settings

set_option autoImplicit false

open Number (Binary)

inductive Document where
  | boolean (b : Bool)
  | integer (n : Int)
  | float (x : Binary .double)
  | string (s : String)
  /-- A date, a time of day, or both, as it is written. -/
  | datetime (s : String)
  | array (items : List Document)
  | table (entries : List (String × Document))
  deriving Inhabited

namespace Document

def entries? : Document → Option (List (String × Document))
  | .table entries => some entries
  | _ => none

def get? (d : Document) (key : String) : Option Document :=
  d.entries?.bind fun entries => entries.lookup key

/-- Entries in the order of their keys. -/
def inKeyOrder (entries : List (String × Document)) : List (String × Document) :=
  entries.mergeSort fun a b => decide (a.1 ≤ b.1)

end Document

end FrontPanel.Settings
