import FrontPanel.Settings.Basic
import FrontPanel.Settings.Error
import FrontPanel.Text.Numeral
import FrontPanel.Text.Quotes

/-!
# Pin notation

A pin is written `gpio` and its number. Any run of the marks `!` (active low) and `^` (pull-up) may stand
in front, and `nc` in any case stands for a line that is not connected.
-/

namespace FrontPanel.Pin

set_option autoImplicit false

def isMark (c : Char) : Bool := c = '!' || c = '^'

def number? : List Char → Option Nat
  | 'g' :: 'p' :: 'i' :: 'o' :: numeral => Text.natural? last numeral
  | _ => none

/-- The pin that a value stands for, `none` if it is not connected. Quotes around the value are optional. -/
def read (value : List Char) : Except SettingsError (Option Pin) :=
  let text := Text.unquote value
  if Text.sameFolded text ['n', 'c'] then .ok none
  else
    let marks := text.takeWhile isMark
    match number? (text.dropWhile isMark) with
    | some number => .ok (some ⟨number, marks.contains '!', marks.contains '^'⟩)
    | none => .error .invalidPin

theorem number?_le {text : List Char} {n : Nat} (h : number? text = some n) : n ≤ last := by
  unfold number? at h
  split at h
  · exact Text.natural?_le h
  · cases h

end FrontPanel.Pin
