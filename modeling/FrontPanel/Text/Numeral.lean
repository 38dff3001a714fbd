import FrontPanel.Number.Literal

/-!
# Decimal numerals

A numeral is an optional plus sign and at least one ASCII digit; leading zeros are allowed. It is read
only up to a given greatest value.
-/

namespace FrontPanel.Text

set_option autoImplicit false

open Number (isDigit digitsValue)

def withoutPlus : List Char → List Char
  | '+' :: rest => rest
  | rest => rest

/-- The value of a numeral, if it is at most `greatest`. -/
def natural? (greatest : Nat) (text : List Char) : Option Nat :=
  let digits := withoutPlus text
  if digits.isEmpty || !digits.all isDigit then none
  else
    let n := digitsValue digits
    if n ≤ greatest then some n else none

theorem natural?_le {greatest n : Nat} {text : List Char} (h : natural? greatest text = some n) :
    n ≤ greatest := by
  simp only [natural?] at h
  split at h
  · cases h
  · split at h
    · cases h; assumption
    · cases h

end FrontPanel.Text
