import FrontPanel.Number.Binary

/-!
# Decimal text with a fixed number of places

The exact value of a floating point number is rounded to the asked number of decimal places and written
out in full. The sign is that of the number, also where the digits are all zero.
-/

namespace FrontPanel.Number

set_option autoImplicit false

/-- The decimal digits of `n`, filled up with zeros on the left to `width`. -/
def paddedDigits (width n : Nat) : List Char :=
  let digits := Nat.toDigits 10 n
  List.replicate (width - digits.length) '0' ++ digits

/-- A number of `10 ^ places`-ths in decimal notation. -/
def decimalText (places scaled : Nat) : List Char :=
  let whole := Nat.toDigits 10 (scaled / Nat.pow 10 places)
  if places = 0 then whole
  else whole ++ '.' :: paddedDigits places (scaled % Nat.pow 10 places)

namespace Binary

variable {f : BinaryFormat}

def scaledTo (places : Nat) (x : Binary f) : Nat :=
  nearestEven (f.units x.code * Nat.pow 10 places) (Nat.pow 2 f.unitExponent)

def toPlaces (places : Nat) (x : Binary f) : String :=
  if x.isNaN then "NaN"
  else
    let sign := if x.negative then "-" else ""
    if x.isInfinite then sign ++ "inf"
    else sign ++ String.ofList (decimalText places (x.scaledTo places))

end Binary

end FrontPanel.Number
