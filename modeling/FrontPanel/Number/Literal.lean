import FrontPanel.Number.Binary

/-!
# Reading decimal floating point

A literal is an optional sign and then `inf`, `infinity` or `nan` in any case, or decimal digits with at
most one point and an optional exponent. At least one digit stands before or after the point, and at
least one in an exponent. The value is the number of the format nearest to the literal.
-/

namespace FrontPanel.Number

set_option autoImplicit false

def isDigit (c : Char) : Bool := '0' ≤ c && c ≤ '9'

def digitsValue (digits : List Char) : Nat :=
  digits.foldl (fun n c => 10 * n + (c.toNat - '0'.toNat)) 0

/-- An optional sign in front of a text, true for minus, and the text behind it. -/
def splitSign : List Char → Bool × List Char
  | '-' :: rest => (true, rest)
  | '+' :: rest => (false, rest)
  | rest => (false, rest)

/-- The exponent part of a literal; nothing stands for the exponent zero. -/
def exponent? : List Char → Option Int
  | [] => some 0
  | c :: rest =>
    if c = 'e' ∨ c = 'E' then
      let (negative, digits) := splitSign rest
      if digits.isEmpty || !digits.all isDigit then none
      else
        let n : Int := digitsValue digits
        some (if negative then -n else n)
    else none

/-- The digits of an unsigned literal and the power of ten that they count. -/
def decimal? (text : List Char) : Option (Nat × Int) :=
  let whole := text.takeWhile isDigit
  let (places, rest) :=
    match text.dropWhile isDigit with
    | '.' :: rest => (rest.takeWhile isDigit, rest.dropWhile isDigit)
    | rest => ([], rest)
  if whole.isEmpty && places.isEmpty then none
  else (exponent? rest).map fun e => (digitsValue (whole ++ places), e - places.length)

namespace Binary

variable {f : BinaryFormat}

def read? (text : List Char) : Option (Binary f) :=
  let (negative, body) := splitSign text
  let word := String.ofList (body.map Char.toLower)
  if word = "inf" ∨ word = "infinity" then some ⟨negative, f.infinityCode⟩
  else if word = "nan" then some nan
  else (decimal? body).map fun (digits, e) => ⟨negative, f.nearestCodeOfDecimal digits e⟩

end Binary

end FrontPanel.Number
