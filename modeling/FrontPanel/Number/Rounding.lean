/-!
# Rounding a quotient

The natural number nearest to a quotient of two naturals, a tie going to the even neighbour. All
decimal and binary number texts of the panel are rounded by this one rule.
-/

namespace FrontPanel.Number

set_option autoImplicit false

/-- The natural number nearest to `num / den`; of two equally near ones, the even one. -/
def nearestEven (num den : Nat) : Nat :=
  let q := num / den
  let r := num % den
  if 2 * r < den then q
  else if den < 2 * r then q + 1
  else q + q % 2

end FrontPanel.Number
