import FrontPanel.Number.Rounding

/-!
# Binary floating point, exactly

A number of a binary interchange format is a sign and a code. The codes count the non-negative values
upwards from zero, so that rounding a real number means finding its nearest code. Every finite value is
a whole number of units, the unit being the least positive value of the format; sums and products are
formed exactly in units and then rounded once, ties to even.
-/

namespace FrontPanel.Number

set_option autoImplicit false

structure BinaryFormat where
  /-- Stored bits of the significand; a normal number has one more in front. -/
  fraction : Nat
  exponent : Nat
  deriving DecidableEq

namespace BinaryFormat

def single : BinaryFormat := ⟨23, 8⟩

def double : BinaryFormat := ⟨52, 11⟩

variable (f : BinaryFormat)

/-- The number of codes that share an exponent. -/
def block : Nat := Nat.pow 2 f.fraction

def unitExponent : Nat := Nat.pow 2 (f.exponent - 1) - 2 + f.fraction

/-- The code of infinity; codes above it are not numbers. -/
def infinityCode : Nat := (Nat.pow 2 f.exponent - 1) * f.block

def units (code : Nat) : Nat :=
  if code < f.block then code
  else (f.block + code % f.block) * Nat.pow 2 (code / f.block - 1)

def nearestCode (num den : Nat) : Nat :=
  let step := Nat.log2 (num / den) - f.fraction
  min f.infinityCode (step * f.block + nearestEven num (den * Nat.pow 2 step))

/-- The code nearest to `digits * 10 ^ exponent`. Decimals beyond four hundred places on either side of
the point are outside every format in use here and are settled without being formed. -/
def nearestCodeOfDecimal (digits : Nat) (exponent : Int) : Nat :=
  let top : Int := (Nat.toDigits 10 digits).length + exponent
  if digits = 0 then 0
  else if 400 < top then f.infinityCode
  else if top < -400 then 0
  else if 0 ≤ exponent then
    f.nearestCode (digits * Nat.pow 10 exponent.toNat * Nat.pow 2 f.unitExponent) 1
  else f.nearestCode (digits * Nat.pow 2 f.unitExponent) (Nat.pow 10 (-exponent).toNat)

theorem nearestCode_le_infinityCode (num den : Nat) : f.nearestCode num den ≤ f.infinityCode :=
  Nat.min_le_left _ _

end BinaryFormat

structure Binary (f : BinaryFormat) where
  negative : Bool
  /-- The place of the magnitude among the magnitudes of the format. -/
  code : Nat
  deriving DecidableEq

abbrev Binary32 := Binary .single

namespace Binary

variable {f : BinaryFormat}

def nan : Binary f := ⟨false, f.infinityCode + Nat.pow 2 (f.fraction - 1)⟩

def ofBits (bits : Nat) : Binary f :=
  let width := f.exponent + f.fraction
  ⟨bits / Nat.pow 2 width % 2 = 1, bits % Nat.pow 2 width⟩

def toBits (x : Binary f) : Nat :=
  (if x.negative then Nat.pow 2 (f.exponent + f.fraction) else 0) + x.code

def isNaN (x : Binary f) : Bool := f.infinityCode < x.code

def isInfinite (x : Binary f) : Bool := x.code = f.infinityCode

def isZero (x : Binary f) : Bool := x.code = 0

/-- Greater than zero; infinity is, not-a-number is not. -/
def isPositive (x : Binary f) : Bool := !x.isNaN && !x.negative && !x.isZero

def signedUnits (x : Binary f) : Int :=
  if x.negative then -(f.units x.code : Int) else f.units x.code

def ofRatio (negative : Bool) (num den : Nat) : Binary f :=
  ⟨negative, f.nearestCode (num * Nat.pow 2 f.unitExponent) den⟩

def ofInt (n : Int) : Binary f := ofRatio (n < 0) n.natAbs 1

/-- The sum, rounded once. A zero sum is negative only if both terms are. -/
def add (x y : Binary f) : Binary f :=
  if x.isNaN || y.isNaN then nan
  else if x.isInfinite then if y.isInfinite && x.negative != y.negative then nan else x
  else if y.isInfinite then y
  else
    let sum := x.signedUnits + y.signedUnits
    if sum = 0 then ⟨x.negative && y.negative, 0⟩
    else ⟨sum < 0, f.nearestCode sum.natAbs 1⟩

def mul (x y : Binary f) : Binary f :=
  let negative := x.negative != y.negative
  if x.isNaN || y.isNaN then nan
  else if x.isInfinite || y.isInfinite then
    if x.isZero || y.isZero then nan else ⟨negative, f.infinityCode⟩
  else ⟨negative, f.nearestCode (f.units x.code * f.units y.code) (Nat.pow 2 f.unitExponent)⟩

instance : Add (Binary f) := ⟨add⟩
instance : Mul (Binary f) := ⟨mul⟩

end Binary

end FrontPanel.Number
