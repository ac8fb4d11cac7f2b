namespace InjectionPlan
namespace Number

/-!
# Finite binary64 numbers

The finite non-negative binary64 numbers, in increasing order, are numbered from zero: first the
multiples of `2 ^ (-1074)` below `2 ^ (-1022)`, then one block of `2 ^ 52` numbers for each binary
exponent.  A number is kept as its sign and its place in this order, so every value of the type
is a finite number and every finite number has one value, apart from the two zeros.

`ofRatio` rounds a non-negative rational to the nearest of them.  A carry out of one block runs
into the first number of the next one, because the places are consecutive.  All arithmetic is on
natural numbers.
-/

/-- How many times the smallest magnitude makes one. -/
def smallestUnits : Nat := Nat.pow 2 1074

/-- How many finite non-negative binary64 numbers there are. -/
def finiteCount : Nat := 2047 * Nat.pow 2 52

/-- The nearest natural number to a quotient, a tie going to the even neighbour. -/
def roundDiv (numerator denominator : Nat) : Nat :=
  let floor := numerator / denominator
  let rest := numerator % denominator
  if 2 * rest < denominator then floor
  else if denominator < 2 * rest then floor + 1
  else if floor % 2 = 0 then floor else floor + 1

/-- A finite binary64 number: its sign and the place of its magnitude among all magnitudes. -/
structure Binary64 where
  negative : Bool
  place : Fin finiteCount
deriving DecidableEq

namespace Binary64

def zero : Binary64 :=
  ⟨false, ⟨0, by decide⟩⟩

instance : Inhabited Binary64 := ⟨zero⟩

def neg (number : Binary64) : Binary64 :=
  { number with negative := !number.negative }

def isZero (number : Binary64) : Bool :=
  number.place.val == 0

/-- The integer significand; the magnitude is `significand * 2 ^ (scale - 1074)`. -/
def significand (number : Binary64) : Nat :=
  let block := number.place.val / Nat.pow 2 52
  let offset := number.place.val % Nat.pow 2 52
  if block = 0 then offset else offset + Nat.pow 2 52

/-- How many powers of two the unit of the significand is above the smallest magnitude. -/
def scale (number : Binary64) : Nat :=
  number.place.val / Nat.pow 2 52 - 1

/-- The magnitude as a quotient of natural numbers. -/
def ratio (number : Binary64) : Nat × Nat :=
  (number.significand * Nat.pow 2 number.scale, smallestUnits)

/-- The number of powers of two between the smallest magnitude and the unit in which a quotient
has a significand of 53 binary digits. -/
def scaleOfRatio (numerator denominator : Nat) : Nat :=
  let units := numerator * smallestUnits / denominator
  units.log2 - 52

/-- The binary64 number nearest to a non-negative quotient, ties going to the even significand.
There is none when the quotient rounds to `2 ^ 1024` or more. -/
def ofRatio (negative : Bool) (numerator denominator : Nat) : Option Binary64 :=
  let scale := scaleOfRatio numerator denominator
  let rounded := roundDiv (numerator * smallestUnits) (denominator * Nat.pow 2 scale)
  let place := if scale = 0 then rounded else scale * Nat.pow 2 52 + rounded
  if finite : place < finiteCount then some ⟨negative, ⟨place, finite⟩⟩ else none

def ofNat (value : Nat) : Option Binary64 :=
  ofRatio false value 1

/-- The product rounded once. -/
def mul (left right : Binary64) : Option Binary64 :=
  ofRatio (left.negative != right.negative)
    (left.ratio.1 * right.ratio.1) (left.ratio.2 * right.ratio.2)

/-- The quotient rounded once, for a divisor other than zero. -/
def div (left right : Binary64) : Option Binary64 :=
  ofRatio (left.negative != right.negative)
    (left.ratio.1 * right.ratio.2) (left.ratio.2 * right.ratio.1)

end Binary64
end Number
end InjectionPlan
