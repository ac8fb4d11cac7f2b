import InjectionPlan.Number.Binary64

namespace InjectionPlan
namespace Number

/-!
# The fewest digits that read back

Every binary64 number other than zero is nearest to itself on an interval of reals that reaches
half way to its two neighbours; the ends belong to it when its significand is even.  Its shortest
decimal is a decimal in that interval with as few digits as possible, and of those with equally
few digits the nearest.  Two can be equally near; which of them counts is up to the format.

For each number of digits from one to seventeen the two points of the decimal grid next to the
number are tried.  If any point of a grid lies in the interval then one of these two does, and on
the grid of seventeen digits one always does.  All comparisons are between natural numbers, in
units of `2 ^ (-1076)`, which is a quarter of the smallest magnitude.
-/

/-- The decimal number `digits * 10 ^ exponent`. -/
structure Decimal where
  digits : Nat
  exponent : Int
deriving DecidableEq, Inhabited

namespace Decimal

/-- The decimal as a quotient of natural numbers. -/
def ratio (decimal : Decimal) : Nat × Nat :=
  (decimal.digits * Nat.pow 10 decimal.exponent.toNat, Nat.pow 10 (-decimal.exponent).toNat)

/-- The same number without trailing zeros among its digits. -/
def trim (decimal : Decimal) : Decimal :=
  let text := (Nat.toDigits 10 decimal.digits).reverse
  let zeros := (text.takeWhile (· == '0')).length
  if decimal.digits = 0 then ⟨0, 0⟩
  else ⟨decimal.digits / Nat.pow 10 zeros, decimal.exponent + zeros⟩

end Decimal

/-- Which of two equally near decimals counts. -/
inductive Tie
  | toEven
  | awayFromZero
deriving DecidableEq

/-- The choice between the magnitudes of two neighbours on a decimal grid: the one with even
digits, or the greater one. -/
def Tie.choose (tie : Tie) (low high : Decimal) : Decimal :=
  match tie with
  | .toEven => if low.digits % 2 = 0 then low else high
  | .awayFromZero => high

/-- The exponent of the leading decimal digit of a positive quotient. -/
def leadingExponent (numerator denominator : Nat) : Int :=
  if denominator ≤ numerator then
    ((Nat.toDigits 10 (numerator / denominator)).length : Int) - 1
  else
    let count := (Nat.toDigits 10 (denominator / numerator)).length
    if denominator ≤ numerator * Nat.pow 10 (count - 1) then -((count - 1 : Nat) : Int)
    else -(count : Int)

/-- How many units of `2 ^ (-1076)` make one. -/
def quarterUnits : Nat := Nat.pow 2 1076

/-- The reals that are nearer to a number than to its neighbours, in units of `2 ^ (-1076)`. -/
structure Reach where
  least : Nat
  centre : Nat
  most : Nat
  closed : Bool

namespace Reach

/-- The interval of a number other than zero.  Below a power of two the next number is only half
as far away, except among the smallest magnitudes. -/
def of (number : Binary64) : Reach :=
  let unit := Nat.pow 2 number.scale
  let quarters := 4 * number.significand
  let narrow := number.significand = Nat.pow 2 52 ∧ 0 < number.scale
  { least := (quarters - if narrow then 1 else 2) * unit
    centre := quarters * unit
    most := (quarters + 2) * unit
    closed := number.significand % 2 = 0 }

/-- Whether a decimal lies in the interval. -/
def contains (reach : Reach) (decimal : Decimal) : Bool :=
  let (numerator, denominator) := decimal.ratio
  let point := numerator * quarterUnits
  if reach.closed then
    decide (reach.least * denominator ≤ point ∧ point ≤ reach.most * denominator)
  else
    decide (reach.least * denominator < point ∧ point < reach.most * denominator)

/-- The distance of a decimal from the number, times the decimal's denominator. -/
def distance (reach : Reach) (decimal : Decimal) : Nat :=
  let (numerator, denominator) := decimal.ratio
  let point := numerator * quarterUnits
  let centre := reach.centre * denominator
  (point - centre) + (centre - point)

/-- The point of the decimal grid just below the number, or the number itself. -/
def below (reach : Reach) (exponent : Int) : Decimal :=
  ⟨reach.centre * Nat.pow 10 (-exponent).toNat /
      (quarterUnits * Nat.pow 10 exponent.toNat), exponent⟩

/-- A decimal of the interval on the grid with the given exponent: the nearest, and of two
equally near ones the one that the tie gives. -/
def onGrid (reach : Reach) (tie : Tie) (exponent : Int) : Option Decimal :=
  let low := reach.below exponent
  let high : Decimal := ⟨low.digits + 1, exponent⟩
  match reach.contains low, reach.contains high with
  | true, false => some low
  | false, true => some high
  | false, false => none
  | true, true =>
    if reach.distance low < reach.distance high then some low
    else if reach.distance high < reach.distance low then some high
    else some (tie.choose low high)

end Reach

/-- The most digits that a shortest decimal needs. -/
def digitLimit : Nat := 17

/-- The shortest decimal that reads back as the magnitude of a number. -/
def shortest (tie : Tie) (number : Binary64) : Decimal :=
  if number.isZero then ⟨0, 0⟩
  else
    let reach := Reach.of number
    let leading := leadingExponent reach.centre quarterUnits
    let found := (List.range digitLimit).findSome? fun (more : Nat) =>
      reach.onGrid tie (leading - more)
    (found.getD (reach.below (leading - digitLimit))).trim

end Number
end InjectionPlan
