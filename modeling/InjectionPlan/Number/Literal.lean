import InjectionPlan.Number.Binary64

namespace InjectionPlan
namespace Number

/-!
# The number that a decimal literal denotes

A literal is the digits of its whole part, the digits of its fraction if it has one, and its
exponent if it has one.  Without fraction and exponent it denotes an integer, provided that the
integer fits: from `-2 ^ 63` to `2 ^ 64 - 1`, and `-0` does not count as one.

Any other literal denotes a binary64 number, by a rule that rounds up to three times and not
always to the nearest.  The digits accumulate into a significand below `2 ^ 64`, and digits past
that limit are dropped; the significand is rounded to a number, which is then multiplied or
divided once by a rounded power of ten.
-/

/-- A decimal literal in its parts; the digits are numbers from zero to nine. -/
structure Literal where
  negative : Bool
  whole : List Nat
  fraction : Option (List Nat)
  exponent : Option Int
deriving DecidableEq

/-- An exact integer or a binary64 number. -/
inductive Numeral
  | integer (value : Int)
  | float (value : Binary64)
deriving DecidableEq

namespace Literal

/-- The limit of the significand. -/
def significandLimit : Nat := Nat.pow 2 64

/-- A significand with a power of ten. -/
structure Scaled where
  significand : Nat
  exponent : Int

/-- Takes in the digits before the point.  From the first digit that does not fit, each digit
only raises the exponent. -/
def takeWhole : List Nat -> Nat -> Scaled
  | [], significand => ⟨significand, 0⟩
  | digit :: rest, significand =>
    if significand * 10 + digit < significandLimit then
      takeWhole rest (significand * 10 + digit)
    else
      ⟨significand, (digit :: rest).length⟩

/-- Takes in the digits after the point.  From the first digit that does not fit, all are
dropped. -/
def takeFraction : List Nat -> Scaled -> Scaled
  | [], scaled => scaled
  | digit :: rest, scaled =>
    if scaled.significand * 10 + digit < significandLimit then
      takeFraction rest ⟨scaled.significand * 10 + digit, scaled.exponent - 1⟩
    else
      scaled

/-- The significand and the power of ten that a literal comes to. -/
def scaled (literal : Literal) : Scaled :=
  let taken := takeFraction (literal.fraction.getD []) (takeWhole literal.whole 0)
  { taken with exponent := taken.exponent + literal.exponent.getD 0 }

/-- The largest exponent of ten in one multiplication or division. -/
def stepLimit : Nat := 308

/-- The binary64 number nearest to a power of ten. -/
def tenTo (exponent : Nat) : Option Binary64 :=
  Binary64.ofNat (Nat.pow 10 exponent)

/-- A number divided again and again, as often as asked or until it is zero. -/
def divideTimes (divisor : Binary64) : Nat -> Binary64 -> Option Binary64
  | 0, number => some number
  | count + 1, number =>
    if number.isZero then some number
    else (number.div divisor).bind (divideTimes divisor count)

/-- The number divided by a power of ten, in steps of at most `10 ^ 308`. -/
def shrink (number : Binary64) (exponent : Nat) : Option Binary64 :=
  let steps := (exponent - 1) / stepLimit
  (tenTo stepLimit).bind fun largest =>
    (divideTimes largest steps number).bind fun shrunk =>
      (tenTo (exponent - steps * stepLimit)).bind shrunk.div

/-- The number multiplied by a power of ten; a power too large to be a number leaves only zero
in range. -/
def grow (number : Binary64) (exponent : Nat) : Option Binary64 :=
  if exponent ≤ stepLimit then
    (tenTo exponent).bind number.mul
  else if number.isZero then some number
  else none

/-- The binary64 number of a literal; there is none when it is out of range. -/
def float? (literal : Literal) : Option Binary64 :=
  let scaled := literal.scaled
  let magnitude := (Binary64.ofNat scaled.significand).bind fun significand =>
    if scaled.exponent < 0 then shrink significand scaled.exponent.natAbs
    else grow significand scaled.exponent.natAbs
  magnitude.map fun number => if literal.negative then number.neg else number

/-- The integer of a literal without fraction and exponent, if it fits. -/
def integer? (literal : Literal) : Option Int :=
  match literal.fraction, literal.exponent with
  | none, none =>
    let value : Nat := literal.whole.foldl (fun value digit => value * 10 + digit) 0
    if literal.negative then
      if 0 < value ∧ value ≤ Nat.pow 2 63 then some (-(value : Int)) else none
    else
      if value < significandLimit then some (value : Int) else none
  | _, _ => none

/-- What a literal denotes; nothing when it is out of the range of binary64. -/
def numeral? (literal : Literal) : Option Numeral :=
  match literal.integer? with
  | some value => some (.integer value)
  | none => literal.float?.map .float

end Literal
end Number
end InjectionPlan
