import InjectionPlan.Number.Binary64

namespace InjectionPlan
namespace Number

/-!
# The number nearest to a decimal

Unlike the literals of `Number.Literal`, decimals read here are rounded once.  An exponent that
decides the result by its size alone is not turned into a power of ten.
-/

/-- A binary64 number, finite or not. -/
inductive Extended
  | finite (number : Binary64)
  | infinite (negative : Bool)
  | notANumber
deriving DecidableEq, Inhabited

/-- No decimal that leads by more than this many places is finite, and none that trails by more
than this many places differs from zero. -/
def placeLimit : Nat := 400

/-- The number nearest to `digits * 10 ^ exponent`, where `count` digits are given. -/
def nearest (negative : Bool) (digits count : Nat) (exponent : Int) : Extended :=
  let zero : Binary64 := { Binary64.zero with negative := negative }
  if digits = 0 then .finite zero
  else if placeLimit < exponent then .infinite negative
  else if exponent + count < -placeLimit then .finite zero
  else
    match Binary64.ofRatio negative (digits * Nat.pow 10 exponent.toNat)
        (Nat.pow 10 (-exponent).toNat) with
    | some number => .finite number
    | none => .infinite negative

end Number
end InjectionPlan
