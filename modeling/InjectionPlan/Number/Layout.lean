import InjectionPlan.Number.Shortest

namespace InjectionPlan
namespace Number

/-!
# How a binary64 number is written

The digits are those of the shortest decimal.  A layout decides which of two equally near
decimals is written, which decimal exponents are written positionally and how an exponent looks
otherwise.  Positional text always holds a point,
with a zero after it if the number is whole.
-/

/-- The decisions of a number format. -/
structure Layout where
  /-- Which of two equally near shortest decimals is written. -/
  tie : Tie
  /-- The least exponent of the leading digit that is written positionally. -/
  leastPlain : Int
  /-- The greatest exponent of the leading digit that is written positionally. -/
  mostPlain : Int
  /-- What stands before an exponent that is not negative. -/
  plusSign : String

/-- Ties go to even digits, exponents from -5 to 15 are written positionally, and other exponents
always have a sign. -/
def Layout.standard : Layout := ⟨.toEven, -5, 15, "+"⟩

namespace Layout

/-- A run of zeros. -/
def zeros (count : Nat) : String :=
  String.ofList (List.replicate count '0')

/-- Digits with the point so placed that the leading digit has the given exponent. -/
def positional (digits : List Char) (leading : Int) : String :=
  if leading < 0 then
    "0." ++ zeros (-leading - 1).toNat ++ String.ofList digits
  else
    let whole := leading.toNat + 1
    let fraction := digits.drop whole
    String.ofList (digits.take whole) ++ zeros (whole - digits.length) ++ "." ++
      (if fraction.isEmpty then "0" else String.ofList fraction)

/-- Digits with the point after the first one, if more follow, and the exponent written out. -/
def scientific (layout : Layout) (digits : List Char) (leading : Int) : String :=
  let fraction := digits.drop 1
  String.ofList (digits.take 1) ++
    (if fraction.isEmpty then "" else "." ++ String.ofList fraction) ++
    "e" ++ (if leading < 0 then "-" else layout.plusSign) ++ toString leading.natAbs

/-- The text of a number under a layout. -/
def write (layout : Layout) (number : Binary64) : String :=
  let sign := if number.negative then "-" else ""
  let decimal := shortest layout.tie number
  let digits := Nat.toDigits 10 decimal.digits
  let leading := decimal.exponent + digits.length - 1
  let plain := layout.leastPlain ≤ leading ∧ leading ≤ layout.mostPlain
  sign ++ (if plain then positional digits leading else layout.scientific digits leading)

end Layout
end Number
end InjectionPlan
