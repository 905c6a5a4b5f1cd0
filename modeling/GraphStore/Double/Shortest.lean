import GraphStore.Double.Decimal

/-!
# Shortest decimals

The shortest decimal of a double has the fewest digits among the decimals that are read back as
that double, and is the nearest of those.  The search tries one to seventeen digits.  If a decimal
of some digit count reads back, so does one of the two neighbours of the double on the grid of that
count, so only these two are tried.
-/

namespace GraphStore

/-- Which of two equally near decimals is written. -/
inductive TieRule where
  /-- The larger magnitude. -/
  | away
  /-- The one whose last digit is even. -/
  | even
  deriving DecidableEq

namespace Double

/-- A power of ten above the number of decimal places that locate the leading digit of a double. -/
def leadingDigitScale : Nat := 400

/-- The power of ten of the leading digit of a positive finite place. -/
def leadingExponent (place : Nat) : Int :=
  let scaled := units place * Nat.pow 10 leadingDigitScale / unitsInOne
  ((Text.natDigits scaled).length : Int) - 1 - leadingDigitScale

/-- Whether a decimal is read back as the given place. -/
def readsBack (place : Nat) (decimal : Decimal) : Bool :=
  ofDecimal false decimal == .signed false (clampPlace place)

/-- The numerator and denominator of a place divided by a power of ten. -/
def quotientByPower (place : Nat) (exponent : Int) : Nat × Nat :=
  if 0 ≤ exponent then (units place, unitsInOne * Nat.pow 10 exponent.toNat)
  else (units place * Nat.pow 10 (-exponent).toNat, unitsInOne)

/-- The decimal with `count` digits that reads back and is nearest to the place, if one exists. -/
def nearestWithDigits? (tie : TieRule) (place count : Nat) : Option Decimal :=
  let exponent := leadingExponent place - (count - 1)
  let (numerator, denominator) := quotientByPower place exponent
  let low := numerator / denominator
  let twice := 2 * (numerator % denominator)
  let below : Decimal := ⟨low, exponent⟩
  let above : Decimal := ⟨low + 1, exponent⟩
  match readsBack place below, readsBack place above with
  | false, false => none
  | true, false => some below
  | false, true => some above
  | true, true =>
    if twice < denominator then some below
    else if denominator < twice then some above
    else match tie with
      | .away => some above
      | .even => some (if low % 2 = 0 then below else above)

/-- Every digit of a finite place. -/
def exactDecimal (place : Nat) : Decimal :=
  ⟨units place * Nat.pow 5 1074, -1074⟩

/-- The shortest decimal that reads back as a finite place, nearest to it among those. -/
def shortestDecimal (tie : TieRule) (place : Nat) : Decimal :=
  if place = 0 then ⟨0, 0⟩
  else
    (((List.range' 1 17).findSome? (nearestWithDigits? tie place)).getD
      (exactDecimal place)).reduced

end Double
end GraphStore
