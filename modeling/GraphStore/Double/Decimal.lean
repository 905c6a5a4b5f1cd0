import GraphStore.Double.Basic
import GraphStore.Text.Digits

/-!
# Decimal text of doubles

A decimal is a whole significand scaled by a power of ten.  This module reads a decimal off a text
and rounds it to the nearest double.  The accepted texts are an optional sign followed by an
infinity, a NaN, or digits with at most one point among or around them and an optional exponent.
-/

namespace GraphStore

/-- The number `significand * 10 ^ exponent`. -/
structure Decimal where
  /-- The digits, read as one whole number. -/
  significand : Nat
  /-- The power of ten that scales them. -/
  exponent : Int
  deriving DecidableEq

namespace Decimal

/-- The same number without trailing zeros in its significand. -/
def reduced (decimal : Decimal) : Decimal :=
  if 0 < decimal.significand ∧ decimal.significand % 10 = 0 then
    reduced ⟨decimal.significand / 10, decimal.exponent + 1⟩
  else
    decimal
termination_by decimal.significand
decreasing_by exact Nat.div_lt_self (by omega) (by omega)

/-- Read the exponent part: nothing, or a mark, an optional sign and digits. -/
def readExponent? : List Char → Option Int
  | [] => some 0
  | mark :: rest =>
    let (negative, digits) := Text.takeSign rest
    if (mark = 'e' ∨ mark = 'E') ∧ digits ≠ [] ∧ digits.all Char.isDigit then
      some (if negative then -(Text.digitsValue digits : Int) else Text.digitsValue digits)
    else
      none

/-- Read the fraction part: nothing, or a point and digits. -/
def spanFraction : List Char → List Char × List Char
  | '.' :: rest => Text.spanDigits rest
  | rest => ([], rest)

/-- Read an unsigned decimal: digits with at most one point, then an optional exponent. -/
def ofText? (text : List Char) : Option Decimal :=
  let (whole, afterWhole) := Text.spanDigits text
  let (fraction, afterFraction) := spanFraction afterWhole
  if whole ++ fraction = [] then none
  else
    (readExponent? afterFraction).map fun exponent =>
      ⟨Text.digitsValue (whole ++ fraction), exponent - fraction.length⟩

end Decimal

namespace Double

/-- The double nearest to a decimal, with a given sign. -/
def ofDecimal (negative : Bool) (decimal : Decimal) : Double :=
  ofScientific negative decimal.significand decimal.exponent

/-- Read a whole text as a double.  Names of infinity and NaN are accepted in any case. -/
def ofText? (text : List Char) : Option Double :=
  let (negative, magnitude) := Text.takeSign text
  if Text.equalsIgnoringCase magnitude "inf".toList ∨
      Text.equalsIgnoringCase magnitude "infinity".toList then
    some (infinity negative)
  else if Text.equalsIgnoringCase magnitude "nan".toList then
    some nan
  else
    (Decimal.ofText? magnitude).map (ofDecimal negative)

end Double
end GraphStore
