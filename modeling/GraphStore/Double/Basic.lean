/-!
# Doubles

A double is a NaN, or a sign together with a *place* on the ladder of non-negative doubles: place
`0` is zero, each further place is the next larger double, and the last place is infinity.  The
place is the number that the bits below the sign bit write, so order is the order of places and
rounding is a choice between neighbouring places.  Values are counted in *units* of `2 ^ (-1074)`,
the smallest positive double, of which every finite double is a whole number.
-/

namespace GraphStore

/-- The place of infinity on the ladder of non-negative doubles. -/
def Double.infinityPlace : Nat := 0x7FF0000000000000

/-- A binary floating point number of 64 bits; all NaNs are one. -/
inductive Double where
  /-- Not a number. -/
  | nan
  /-- A zero, a finite number or an infinity, with its sign. -/
  | signed (negative : Bool) (place : Fin (Double.infinityPlace + 1))
  deriving DecidableEq

namespace Double

/-- The place that is `place` if it exists and the last place otherwise. -/
def clampPlace (place : Nat) : Fin (infinityPlace + 1) :=
  ⟨min place infinityPlace, Nat.lt_succ_of_le (Nat.min_le_right _ _)⟩

/-- Positive and negative zero. -/
def zero (negative : Bool) : Double :=
  .signed negative (clampPlace 0)

/-- Positive and negative infinity. -/
def infinity (negative : Bool) : Double :=
  .signed negative (clampPlace infinityPlace)

/-- Neither a NaN nor an infinity. -/
def isFinite : Double → Bool
  | .nan => false
  | .signed _ place => place.val < infinityPlace

/-! ## Values -/

/-- The exponent of two by which the significand of a place is scaled. -/
def binade (place : Nat) : Nat :=
  place / Nat.pow 2 52 - 1

/-- The value of a place, in units of `2 ^ (-1074)`. -/
def units (place : Nat) : Nat :=
  (place - binade place * Nat.pow 2 52) * Nat.pow 2 (binade place)

/-- The number of units in one. -/
def unitsInOne : Nat := Nat.pow 2 1074

/-- The whole number nearest to a quotient; of two that are equally near, the even one. -/
def roundQuotient (numerator denominator : Nat) : Nat :=
  let quotient := numerator / denominator
  let twice := 2 * (numerator % denominator)
  if twice < denominator then quotient
  else if denominator < twice then quotient + 1
  else quotient + quotient % 2

/-- The place nearest to a quotient; of two that are equally near, the even one.  Quotients beyond
the finite places get the place of infinity. -/
def nearestPlace (numerator denominator : Nat) : Fin (infinityPlace + 1) :=
  let scaled := numerator * unitsInOne
  let whole := scaled / denominator
  let exponent := Nat.log2 whole - 52
  clampPlace
    (exponent * Nat.pow 2 52 + roundQuotient scaled (denominator * Nat.pow 2 exponent))

/-- The double nearest to a quotient, with a given sign. -/
def nearest (negative : Bool) (numerator denominator : Nat) : Double :=
  .signed negative (nearestPlace numerator denominator)

/-- The double nearest to an integer. -/
def ofInt (value : Int) : Double :=
  nearest (value < 0) value.natAbs 1

/-- The double nearest to `significand * 10 ^ exponent`.  Exponents at which every non-zero
significand of this length is beyond the doubles are answered without computing the power. -/
def ofScientific (negative : Bool) (significand : Nat) (exponent : Int) : Double :=
  let length : Nat := (Nat.toDigits 10 significand).length
  if significand = 0 then zero negative
  else if 400 < exponent then infinity negative
  else if exponent + length < -400 then zero negative
  else if 0 ≤ exponent then nearest negative (significand * Nat.pow 10 exponent.toNat) 1
  else nearest negative significand (Nat.pow 10 (-exponent).toNat)

/-! ## Order -/

/-- The place with its sign, in which the two zeros fall together. -/
def signedPlace (negative : Bool) (place : Nat) : Int :=
  if negative then -(place : Int) else place

/-- The order of doubles, in which a NaN has no place and the two zeros are equal. -/
def compare? : Double → Double → Option Ordering
  | .signed leftNegative left, .signed rightNegative right =>
      some (compare (signedPlace leftNegative left) (signedPlace rightNegative right))
  | _, _ => none

/-- Numerical equality, in which a NaN equals nothing. -/
def equals (left right : Double) : Bool :=
  left.compare? right == some .eq

/-- Whether a double is a whole number. -/
def isIntegral : Double → Bool
  | .nan => false
  | .signed _ place => place.val < infinityPlace && units place % unitsInOne == 0

/-! ## Bits -/

/-- The sixty-four bits as a number; a NaN is the quiet one without payload. -/
def toBits : Double → Nat
  | .nan => 0x7FF8000000000000
  | .signed negative place => (if negative then Nat.pow 2 63 else 0) + place

/-- Read sixty-four bits. -/
def ofBits (bits : Nat) : Double :=
  let place := bits % Nat.pow 2 63
  if place ≤ infinityPlace then .signed (Nat.pow 2 63 ≤ bits) (clampPlace place) else .nan

/-! ## Products and quotients -/

/-- The rounded product of two magnitudes. -/
def mulPlace (left right : Nat) : Fin (infinityPlace + 1) :=
  nearestPlace (units left * units right) (unitsInOne * unitsInOne)

/-- The rounded quotient of two magnitudes. -/
def divPlace (left right : Nat) : Fin (infinityPlace + 1) :=
  nearestPlace (units left) (units right)

end Double
end GraphStore
