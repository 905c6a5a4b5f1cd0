import GraphStore.Double.Shortest

/-!
# Layouts of doubles

How the shortest decimal of a double is laid out as text is decided by a `Layout`.  Each format
that writes doubles has one such record beside it.
-/

namespace GraphStore

/-- The decisions of a format that writes doubles. -/
structure Layout where
  /-- Which of two equally near shortest decimals is written. -/
  tie : TieRule
  /-- Whether a magnitude with this power of ten in its leading digit is written positionally. -/
  positional : Int → Bool
  /-- Whether a whole number with this power of ten in its leading digit gets `.0`. -/
  pointZero : Int → Bool
  /-- The text of a NaN. -/
  nanText : String
  /-- The text of an infinity, given its sign. -/
  infinityText : Bool → String

namespace Layout

/-- Digits and a power of ten as a positional number. -/
def positionalText (pointZero : Bool) (digits : List Char) (exponent : Int) : List Char :=
  if 0 ≤ exponent then
    digits ++ List.replicate exponent.toNat '0' ++ (if pointZero then ['.', '0'] else [])
  else
    let places := (-exponent).toNat
    if places < digits.length then
      digits.take (digits.length - places) ++ '.' :: digits.drop (digits.length - places)
    else
      '0' :: '.' :: List.replicate (places - digits.length) '0' ++ digits

/-- Digits and the power of ten of the first one in scientific form, with a signed exponent. -/
def scientificText (digits : List Char) (leading : Int) : List Char :=
  digits.take 1 ++ (if digits.length ≤ 1 then [] else '.' :: digits.drop 1) ++
    ['e', if leading < 0 then '-' else '+'] ++ Text.natDigits leading.natAbs

/-- A decimal without sign. -/
def decimalText (layout : Layout) (decimal : Decimal) : List Char :=
  let digits := Text.natDigits decimal.significand
  let leading : Int := decimal.exponent + digits.length - 1
  if layout.positional leading then
    positionalText (layout.pointZero leading) digits decimal.exponent
  else
    scientificText digits leading

/-- The text of a double in a layout. -/
def text (layout : Layout) : Double → String
  | .nan => layout.nanText
  | .signed negative place =>
    if place.val < Double.infinityPlace then
      String.ofList ((if negative then ['-'] else []) ++
        layout.decimalText (Double.shortestDecimal layout.tie place))
    else
      layout.infinityText negative

end Layout
end GraphStore
