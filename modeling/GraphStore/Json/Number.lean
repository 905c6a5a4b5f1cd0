import GraphStore.Json.Basic

/-!
# JSON numbers

A number without fraction and exponent that fits 64 bits with a sign is an integer.  Every other
number is a double, computed from a significand of at most 64 bits by one rounded multiplication or
division by a power of ten; digits that the significand cannot hold are dropped.  The result is
therefore not always the double nearest to the written number.
-/

namespace GraphStore
namespace Json

/-- The parts of a written number. -/
structure NumberText where
  /-- Whether a minus stands in front. -/
  negative : Bool
  /-- The digits before the point. -/
  whole : List Char
  /-- The digits after the point, if there is one. -/
  fraction : Option (List Char)
  /-- The sign (whether it is a minus) and the digits of the exponent, if there is one. -/
  exponent : Option (Bool × List Char)

namespace NumberText

/-! ## Scanning -/

/-- Take a point and at least one digit, or nothing if no point follows. -/
def scanFraction? : List Char → Option (Option (List Char) × List Char)
  | '.' :: rest =>
    let (digits, after) := Text.spanDigits rest
    if digits = [] then none else some (some digits, after)
  | rest => some (none, rest)

/-- Take an exponent with at least one digit, or nothing if no mark follows. -/
def scanExponent? : List Char → Option (Option (Bool × List Char) × List Char)
  | [] => some (none, [])
  | mark :: rest =>
    if mark = 'e' ∨ mark = 'E' then
      let (negative, unsigned) := Text.takeSign rest
      let (digits, after) := Text.spanDigits unsigned
      if digits = [] then none else some (some (negative, digits), after)
    else
      some (none, mark :: rest)

/-- Take a minus, if one follows. -/
def takeMinus : List Char → Bool × List Char
  | '-' :: rest => (true, rest)
  | rest => (false, rest)

/-- Take a number off the front of a text.  A whole part of several digits does not start with a
zero. -/
def scan? (text : List Char) : Option (NumberText × List Char) := do
  let (negative, unsigned) := takeMinus text
  let (whole, afterWhole) := Text.spanDigits unsigned
  if whole = [] ∨ (whole.head? = some '0' ∧ whole ≠ ['0']) then none
  else
    let (fraction, afterFraction) ← scanFraction? afterWhole
    let (exponent, rest) ← scanExponent? afterFraction
    some (⟨negative, whole, fraction, exponent⟩, rest)

/-! ## Values -/

/-- Append digits to a significand for as long as it stays within 64 bits; the second result is the
number of digits that were left. -/
def gather (significand : Nat) : List Char → Nat × Nat
  | [] => (significand, 0)
  | digit :: rest =>
    let next := significand * 10 + Text.digitValue digit
    if next < Nat.pow 2 64 then gather next rest else (significand, rest.length + 1)

/-- The greatest power of ten that a double holds. -/
def greatestPower : Nat := 308

/-- The double nearest to a power of ten, as a place. -/
def powerPlace (exponent : Nat) : Nat :=
  (Double.nearestPlace (Nat.pow 10 exponent) 1).val

/-- Scale a place by a power of ten; `none` if the result is beyond the finite places. -/
def scalePlace? (place : Nat) (exponent : Int) : Option Nat :=
  if 0 ≤ exponent then
    if exponent ≤ greatestPower then
      let product := (Double.mulPlace place (powerPlace exponent.toNat)).val
      if product < Double.infinityPlace then some product else none
    else if place = 0 then some 0
    else none
  else if -exponent ≤ greatestPower then
    some (Double.divPlace place (powerPlace (-exponent).toNat)).val
  else if place = 0 then some 0
  else
    scalePlace? (Double.divPlace place (powerPlace greatestPower)).val (exponent + greatestPower)
termination_by (-exponent).toNat
decreasing_by
  simp only [greatestPower] at *
  omega

/-- The double of a significand and a power of ten. -/
def scaled (negative : Bool) (significand : Nat) (exponent : Int) : Json :=
  match scalePlace? (Double.nearestPlace significand 1).val exponent with
  | some place => double (.signed negative (Double.clampPlace place))
  | none => unreadable

/-- The integer of a sign and a magnitude, or the double nearest to it if it does not fit.  A
negative zero is a double. -/
def integral (negative : Bool) (magnitude : Nat) : Json :=
  if negative then
    if 0 < magnitude ∧ magnitude ≤ Nat.pow 2 63 then integer (Int64.ofInt (-magnitude))
    else double (Double.nearest true magnitude 1)
  else if magnitude < Nat.pow 2 63 then integer (Int64.ofInt magnitude)
  else double (Double.nearest false magnitude 1)

/-- The value of a written number. -/
def value (number : NumberText) : Json :=
  let (wholeSignificand, unusedWhole) := gather 0 number.whole
  match number.fraction, number.exponent with
  | none, none =>
    if unusedWhole = 0 then integral number.negative wholeSignificand
    else scaled number.negative wholeSignificand unusedWhole
  | fraction, exponent =>
    let digits := fraction.getD []
    let (significand, unusedFraction) := gather wholeSignificand digits
    let shift : Int := (unusedWhole : Int) - ((digits.length : Int) - unusedFraction)
    let power : Int :=
      match exponent with
      | none => 0
      | some (true, digits) => -(Text.digitsValue digits : Int)
      | some (false, digits) => Text.digitsValue digits
    scaled number.negative significand (shift + power)

end NumberText
end Json
end GraphStore
