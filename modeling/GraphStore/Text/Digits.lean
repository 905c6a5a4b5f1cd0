import GraphStore.Text.Trim

/-!
# Decimal digits

Reading and writing of runs of ASCII digits, and of integers of 64 bits with an optional sign.
-/

namespace GraphStore
namespace Text

/-- The value of one decimal digit. -/
def digitValue (c : Char) : Nat :=
  c.toNat - '0'.toNat

/-- The number that a run of decimal digits writes. -/
def digitsValue (digits : List Char) : Nat :=
  digits.foldl (fun value c => value * 10 + digitValue c) 0

/-- Divide a text after its leading decimal digits. -/
def spanDigits (text : List Char) : List Char × List Char :=
  (text.takeWhile Char.isDigit, text.dropWhile Char.isDigit)

theorem spanDigits_append (text : List Char) :
    (spanDigits text).1 ++ (spanDigits text).2 = text := by
  simp [spanDigits]

/-- Take one leading sign off a text; the flag says whether it is a minus. -/
def takeSign : List Char → Bool × List Char
  | '-' :: rest => (true, rest)
  | '+' :: rest => (false, rest)
  | text => (false, text)

/-- Read a whole text as an integer of 64 bits: an optional sign and at least one digit. -/
def int64? (text : List Char) : Option Int64 :=
  let (negative, digits) := takeSign text
  let value : Int := if negative then -(digitsValue digits : Int) else digitsValue digits
  if digits ≠ [] ∧ digits.all Char.isDigit ∧ Int64.minValue.toInt ≤ value ∧
      value ≤ Int64.maxValue.toInt then
    some (Int64.ofInt value)
  else
    none

/-- The decimal digits of a natural number. -/
def natDigits (value : Nat) : List Char :=
  Nat.toDigits 10 value

/-- An integer with a minus if it is negative. -/
def intText (value : Int) : String :=
  String.ofList ((if value < 0 then ['-'] else []) ++ natDigits value.natAbs)

/-- One hexadecimal digit, in lower case. -/
def hexDigit (value : Nat) : Char :=
  if value < 10 then Char.ofNat ('0'.toNat + value) else Char.ofNat ('a'.toNat + value - 10)

/-- The last `width` hexadecimal digits of a number. -/
def hexDigits : Nat → Nat → List Char
  | 0, _ => []
  | width + 1, value => hexDigits width (value / 16) ++ [hexDigit (value % 16)]

/-- The value of a hexadecimal digit of either case. -/
def hexValue? (c : Char) : Option Nat :=
  if c.isDigit then some (digitValue c)
  else if 'a' ≤ c ∧ c ≤ 'f' then some (c.toNat - 'a'.toNat + 10)
  else if 'A' ≤ c ∧ c ≤ 'F' then some (c.toNat - 'A'.toNat + 10)
  else none

end Text
end GraphStore
