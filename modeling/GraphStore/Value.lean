import GraphStore.Double.Layout

/-!
# Property values

A property value is a truth value, an integer of 64 bits, a double or a text.  Values are compared
in three ways: typed equality, equality of key texts (which index buckets and property patterns
use), and the loose order of `WHERE`, which is numeric when both sides can be read as numbers and
otherwise the order of the key texts.
-/

namespace GraphStore

/-- The value of one property. -/
inductive Value where
  /-- A truth value. -/
  | boolean (value : Bool)
  /-- An integer of 64 bits. -/
  | integer (value : Int64)
  /-- A double. -/
  | double (value : Double)
  /-- A text. -/
  | text (value : String)
  deriving DecidableEq

namespace Value

/-- Key texts write doubles positionally; whole numbers below `10 ^ 16` end in `.0`. -/
def keyLayout : Layout where
  tie := .away
  positional _ := true
  pointZero leading := leading < 16
  nanText := "NaN"
  infinityText negative := if negative then "-inf" else "inf"

/-- The text under which an index files a value. -/
def keyText : Value → String
  | boolean value => if value then "true" else "false"
  | integer value => Text.intText value.toInt
  | double value => keyLayout.text value
  | text value => value

/-- The text of a value in a table: the key text, in double quotes if the value is a text. -/
def display : Value → String
  | text value => "\"" ++ value ++ "\""
  | value => value.keyText

/-- The text, if the value is one. -/
def asText? : Value → Option String
  | text value => some value
  | _ => none

/-- The integer, if the value is one. -/
def asInteger? : Value → Option Int64
  | integer value => some value
  | _ => none

/-- The number that a value can be read as: truth values are one and zero, and a text counts if,
trimmed, it writes a double. -/
def asNumber? : Value → Option Double
  | boolean value => some (Double.ofInt (if value then 1 else 0))
  | integer value => some (Double.ofInt value.toInt)
  | double value => some value
  | text value => Double.ofText? (Text.trim value.toList)

/-- Equality of kind and value, in which doubles are equal as numbers. -/
def equals : Value → Value → Bool
  | boolean left, boolean right => left == right
  | integer left, integer right => left == right
  | double left, double right => left.equals right
  | text left, text right => left == right
  | _, _ => false

/-- Equality of key texts. -/
def looselyEquals (left right : Value) : Bool :=
  left.keyText == right.keyText

/-- The loose order; two numbers of which one is a NaN have none. -/
def compare? (left right : Value) : Option Ordering :=
  match left.asNumber?, right.asNumber? with
  | some leftNumber, some rightNumber => leftNumber.compare? rightNumber
  | _, _ => some (compare left.keyText right.keyText)

/-- The value that a literal writes.  Quotes are removed from both ends, double ones first, before
the text is typed as a truth value, a double (if it has a point), an integer, or itself. -/
def ofLiteral (literal : List Char) : Value :=
  let bare := Text.strip (· == '\'') (Text.strip (· == '"') (Text.trim literal))
  let number := Text.trim bare
  if Text.equalsIgnoringCase bare "true".toList then boolean true
  else if Text.equalsIgnoringCase bare "false".toList then boolean false
  else if '.' ∈ number then
    ((Double.ofText? number).map double).getD (text (String.ofList bare))
  else
    ((Text.int64? number).map integer).getD (text (String.ofList bare))

end Value
end GraphStore
