import GraphStore.Json.Quoted
import GraphStore.Text.Digits

/-!
# Writing JSON

A value is written on one line, or indented by two spaces with one item or field a line.
-/

namespace GraphStore
namespace Json

/-- Doubles are positional for leading digits from `10 ^ (-5)` to `10 ^ 15` and scientific
elsewhere, and whole numbers end in `.0`; what is no finite number is null. -/
def doubleLayout : Layout where
  tie := .even
  positional leading := -5 ≤ leading && leading ≤ 15
  pointZero _ := true
  nanText := "null"
  infinityText _ := "null"

/-- How the parts of a value are set apart. -/
inductive Style where
  /-- All on one line without spaces. -/
  | compact
  /-- One item or field a line, indented by two spaces for each level. -/
  | indented
  deriving DecidableEq

namespace Style

/-- What stands before an item at a given level. -/
def lineBreak : Style → Nat → List Char
  | compact, _ => []
  | indented, level => '\n' :: List.replicate (2 * level) ' '

/-- What stands between a key and its value. -/
def afterKey : Style → List Char
  | compact => [':']
  | indented => [':', ' ']

end Style

mutual

/-- Write a value that stands at a given level. -/
def writeAt (style : Style) (level : Nat) : Json → List Char
  | null => "null".toList
  | boolean value => (if value then "true" else "false").toList
  | integer value => (Text.intText value.toInt).toList
  | double value => (doubleLayout.text value).toList
  | text value => Quoted.write value
  | array [] => "[]".toList
  | array (item :: rest) =>
    '[' :: style.lineBreak (level + 1) ++ writeAt style (level + 1) item ++
      writeItems style (level + 1) rest ++ style.lineBreak level ++ [']']
  | object [] => ['\x7b', '\x7d']
  | object ((key, value) :: rest) =>
    '\x7b' :: style.lineBreak (level + 1) ++ Quoted.write key ++ style.afterKey ++
      writeAt style (level + 1) value ++ writeFields style (level + 1) rest ++
      style.lineBreak level ++ ['\x7d']
  | unreadable => "null".toList

/-- Write the items after the first. -/
def writeItems (style : Style) (level : Nat) : List Json → List Char
  | [] => []
  | item :: rest =>
    ',' :: style.lineBreak level ++ writeAt style level item ++ writeItems style level rest

/-- Write the fields after the first. -/
def writeFields (style : Style) (level : Nat) : List (String × Json) → List Char
  | [] => []
  | (key, value) :: rest =>
    ',' :: style.lineBreak level ++ Quoted.write key ++ style.afterKey ++
      writeAt style level value ++ writeFields style level rest

end

/-- The text of a value. -/
def write (style : Style) (json : Json) : String :=
  String.ofList (writeAt style 0 json)

end Json
end GraphStore
