import GraphStore.Json.Record
import GraphStore.Properties

/-!
# JSON form of values and properties
-/

namespace GraphStore

namespace Value

/-- The JSON form of a value. -/
def toJson : Value → Json
  | boolean value => .boolean value
  | integer value => .integer value
  | double value => .double value
  | text value => .text value

/-- Read a value; null, arrays and objects are none. -/
def ofJson? : Json → Option Value
  | .boolean value => some (boolean value)
  | .integer value => some (integer value)
  | .double value => some (double value)
  | .text value => some (text value)
  | _ => none

@[simp]
theorem ofJson?_toJson (value : Value) : ofJson? value.toJson = some value := by
  cases value <;> rfl

end Value

namespace Properties

/-- The JSON form of properties, in their order. -/
def toJson (properties : Properties) : Json :=
  .object (properties.entries.map fun entry => (entry.1, entry.2.toJson))

/-- Read properties from an object; a repeated key keeps its first place and takes its last
value. -/
def ofJson? : Json → Option Properties
  | .object fields =>
    (fields.mapM fun field => (Value.ofJson? field.2).map fun value => (field.1, value)).map ofList
  | _ => none

end Properties
end GraphStore
