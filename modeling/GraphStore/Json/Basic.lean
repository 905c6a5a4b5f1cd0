import GraphStore.Double.Layout
import GraphStore.SortedMap

/-!
# JSON values

Numbers are integers of 64 bits or doubles, and the fields of an object stay in written order.
A number beyond the doubles and a text that is no sequence of characters (a lone surrogate) are
well-formed but have no value; they are kept as `unreadable`, because a reader may meet them in a
part that it skips.
-/

namespace GraphStore

/-- A JSON value. -/
inductive Json where
  | null
  | boolean (value : Bool)
  | integer (value : Int64)
  | double (value : Double)
  | text (value : String)
  | array (items : List Json)
  | object (fields : List (String × Json))
  /-- Well-formed text that has no value. -/
  | unreadable

namespace Json

instance : Inhabited Json :=
  ⟨null⟩

/-! ## Readability and depth -/

mutual

/-- Whether every part of a value is readable. -/
def readable : Json → Bool
  | unreadable => false
  | array items => readableItems items
  | object fields => readableFields fields
  | _ => true

/-- Whether every item of an array is readable. -/
def readableItems : List Json → Bool
  | [] => true
  | item :: rest => item.readable && readableItems rest

/-- Whether every field of an object is readable. -/
def readableFields : List (String × Json) → Bool
  | [] => true
  | (_, value) :: rest => value.readable && readableFields rest

end

mutual

/-- How many arrays and objects are nested in one another. -/
def depth : Json → Nat
  | array items => depthOfItems items + 1
  | object fields => depthOfFields fields + 1
  | _ => 0

/-- The greatest depth among the items of an array. -/
def depthOfItems : List Json → Nat
  | [] => 0
  | item :: rest => max item.depth (depthOfItems rest)

/-- The greatest depth among the fields of an object. -/
def depthOfFields : List (String × Json) → Nat
  | [] => 0
  | (_, value) :: rest => max value.depth (depthOfFields rest)

end

/-! ## Sorted objects -/

mutual

/-- Sort the fields of every object by key; of several fields with one key the last stays. -/
def sorted : Json → Json
  | array items => array (sortedItems items)
  | object fields => object (SortedMap.ofList (sortedFields fields)).entries
  | value => value

/-- Sort within the items of an array. -/
def sortedItems : List Json → List Json
  | [] => []
  | item :: rest => item.sorted :: sortedItems rest

/-- Sort within the values of an object. -/
def sortedFields : List (String × Json) → List (String × Json)
  | [] => []
  | (key, value) :: rest => (key, value.sorted) :: sortedFields rest

end

/-! ## Access -/

/-- The value of the first field with a given key. -/
def field? : Json → String → Option Json
  | object fields, key => fields.lookup key
  | _, _ => none

/-- The text, if the value is one. -/
def asText? : Json → Option String
  | text value => some value
  | _ => none

/-- The fields, if the value is an object. -/
def asObject? : Json → Option (List (String × Json))
  | object fields => some fields
  | _ => none

/-- Whether the value is an object. -/
def isObject : Json → Bool
  | object _ => true
  | _ => false

end Json
end GraphStore
