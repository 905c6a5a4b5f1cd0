import GraphStore.Json.Basic

/-!
# Records

A record is read from an object, in which fields of other names are skipped and no field of the
record may be repeated, or from an array with the fields in order, of which the last may be missing.
-/

namespace GraphStore
namespace Json

/-- The fields of a record with the given names. -/
def record? (names : List String) : Json → Option (List (String × Json))
  | object fields =>
    let known := fields.filter fun field => names.contains field.1
    if (known.map Prod.fst).Nodup then some known else none
  | array items => if items.length ≤ names.length then some (names.zip items) else none
  | _ => none

/-- Read a field that must be present. -/
def required? {α : Type} (fields : List (String × Json)) (name : String)
    (decode : Json → Option α) : Option α :=
  (fields.lookup name).bind decode

/-- Read a field that may be absent. -/
def defaulted? {α : Type} (fields : List (String × Json)) (name : String)
    (decode : Json → Option α) (fallback : α) : Option α :=
  match fields.lookup name with
  | none => some fallback
  | some value => decode value

/-- Read an array item by item. -/
def list? {α : Type} (decode : Json → Option α) : Json → Option (List α)
  | array items => items.mapM decode
  | _ => none

end Json
end GraphStore
