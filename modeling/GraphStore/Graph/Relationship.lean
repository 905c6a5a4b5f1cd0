import GraphStore.Graph.Codec

/-!
# Relationships
-/

namespace GraphStore

/-- A directed relationship between two nodes. -/
structure Relationship where
  /-- The id of the relationship. -/
  id : String
  /-- The id of the node where it starts. -/
  startNode : String
  /-- The id of the node where it ends. -/
  endNode : String
  /-- The type. -/
  type : String
  /-- The properties. -/
  properties : Properties
  deriving DecidableEq

namespace Relationship

/-- Set a property. -/
def setProperty (relationship : Relationship) (key : String) (value : Value) : Relationship :=
  { relationship with properties := relationship.properties.insert key value }

/-- Whether the relationship has a type, if one is asked for, and the required properties. -/
def satisfies (relationship : Relationship) (type : Option String) (required : Properties) :
    Bool :=
  type.all (relationship.type == ·) && relationship.properties.satisfies required

/-- The JSON form. -/
def toJson (relationship : Relationship) : Json :=
  .object [("id", .text relationship.id), ("start_node", .text relationship.startNode),
    ("end_node", .text relationship.endNode), ("type", .text relationship.type),
    ("properties", relationship.properties.toJson)]

/-- Read a relationship; the properties may be absent. -/
def ofJson? (json : Json) : Option Relationship := do
  let fields ← json.record? ["id", "start_node", "end_node", "type", "properties"]
  let id ← Json.required? fields "id" Json.asText?
  let startNode ← Json.required? fields "start_node" Json.asText?
  let endNode ← Json.required? fields "end_node" Json.asText?
  let type ← Json.required? fields "type" Json.asText?
  let properties ← Json.defaulted? fields "properties" Properties.ofJson? .empty
  some ⟨id, startNode, endNode, type, properties⟩

end Relationship
end GraphStore
