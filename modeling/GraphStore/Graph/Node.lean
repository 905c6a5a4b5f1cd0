import GraphStore.Graph.Codec

/-!
# Nodes
-/

namespace GraphStore

/-- A node of the graph. -/
structure Node where
  /-- The id by which relationships and indexes refer to the node. -/
  id : String
  /-- The labels. -/
  labels : List String
  /-- The properties. -/
  properties : Properties
  deriving DecidableEq

namespace Node

/-- Whether the node carries a label. -/
def hasLabel (node : Node) (label : String) : Bool :=
  node.labels.contains label

/-- Add a label that the node does not carry yet. -/
def addLabel (node : Node) (label : String) : Node :=
  if node.hasLabel label then node else { node with labels := node.labels ++ [label] }

/-- Set a property. -/
def setProperty (node : Node) (key : String) (value : Value) : Node :=
  { node with properties := node.properties.insert key value }

/-- Whether the node carries a label, if one is asked for, and has the required properties. -/
def satisfies (node : Node) (label : Option String) (required : Properties) : Bool :=
  label.all node.hasLabel && node.properties.satisfies required

/-- The JSON form. -/
def toJson (node : Node) : Json :=
  .object [("id", .text node.id), ("labels", .array (node.labels.map .text)),
    ("properties", node.properties.toJson)]

/-- Read a node; labels and properties may be absent. -/
def ofJson? (json : Json) : Option Node := do
  let fields ← json.record? ["id", "labels", "properties"]
  let id ← Json.required? fields "id" Json.asText?
  let labels ← Json.defaulted? fields "labels" (Json.list? Json.asText?) []
  let properties ← Json.defaulted? fields "properties" Properties.ofJson? .empty
  some ⟨id, labels, properties⟩

end Node
end GraphStore
