import GraphStore.Graph.Node
import GraphStore.Graph.Relationship

/-!
# Answers of statements
-/

namespace GraphStore
namespace Query

/-- What a statement that succeeds answers. -/
structure Answer where
  /-- What was done, in words. -/
  message : String
  /-- The nodes that were created or matched. -/
  nodes : List Node := []
  /-- The relationships that were created or matched. -/
  relationships : List Relationship := []
  deriving DecidableEq

namespace Answer

/-- Whether there are no nodes and no relationships. -/
def isEmpty (answer : Answer) : Bool :=
  answer.nodes.isEmpty && answer.relationships.isEmpty

/-- The JSON form. -/
def toJson (answer : Answer) : Json :=
  .object [("message", .text answer.message), ("nodes", .array (answer.nodes.map Node.toJson)),
    ("relationships", .array (answer.relationships.map Relationship.toJson))]

/-- Read an answer, all of whose fields must be present. -/
def ofJson? (json : Json) : Option Answer := do
  let fields ← json.record? ["message", "nodes", "relationships"]
  let message ← Json.required? fields "message" Json.asText?
  let nodes ← Json.required? fields "nodes" (Json.list? Node.ofJson?)
  let relationships ← Json.required? fields "relationships" (Json.list? Relationship.ofJson?)
  some ⟨message, nodes, relationships⟩

end Answer

/-- What is sent back for a statement. -/
inductive Response where
  /-- The statement succeeded. -/
  | success (answer : Answer)
  /-- The statement failed, with a message. -/
  | failure (message : String)
  deriving DecidableEq

namespace Response

/-- The JSON form. -/
def toJson : Response → Json
  | success answer => answer.toJson
  | failure message => .object [("error", .text message)]

/-- Read a failure from an object with the field `error`. -/
def failureOfJson? (json : Json) : Option Response := do
  let _ ← json.asObject?
  let fields ← json.record? ["error"]
  let message ← Json.required? fields "error" Json.asText?
  some (failure message)

/-- Read a response; what can be read as an answer is one. -/
def ofJson? (json : Json) : Option Response :=
  ((Answer.ofJson? json).map success).or (failureOfJson? json)

end Response
end Query
end GraphStore
