import GraphStore.Command.Table
import GraphStore.Json.Writer
import GraphStore.Query.Response

/-!
# Output of commands

Answers are written as tables or as JSON; errors go to a stream of their own.
-/

namespace GraphStore

/-- A piece of output. -/
inductive Output where
  /-- Text for the standard output. -/
  | out (text : String)
  /-- Text for the error output. -/
  | err (text : String)
  deriving DecidableEq

/-- How answers are written. -/
inductive Format where
  | table
  | json
  deriving DecidableEq

namespace Output

/-- A line for the standard output. -/
def line (text : String) : Output :=
  out (text ++ "\n")

/-- An error message. -/
def error (message : String) : Output :=
  err ("Error: " ++ message ++ "\n")

/-- What was written to the standard output. -/
def outText (output : List Output) : String :=
  output.foldl (fun text piece => match piece with | out more => text ++ more | err _ => text) ""

/-- What was written to the error output. -/
def errText (output : List Output) : String :=
  output.foldl (fun text piece => match piece with | err more => text ++ more | out _ => text) ""

/-- Properties in a cell of a table. -/
def propertiesText (properties : Properties) : String :=
  "\x7b" ++ Text.joinWith ", " (properties.entries.map fun (key, value) =>
    key ++ ": " ++ value.display) ++ "\x7d"

/-- The table of nodes. -/
def nodeTable (nodes : List Node) : Table where
  header := ["id", "labels", "properties"]
  rows := nodes.map fun node =>
    [node.id, Text.joinWith ":" node.labels, propertiesText node.properties]

/-- The table of relationships. -/
def relationshipTable (relationships : List Relationship) : Table where
  header := ["id", "start_node", "type", "end_node", "properties"]
  rows := relationships.map fun relationship =>
    [relationship.id, relationship.startNode, relationship.type, relationship.endNode,
      propertiesText relationship.properties]

/-- The lines of a table, which is left out if it has no rows. -/
def ofTable (table : Table) : List Output :=
  if table.rows = [] then [] else table.lines.map line

/-- An answer as its message and tables. -/
def ofAnswer (answer : Query.Answer) : List Output :=
  line answer.message :: ofTable (nodeTable answer.nodes) ++
    ofTable (relationshipTable answer.relationships)

/-- A response in a format. -/
def ofResponse (response : Query.Response) : Format → List Output
  | .json => [line (response.toJson.write .indented)]
  | .table =>
    match response with
    | .success answer => ofAnswer answer
    | .failure message => [error message]

end Output
end GraphStore
