import GraphStore.Query.Response
import GraphStore.Query.Statement

/-!
# Matching

How patterns and conditions are evaluated on nodes and relationships.
-/

namespace GraphStore
namespace Query

/-- Whether a condition holds of an entity with given properties. -/
def Comparison.holds (comparison : Comparison) (properties : Properties) : Bool :=
  comparison.operator.holds (properties.get? comparison.property) comparison.literal

/-- Whether a node is what a pattern asks for. -/
def NodePattern.accepts (pattern : NodePattern) (node : Node) : Bool :=
  node.satisfies pattern.label pattern.properties

/-- The nodes that a pattern accepts, in their order. -/
def NodePattern.select (pattern : NodePattern) (nodes : List Node) : List Node :=
  nodes.filter pattern.accepts

/-- Whether a condition on a path holds when its entities are given.  The condition is about the
first entity whose pattern has its variable: left node, right node, relationship. -/
def Comparison.holdsOnPath (comparison : Comparison) (start : NodePattern) (segment : Segment)
    (left right : Node) (relationship : Relationship) : Bool :=
  if start.binds comparison.variableName then comparison.holds left.properties
  else if segment.target.binds comparison.variableName then comparison.holds right.properties
  else if segment.relationship.variableName = some comparison.variableName then
    comparison.holds relationship.properties
  else false

/-- The pairs of left and right node in which a relationship may be read. -/
def Direction.orientations (direction : Direction) (source target : Node) : List (Node × Node) :=
  match direction with
  | .outgoing => [(source, target)]
  | .incoming => [(target, source)]
  | .undirected => [(source, target), (target, source)]

/-- How a direction is called in a message. -/
def Direction.word : Direction → String
  | .outgoing => "directed"
  | .incoming => "bidirectional"
  | .undirected => "undirected"

/-- Whether a relationship between two nodes is what a path pattern with a condition asks for. -/
def Segment.accepts (segment : Segment) (start : NodePattern) (condition : Option Comparison)
    (relationship : Relationship) (source target : Node) : Bool :=
  relationship.satisfies segment.relationship.type segment.relationship.properties &&
    (segment.relationship.direction.orientations source target).any fun (left, right) =>
      start.accepts left && segment.target.accepts right &&
        condition.all fun comparison =>
          comparison.holdsOnPath start segment left right relationship

/-- The stored node with an id; of several the last one. -/
def nodeWithId? (nodes : List Node) (id : String) : Option Node :=
  nodes.reverse.find? fun node => node.id == id

/-- The relationships that a path pattern asks for, each with the nodes where it starts and ends.
A relationship whose nodes are not both stored is none of them. -/
def Segment.select (segment : Segment) (start : NodePattern) (condition : Option Comparison)
    (nodes : List Node) (relationships : List Relationship) :
    List (Relationship × Node × Node) :=
  relationships.filterMap fun relationship => do
    let source ← nodeWithId? nodes relationship.startNode
    let target ← nodeWithId? nodes relationship.endNode
    if segment.accepts start condition relationship source target then
      some (relationship, source, target)
    else none

/-- The nodes of a list whose ids did not occur before. -/
def distinctNodes (seen : List String) : List Node → List Node
  | [] => []
  | node :: rest =>
    if seen.contains node.id then distinctNodes seen rest
    else node :: distinctNodes (node.id :: seen) rest

/-- A number in a message. -/
def countText (count : Nat) : String :=
  String.ofList (Text.natDigits count)

/-- The answer of a match of one node without label, properties and condition. -/
def answerAll (nodes : List Node) (relationships : List Relationship) : Answer :=
  ⟨countText nodes.length ++ " nodes and " ++ countText relationships.length ++
    " relationships returned", nodes, relationships⟩

/-- The answer that lists matched nodes. -/
def answerNodes (nodes : List Node) (addition : String) : Answer :=
  ⟨countText nodes.length ++ " nodes matched" ++ addition, nodes, []⟩

/-- The answer that lists matched relationships and their nodes. -/
def answerPaths (direction : Direction) (paths : List (Relationship × Node × Node)) : Answer :=
  ⟨countText paths.length ++ " " ++ direction.word ++ " relationship(s) matched",
    distinctNodes [] (paths.flatMap fun (_, source, target) => [source, target]),
    paths.map Prod.fst⟩

end Query
end GraphStore
