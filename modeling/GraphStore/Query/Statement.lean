import GraphStore.Operator
import GraphStore.Properties

/-!
# Statements

The statements of the query language: creation of nodes, of one relationship with its two end
nodes, or of an index, and matching of a pattern of one node or of one relationship between two.
-/

namespace GraphStore
namespace Query

/-- What is asked of a node. -/
structure NodePattern where
  /-- The variable that names the matched node. -/
  variableName : Option String := none
  /-- A label that the node must carry. -/
  label : Option String := none
  /-- Properties that the node must have. -/
  properties : Properties := .empty
  deriving DecidableEq

/-- Which way a relationship may point between two patterns. -/
inductive Direction where
  /-- From the left pattern to the right one. -/
  | outgoing
  /-- From the right pattern to the left one. -/
  | incoming
  /-- Either way. -/
  | undirected
  deriving DecidableEq

/-- What is asked of a relationship. -/
structure RelationshipPattern where
  /-- The variable that names the matched relationship. -/
  variableName : Option String
  /-- The type that the relationship must have. -/
  type : Option String
  /-- Properties that the relationship must have. -/
  properties : Properties
  /-- Which way the relationship points. -/
  direction : Direction
  deriving DecidableEq

/-- A relationship pattern with the node pattern on its right. -/
structure Segment where
  /-- The relationship. -/
  relationship : RelationshipPattern
  /-- The node on the right. -/
  target : NodePattern
  deriving DecidableEq

/-- One node, or two nodes with a relationship between them. -/
structure PathPattern where
  /-- The node, or the node on the left. -/
  start : NodePattern
  /-- What follows the first node. -/
  segment : Option Segment
  deriving DecidableEq

/-- A condition on one property of a named entity. -/
structure Comparison where
  /-- The variable of the entity. -/
  variableName : String
  /-- The property. -/
  property : String
  /-- How it is compared. -/
  operator : Operator
  /-- What it is compared with. -/
  literal : Value
  deriving DecidableEq

/-- A pattern, an optional condition, and the variables to return. -/
structure MatchQuery where
  /-- The pattern. -/
  pattern : PathPattern
  /-- The condition. -/
  condition : Option Comparison
  /-- The variables that are named after `RETURN`. -/
  returned : List String
  deriving DecidableEq

/-- A node to be created unless one like it exists. -/
structure NewNode where
  /-- Its label. -/
  label : String
  /-- Its properties. -/
  properties : Properties
  deriving DecidableEq

/-- One statement of the language. -/
inductive Statement where
  /-- Create nodes. -/
  | createNodes (nodes : List NewNode)
  /-- Create a relationship between two nodes. -/
  | createRelationship (start : NewNode) (type : String) (properties : Properties)
      (target : NewNode)
  /-- Create an index over a property of the nodes with a label. -/
  | createIndex (label property : String)
  /-- Match a pattern. -/
  | matching (query : MatchQuery)
  deriving DecidableEq

/-- Whether a node pattern names its node by a variable. -/
def NodePattern.binds (pattern : NodePattern) (name : String) : Bool :=
  pattern.variableName == some name

/-- Whether a path pattern names one of its entities by a variable. -/
def PathPattern.binds (pattern : PathPattern) (name : String) : Bool :=
  pattern.start.binds name ||
    match pattern.segment with
    | none => false
    | some segment =>
      segment.target.binds name || segment.relationship.variableName == some name

/-- The node that a labelled pattern asks to create. -/
def NodePattern.newNode? (pattern : NodePattern) : Option NewNode :=
  pattern.label.map fun label => ⟨label, pattern.properties⟩

end Query
end GraphStore
