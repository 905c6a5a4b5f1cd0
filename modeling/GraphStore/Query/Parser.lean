import GraphStore.Query.Grammar
import GraphStore.Text.Search

/-!
# Parsing of statements

The leading keyword decides which statement a text is read as, so that an error names the statement
that was attempted.
-/

namespace GraphStore
namespace Query

/-- Why a text is no statement. -/
inductive ParseError where
  /-- The text starts with no known keyword. -/
  | unsupportedQuery
  | invalidMatch
  | invalidCreate
  | invalidCreateRelationship
  | invalidCreateIndex
  /-- A condition compares by an unknown operator. -/
  | unsupportedOperator (symbol : String)
  /-- A text is no property list. -/
  | invalidProperties (text : String)
  deriving DecidableEq

/-- The message of a parse error. -/
def ParseError.message : ParseError → String
  | unsupportedQuery => "Unsupported query type"
  | invalidMatch => "Invalid MATCH syntax"
  | invalidCreate => "Invalid CREATE syntax"
  | invalidCreateRelationship => "Invalid CREATE with relationship syntax"
  | invalidCreateIndex => "Invalid CREATE INDEX syntax"
  | unsupportedOperator symbol => "Unsupported operator in WHERE clause: " ++ symbol
  | invalidProperties text => "Invalid property list: " ++ text

/-- Read the properties between two braces. -/
def parseProperties (text : String) : Except ParseError Properties :=
  match wholePropertyList.run? text.toList with
  | some properties => .ok properties
  | none => .error (.invalidProperties text)

/-- An index definition; the form with variables must use the variable that it introduces. -/
def IndexDefinition.statement (definition : IndexDefinition) : Except ParseError Statement :=
  match definition.variableNames with
  | some (introduced, used) =>
    if introduced = used then .ok (.createIndex definition.label definition.property)
    else .error .invalidCreateIndex
  | none => .ok (.createIndex definition.label definition.property)

/-- A path can be created if it points one way, both nodes have labels and the relationship has a
type. -/
def createdPath? (left : NodePattern) (segment : Segment) : Option Statement := do
  let left ← left.newNode?
  let right ← segment.target.newNode?
  let type ← segment.relationship.type
  match segment.relationship.direction with
  | .outgoing => some (.createRelationship left type segment.relationship.properties right)
  | .incoming => some (.createRelationship right type segment.relationship.properties left)
  | .undirected => none

/-- What a creation asks for. -/
def Creation.statement : Creation → Except ParseError Statement
  | path start segment =>
    match createdPath? start segment with
    | some statement => .ok statement
    | none => .error .invalidCreateRelationship
  | nodes patterns =>
    match patterns.mapM NodePattern.newNode? with
    | some created => .ok (.createNodes created)
    | none => .error .invalidCreate

/-- Whether a text that is no creation was meant to create a relationship. -/
def looksLikeRelationship (text : List Char) : Bool :=
  ["-[", "]-", "->", "<-"].any fun part => Text.contains part.toList text

/-- A match statement with its operator looked up. -/
def RawMatch.statement (raw : RawMatch) : Except ParseError Statement :=
  match raw.condition with
  | none => .ok (.matching ⟨raw.pattern, none, raw.returned⟩)
  | some ⟨variableName, property, symbol, literal⟩ =>
    match Operator.ofSymbol? symbol with
    | none => .error (.unsupportedOperator symbol)
    | some operator =>
      .ok (.matching ⟨raw.pattern, some ⟨variableName, property, operator, literal⟩, raw.returned⟩)

/-- Read a text that starts with the keyword of creations. -/
def parseCreate (text : List Char) : Except ParseError Statement :=
  match creation.run? text with
  | some creation => creation.statement
  | none =>
    .error (if looksLikeRelationship text then .invalidCreateRelationship else .invalidCreate)

/-- Read a text that starts with the keywords of index creations. -/
def parseCreateIndex (text : List Char) : Except ParseError Statement :=
  match indexCreation.run? text with
  | some definition => definition.statement
  | none => .error .invalidCreateIndex

/-- Read a text that starts with the keyword of matches. -/
def parseMatch (text : List Char) : Except ParseError Statement :=
  match matchStatement.run? text with
  | some raw => raw.statement
  | none => .error .invalidMatch

/-- Read a statement. -/
def parse (source : String) : Except ParseError Statement :=
  let text := Text.trim source.toList
  if Text.startsWith "CREATE".toList text then
    if Text.startsWith "INDEX".toList ((text.drop 6).dropWhile Text.isBlank) then
      parseCreateIndex text
    else parseCreate text
  else if Text.startsWith "MATCH".toList text then parseMatch text
  else .error .unsupportedQuery

end Query
end GraphStore
