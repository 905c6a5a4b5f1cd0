import GraphStore.Query.Statement
import GraphStore.Text.Scanner

/-!
# Grammar of the query language

Tokens may be set apart by spaces, tabs and line ends.  Keywords are in upper case and do not run on
into a name.  A property value is a quoted text if what follows it ends the value, and otherwise
everything up to the next comma or closing brace.
-/

namespace GraphStore
namespace Query

open Scanner

/-! ## Tokens -/

/-- The characters that may stand between tokens. -/
def isSpace (c : Char) : Bool :=
  c == ' ' || c == '\t' || c == '\r' || c == '\n'

/-- Letters, digits and the underscore of ASCII. -/
def isNameChar (c : Char) : Bool :=
  c.isAlphanum || c == '_'

/-- What a name may start with. -/
def isNameStart (c : Char) : Bool :=
  c.isAlpha || c == '_'

/-- Drop the spaces in front of a token and take it. -/
def token {α : Type} (scanner : Scanner α) : Scanner α := do
  let _ ← span isSpace
  scanner

/-- Take a punctuation mark. -/
def mark (text : String) : Scanner Unit :=
  token (exactly text.toList)

/-- Take a word that does not run on into a name. -/
def word (text : String) : Scanner Unit := do
  exactly text.toList
  ahead fun rest => (rest.head?.map isNameChar) != some true

/-- Take a keyword. -/
def keyword (text : String) : Scanner Unit :=
  token (word text)

/-- Take a name. -/
def name : Scanner String :=
  token do
    ahead fun rest => (rest.head?.map isNameStart) == some true
    let chars ← span1 isNameChar
    pure (String.ofList chars)

/-- Take a text between two quotes of one kind; the result is what stands between them. -/
def quotedBy (quote : Char) : Scanner (List Char) := do
  exactly [quote]
  let content ← span (· != quote)
  exactly [quote]
  pure content

/-- Take a quoted text with its quotes. -/
def quoted : Scanner (List Char) :=
  (do pure ('"' :: (← quotedBy '"') ++ ['"'])) <|> (do pure ('\'' :: (← quotedBy '\'') ++ ['\'']))

/-- Whether the rest of the text ends a property value. -/
def endsValue (rest : List Char) : Bool :=
  match (rest.dropWhile isSpace).head? with
  | none => true
  | some c => c == ',' || c == '\x7d'

/-! ## Properties -/

/-- Take a property key, which is a name or a quoted text. -/
def propertyKey : Scanner String :=
  token (do pure (String.ofList (← quotedBy '"'))) <|>
    token (do pure (String.ofList (← quotedBy '\''))) <|> name

/-- Take the text of a property value. -/
def propertyValue : Scanner (List Char) :=
  token ((do
    let text ← quoted
    ahead endsValue
    pure text) <|> span1 (fun c => c != ',' && c != '\x7d'))

/-- Take a key and its value. -/
def property : Scanner (String × Value) := do
  let key ← propertyKey
  mark ":"
  let text ← propertyValue
  pure (key, Value.ofLiteral text)

/-- Take one item or several with commas between them. -/
def commaSeparated {α : Type} (item : Scanner α) : Scanner (List α) := do
  let first ← item
  let rest ← many (do mark ","; item)
  pure (first :: rest)

/-- Take properties without their braces. -/
def propertyList : Scanner Properties := do
  let entries ← optional (commaSeparated property)
  pure (Properties.ofList (entries.getD []))

/-- Take properties in braces. -/
def propertyBlock : Scanner Properties := do
  mark "\x7b"
  let properties ← propertyList
  mark "\x7d"
  pure properties

/-! ## Patterns -/

/-- Take a colon and a name. -/
def afterColon : Scanner String := do
  mark ":"
  name

/-- Take a node pattern. -/
def nodePattern : Scanner NodePattern := do
  mark "("
  let variableName ← optional name
  let label ← optional afterColon
  let properties ← optional propertyBlock
  mark ")"
  pure ⟨variableName, label, properties.getD .empty⟩

/-- What stands in the brackets of a relationship. -/
structure Detail where
  /-- The variable. -/
  variableName : Option String := none
  /-- The type. -/
  type : Option String := none
  /-- The properties. -/
  properties : Properties := .empty

/-- Take the brackets of a relationship. -/
def detail : Scanner Detail := do
  mark "["
  let variableName ← optional name
  let type ← optional afterColon
  let properties ← optional propertyBlock
  mark "]"
  pure ⟨variableName, type, properties.getD .empty⟩

/-- Take an arrow with given ends around optional brackets. -/
def arrow (direction : Direction) (left right : String) : Scanner RelationshipPattern := do
  mark left
  let inside ← optional detail
  mark right
  let inside := inside.getD {}
  pure ⟨inside.variableName, inside.type, inside.properties, direction⟩

/-- Take a relationship pattern. -/
def relationshipPattern : Scanner RelationshipPattern :=
  arrow .outgoing "-" "->" <|> arrow .incoming "<-" "-" <|> arrow .undirected "-" "-"

/-- Take a relationship pattern and the node pattern after it. -/
def segment : Scanner Segment := do
  let relationship ← relationshipPattern
  let target ← nodePattern
  pure ⟨relationship, target⟩

/-- Take a path pattern. -/
def pathPattern : Scanner PathPattern := do
  let start ← nodePattern
  let segment ← optional segment
  pure ⟨start, segment⟩

/-! ## Clauses -/

/-- Take the digits of a number with an optional minus and fraction. -/
def number : Scanner (List Char) := do
  let minus ← optional (exactly ['-'])
  let whole ← span1 Char.isDigit
  let fraction ← optional (do exactly ['.']; span1 Char.isDigit)
  pure ((if minus.isSome then ['-'] else []) ++ whole ++
    (match fraction with | some digits => '.' :: digits | none => []))

/-- Take a truth value. -/
def truthValue : Scanner (List Char) :=
  ["true", "false", "TRUE", "FALSE", "True", "False"].foldr
    (fun text others => (do word text; pure text.toList) <|> others) failure

/-- Take the text of a literal. -/
def literal : Scanner (List Char) :=
  token (quoted <|> number <|> truthValue)

/-- The characters of which comparison operators are made. -/
def isOperatorChar (c : Char) : Bool :=
  c == '=' || c == '!' || c == '<' || c == '>' || c == '~'

/-- A condition whose operator has not been looked up yet. -/
structure RawComparison where
  /-- The variable of the entity. -/
  variableName : String
  /-- The property. -/
  property : String
  /-- The written operator. -/
  symbol : String
  /-- What the property is compared with. -/
  literal : Value

/-- Take a condition. -/
def whereClause : Scanner RawComparison := do
  keyword "WHERE"
  let variableName ← name
  mark "."
  let property ← name
  let symbol ← token (span1 isOperatorChar)
  let text ← literal
  pure ⟨variableName, property, String.ofList symbol, Value.ofLiteral text⟩

/-- Take the returned variables. -/
def returnClause : Scanner (List String) := do
  keyword "RETURN"
  commaSeparated name

/-- Take the end of a statement: an optional semicolon and nothing more. -/
def statementEnd : Scanner Unit := do
  let _ ← optional (mark ";")
  token finish

/-! ## Statements -/

/-- The patterns of a creation: a path, or nodes. -/
inductive Creation where
  /-- Two nodes and a relationship between them. -/
  | path (start : NodePattern) (segment : Segment)
  /-- Nodes. -/
  | nodes (patterns : List NodePattern)

/-- Take a whole creation. -/
def creation : Scanner Creation := do
  keyword "CREATE"
  let created ← (do
    let start ← nodePattern
    let segment ← segment
    pure (Creation.path start segment)) <|> Creation.nodes <$> commaSeparated nodePattern
  statementEnd
  pure created

/-- The parts of an index definition: its label, its property, and the two variables if the form
with variables is used. -/
structure IndexDefinition where
  /-- The label. -/
  label : String
  /-- The property. -/
  property : String
  /-- The variable that is introduced and the one that is used. -/
  variableNames : Option (String × String)

/-- Take the short form of an index definition. -/
def indexOn : Scanner IndexDefinition := do
  keyword "ON"
  let label ← afterColon
  mark "("
  let property ← name
  mark ")"
  pure ⟨label, property, none⟩

/-- Take the form of an index definition with variables. -/
def indexFor : Scanner IndexDefinition := do
  keyword "FOR"
  mark "("
  let introduced ← name
  let label ← afterColon
  mark ")"
  keyword "ON"
  mark "("
  let used ← name
  mark "."
  let property ← name
  mark ")"
  pure ⟨label, property, some (introduced, used)⟩

/-- Take a whole index creation. -/
def indexCreation : Scanner IndexDefinition := do
  keyword "CREATE"
  keyword "INDEX"
  let definition ← indexOn <|> indexFor
  statementEnd
  pure definition

/-- A match statement whose operator has not been looked up yet. -/
structure RawMatch where
  /-- The pattern. -/
  pattern : PathPattern
  /-- The condition. -/
  condition : Option RawComparison
  /-- The returned variables. -/
  returned : List String

/-- Take a whole match statement. -/
def matchStatement : Scanner RawMatch := do
  keyword "MATCH"
  let pattern ← pathPattern
  let condition ← optional whereClause
  let returned ← returnClause
  statementEnd
  pure ⟨pattern, condition, returned⟩

/-- Take a property list that is a whole text. -/
def wholePropertyList : Scanner Properties := do
  let properties ← propertyList
  token finish
  pure properties

end Query
end GraphStore
