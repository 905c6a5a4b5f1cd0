import GraphStore.Proofs.Graph.Stored
import GraphStore.Proofs.Query.Readings
import Mathlib.Data.List.Dedup

/-!
# Written statements

The statements of the language as they are written, token by token, and what each of them asks for.
What is written holds more than what is asked for: a variable of a created node, a pair of empty
brackets or braces, and the side to which an arrow points are lost.
-/

namespace GraphStore

/-- The properties that entries mean which are written one after the other: each key stands where it
is first written, and has the value that is written last. -/
def Properties.ofWritten (entries : List (String × Value)) : Properties where
  entries := (entries.map Prod.fst).reverse.dedup.reverse.filterMap fun key =>
    (entries.reverse.lookup key).map fun value => (key, value)
  keys_nodup := by
    rw [List.map_filterMap]
    refine List.Nodup.filterMap ?_ (List.nodup_reverse.2 (List.nodup_dedup _))
    intro left right key atLeft atRight
    simp only [Option.mem_def, Option.map_eq_some_iff] at atLeft atRight
    obtain ⟨-, ⟨_, -, rfl⟩, rfl⟩ := atLeft
    obtain ⟨-, ⟨_, -, rfl⟩, rfl⟩ := atRight
    rfl

namespace Properties

theorem keys_insertEntry (key : String) (value : Value) (entries : List (String × Value)) :
    (insertEntry key value entries).map Prod.fst =
      if key ∈ entries.map Prod.fst then entries.map Prod.fst
      else entries.map Prod.fst ++ [key] := by
  induction entries with
  | nil => rfl
  | cons entry rest ih =>
      by_cases same : entry.1 = key
      · simp [insertEntry, same]
      · simp only [insertEntry, same, if_false, List.map_cons, ih, List.mem_cons, Ne.symm same,
          false_or]
        split <;> rfl

theorem lookup_insertEntry (key other : String) (value : Value)
    (entries : List (String × Value)) :
    (insertEntry key value entries).lookup other =
      if other = key then some value else entries.lookup other := by
  induction entries with
  | nil => rw [insertEntry, SortedMap.lookup_cons_eq]
  | cons entry rest ih =>
      rw [insertEntry, SortedMap.lookup_cons_eq]
      split
      · next same => rw [SortedMap.lookup_cons_eq, same]; split <;> rfl
      · next different =>
          rw [SortedMap.lookup_cons_eq, ih]
          by_cases equal : other = entry.1
          · rw [if_pos equal, if_neg (equal ▸ different), if_pos equal]
          · rw [if_neg equal, if_neg equal]

theorem ofList_concat (entries : List (String × Value)) (entry : String × Value) :
    ofList (entries ++ [entry]) = (ofList entries).insert entry.1 entry.2 := by
  rw [ofList, List.foldl_append]
  rfl

theorem keys_ofList (entries : List (String × Value)) :
    (ofList entries).keys = (entries.map Prod.fst).reverse.dedup.reverse := by
  induction entries using List.reverseRec with
  | nil => rfl
  | append_singleton entries entry ih =>
      have member : entry.1 ∈ (entries.map Prod.fst).reverse.dedup.reverse ↔
          entry.1 ∈ (entries.map Prod.fst).reverse := by
        rw [List.mem_reverse, List.mem_dedup]
      rw [ofList_concat, List.map_append, List.reverse_append]
      refine (keys_insertEntry ..).trans ?_
      change (if entry.1 ∈ (ofList entries).keys then (ofList entries).keys
        else (ofList entries).keys ++ [entry.1]) =
          (entry.1 :: (entries.map Prod.fst).reverse).dedup.reverse
      rw [ih]
      by_cases known : entry.1 ∈ (entries.map Prod.fst).reverse
      · rw [if_pos (member.2 known), List.dedup_cons_of_mem known]
      · rw [if_neg (fun found => known (member.1 found)), List.dedup_cons_of_notMem known,
          List.reverse_cons]

theorem get?_ofList (entries : List (String × Value)) (key : String) :
    (ofList entries).get? key = entries.reverse.lookup key := by
  induction entries using List.reverseRec with
  | nil => rfl
  | append_singleton entries entry ih =>
      rw [ofList_concat, List.reverse_append]
      refine (lookup_insertEntry ..).trans ?_
      change (if key = entry.1 then some entry.2 else (ofList entries).get? key) = _
      rw [ih]
      exact (SortedMap.lookup_cons_eq ..).symm

theorem eq_filterMap_lookup (entries : List (String × Value))
    (distinct : (entries.map Prod.fst).Nodup) :
    entries = (entries.map Prod.fst).filterMap fun key =>
      (entries.lookup key).map fun value => (key, value) := by
  induction entries with
  | nil => rfl
  | cons entry rest ih =>
      obtain ⟨fresh, distinctRest⟩ := List.nodup_cons.1 distinct
      have others : ∀ key ∈ rest.map Prod.fst,
          ((entry :: rest).lookup key).map (fun value => (key, value)) =
            (rest.lookup key).map fun value => (key, value) := by
        intro key member
        have different : key ≠ entry.1 := fun same => fresh (same ▸ member)
        rw [SortedMap.lookup_cons_eq, if_neg different]
      rw [List.map_cons, List.filterMap_cons, SortedMap.lookup_cons_eq, if_pos rfl,
        List.filterMap_congr others, ← ih distinctRest]
      rfl

/-- Keys that are set one after the other end up where they were first set, with the value that was
set last. -/
theorem ofList_eq_ofWritten (entries : List (String × Value)) :
    ofList entries = ofWritten entries := by
  apply ext_entries
  refine (eq_filterMap_lookup _ (ofList entries).keys_nodup).trans ?_
  change ((ofList entries).keys.filterMap fun key =>
    ((ofList entries).get? key).map fun value => (key, value)) = _
  simp only [keys_ofList, get?_ofList]
  rfl

end Properties

namespace Query

/-! ## Properties -/

/-- A property key as it is written. -/
inductive Key where
  | name (written : Name)
  | quoted (written : Quoted)

namespace Key

/-- The token of a key. -/
def token : Key → Token
  | name written => .name written
  | quoted written => .quoted written

/-- The key itself, without quotes. -/
def text : Key → String
  | name written => written.text
  | quoted written => String.ofList written.content

end Key

/-- A property value as it is written. -/
inductive FieldValue where
  | quoted (written : Quoted)
  | bare (written : Bare)

/-- The token of a property value. -/
def FieldValue.token : FieldValue → Token
  | quoted written => .quoted written
  | bare written => .bare written

/-- A property as it is written. -/
structure Field where
  /-- The key. -/
  key : Key
  /-- The value. -/
  value : FieldValue

namespace Field

/-- The tokens of a property. -/
def tokens (field : Field) : List Token :=
  [field.key.token, .mark .colon, field.value.token]

/-- The key and the value that a property means. -/
def entry (field : Field) : String × Value :=
  (field.key.text, Value.ofLiteral field.value.token.text)

end Field

/-- The tokens of items with commas between them. -/
def separatedTokens {β : Type} (tokensOf : β → List Token) : List β → List Token
  | [] => []
  | item :: items => tokensOf item ++ furtherTokens tokensOf items

/-- The tokens of properties in braces. -/
def blockTokens (fields : List Field) : List Token :=
  .mark .leftBrace :: (separatedTokens Field.tokens fields ++ [.mark .rightBrace])

/-! ## Patterns -/

/-- What is written of a node between its parentheses, or of a relationship between its brackets. -/
structure Entity where
  /-- The variable. -/
  variableName : Option Name
  /-- The label of a node or the type of a relationship. -/
  kind : Option Name
  /-- The properties; the braces may be empty. -/
  block : Option (List Field)

namespace Entity

/-- The tokens of an entity between two marks. -/
def tokens (entity : Entity) (left right : Mark) : List Token :=
  .mark left :: (optionTokens (fun written => [.name written]) entity.variableName ++
    (optionTokens (fun written => [.mark .colon, .name written]) entity.kind ++
      (optionTokens blockTokens entity.block ++ [.mark right])))

/-- The tokens of a node. -/
def nodeTokens (entity : Entity) : List Token :=
  entity.tokens .leftParenthesis .rightParenthesis

/-- The properties that are asked for. -/
def properties (entity : Entity) : Properties :=
  .ofWritten ((entity.block.getD []).map Field.entry)

/-- What is asked of a node. -/
def node (entity : Entity) : NodePattern :=
  ⟨entity.variableName.map Name.text, entity.kind.map Name.text, entity.properties⟩

/-- What is asked of a relationship. -/
def relationship (entity : Entity) (direction : Direction) : RelationshipPattern :=
  ⟨entity.variableName.map Name.text, entity.kind.map Name.text, entity.properties, direction⟩

end Entity

/-- An arrow with optional brackets in it. -/
structure Link where
  /-- Which way the arrow points. -/
  direction : Direction
  /-- What stands in the brackets. -/
  inside : Option Entity

namespace Link

/-- The mark at the left end of an arrow. -/
def left : Direction → Mark
  | .outgoing | .undirected => .dash
  | .incoming => .leftArrow

/-- The mark at the right end of an arrow. -/
def right : Direction → Mark
  | .outgoing => .rightArrow
  | .incoming | .undirected => .dash

/-- The tokens of an arrow. -/
def tokens (link : Link) : List Token :=
  .mark (left link.direction) ::
    (optionTokens (fun entity => entity.tokens .leftBracket .rightBracket) link.inside ++
      [.mark (right link.direction)])

/-- What is asked of the relationship. -/
def relationship (link : Link) : RelationshipPattern :=
  (link.inside.getD ⟨none, none, none⟩).relationship link.direction

end Link

/-! ## Statements -/

/-- A literal as it is written. -/
inductive Literal where
  | quoted (written : Quoted)
  | number (written : Number)
  | truth (written : Truth)

/-- The token of a literal. -/
def Literal.token : Literal → Token
  | quoted written => .quoted written
  | number written => .number written
  | truth written => .truth written

/-- A condition as it is written. -/
structure Condition where
  /-- The variable of the entity. -/
  variableName : Name
  /-- The property. -/
  property : Name
  /-- How it is compared. -/
  operator : Operator
  /-- What it is compared with. -/
  literal : Literal

namespace Condition

/-- The tokens of a condition. -/
def tokens (condition : Condition) : List Token :=
  [.keyword .condition, .name condition.variableName, .mark .point, .name condition.property,
    .operator condition.operator, condition.literal.token]

/-- The condition that is asked for. -/
def comparison (condition : Condition) : Comparison :=
  ⟨condition.variableName.text, condition.property.text, condition.operator,
    Value.ofLiteral condition.literal.token.text⟩

end Condition

/-- A node that is to be created, as it is written. -/
structure CreatedNode where
  /-- The variable. -/
  variableName : Option Name
  /-- The label. -/
  label : Name
  /-- The properties. -/
  block : Option (List Field)

namespace CreatedNode

/-- What is written between the parentheses. -/
def entity (created : CreatedNode) : Entity :=
  ⟨created.variableName, some created.label, created.block⟩

/-- The node that is asked for. -/
def node (created : CreatedNode) : NewNode :=
  ⟨created.label.text, created.entity.properties⟩

end CreatedNode

/-- A path that is to be created, as it is written. -/
structure CreatedPath where
  /-- The node on the left. -/
  left : CreatedNode
  /-- The node on the right. -/
  right : CreatedNode
  /-- Whether the arrow points to the left. -/
  pointsLeft : Bool
  /-- The variable of the relationship. -/
  variableName : Option Name
  /-- The type of the relationship. -/
  type : Name
  /-- The properties of the relationship. -/
  block : Option (List Field)

namespace CreatedPath

/-- What is written between the brackets. -/
def entity (path : CreatedPath) : Entity :=
  ⟨path.variableName, some path.type, path.block⟩

/-- The arrow. -/
def link (path : CreatedPath) : Link :=
  ⟨if path.pointsLeft then .incoming else .outgoing, some path.entity⟩

/-- The tokens of a path. -/
def tokens (path : CreatedPath) : List Token :=
  path.left.entity.nodeTokens ++ (path.link.tokens ++ path.right.entity.nodeTokens)

/-- The relationship that is asked for; it starts where the arrow does. -/
def statement (path : CreatedPath) : Statement :=
  if path.pointsLeft then
    .createRelationship path.right.node path.type.text path.entity.properties path.left.node
  else
    .createRelationship path.left.node path.type.text path.entity.properties path.right.node

end CreatedPath

/-- A match statement as it is written. -/
structure WrittenMatch where
  /-- The first node. -/
  start : Entity
  /-- The arrow and the second node. -/
  segment : Option (Link × Entity)
  /-- The condition. -/
  condition : Option Condition
  /-- The first variable to return. -/
  first : Name
  /-- The other variables to return. -/
  others : List Name

namespace WrittenMatch

/-- The tokens of a match statement. -/
def tokens (written : WrittenMatch) : List Token :=
  .keyword .matching :: (written.start.nodeTokens ++
    (optionTokens (fun (link, target) => link.tokens ++ target.nodeTokens) written.segment ++
      (optionTokens Condition.tokens written.condition ++
        .keyword .returned :: separatedTokens (fun returned => [.name returned])
          (written.first :: written.others))))

/-- What is asked for. -/
def query (written : WrittenMatch) : MatchQuery where
  pattern := ⟨written.start.node,
    written.segment.map fun (link, target) => ⟨link.relationship, target.node⟩⟩
  condition := written.condition.map Condition.comparison
  returned := (written.first :: written.others).map Name.text

end WrittenMatch

/-- A statement as it is written. -/
inductive Written where
  | nodes (first : CreatedNode) (others : List CreatedNode)
  | path (written : CreatedPath)
  | indexOn (label property : Name)
  | indexFor (variableName label property : Name)
  | matching (written : WrittenMatch)

namespace Written

/-- The tokens of a statement. -/
def tokens : Written → List Token
  | nodes first others =>
      .keyword .create :: separatedTokens (fun node => node.entity.nodeTokens) (first :: others)
  | path written => .keyword .create :: written.tokens
  | indexOn label property =>
      [.keyword .create, .keyword .index, .keyword .on, .mark .colon, .name label,
        .mark .leftParenthesis, .name property, .mark .rightParenthesis]
  | indexFor variableName label property =>
      [.keyword .create, .keyword .index, .keyword .forEach, .mark .leftParenthesis,
        .name variableName, .mark .colon, .name label, .mark .rightParenthesis, .keyword .on,
        .mark .leftParenthesis, .name variableName, .mark .point, .name property,
        .mark .rightParenthesis]
  | matching written => written.tokens

/-- What is asked for. -/
def statement : Written → Statement
  | nodes first others => .createNodes ((first :: others).map CreatedNode.node)
  | path written => written.statement
  | indexOn label property | indexFor _ label property => .createIndex label.text property.text
  | matching written => .matching written.query

end Written

/-- The tokens of an optional semicolon. -/
def semicolonTokens (isThere : Bool) : List Token :=
  if isThere then [.mark .semicolon] else []

end Query
end GraphStore
