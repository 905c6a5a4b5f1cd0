import GraphStore.Identifier
import GraphStore.Lock.Registry
import GraphStore.Query.Matching
import GraphStore.Query.Parser
import GraphStore.Settings
import GraphStore.Store.Collections

/-!
# Execution of statements

A statement is executed against the collections of one directory.  Statements that write hold the
locks of the collections that they may replace; a new node is added only if no stored node has its
label and properties.  Statements that only match take no locks.
-/

namespace GraphStore
namespace Query

/-- Why a statement fails. -/
inductive ExecutionError where
  /-- The text is no statement. -/
  | parse (error : ParseError)
  /-- The condition is about a variable that the pattern does not bind. -/
  | variableMismatch
  /-- A collection cannot be read or written. -/
  | storage (error : StorageError)
  deriving DecidableEq

/-- The message of an execution error. -/
def ExecutionError.message : ExecutionError → String
  | parse error => error.message
  | variableMismatch => "Variable mismatch in WHERE clause"
  | storage error => "Storage error: " ++ error.message

/-- Where and how statements are executed. -/
structure Executor where
  /-- The directory of the collections. -/
  directory : Path
  /-- The name of the lock registry. -/
  registry : String
  /-- How JSON is written. -/
  style : Json.Style := .indented
  /-- Whether new nodes are filed in the indexes that exist. -/
  maintainIndexes : Bool := true

namespace Executor

/-- The executor of a directory with given settings. -/
def ofSettings (directory : Path) (registry : String) (settings : Settings) : Executor :=
  ⟨directory, registry, settings.style, settings.maintainIndexes⟩

/-- Hold the locks of collections of a registry while a task runs. -/
def holding {ε α : Type} (registry : String) (resources : List String) (task : Task ε α) :
    Task ε α := do
  let order := LockRegistry.collectionOrder resources
  ExceptT.lift (order.forM fun resource => Program.perform (.acquire registry resource))
  task.ensuring (order.forM fun resource => Program.perform (.release registry resource))

/-! ## Creation -/

/-- The first stored node with the label and the properties of a new one. -/
def findNode? (nodes : List Node) (pattern : NewNode) : Option Node :=
  nodes.find? fun node => node.satisfies (some pattern.label) pattern.properties

/-- Stored nodes, and those among them that were added. -/
structure Growth where
  /-- All nodes. -/
  nodes : List Node
  /-- The added ones. -/
  created : List Node := []

/-- Find a node like a new one, or add it under a fresh id. -/
def findOrCreate (growth : Growth) (pattern : NewNode) : Program (Node × Growth) :=
  match findNode? growth.nodes pattern with
  | some node => pure (node, growth)
  | none => do
    let number ← Program.perform .fresh
    let node : Node := ⟨Identifier.ofNumber number, [pattern.label], pattern.properties⟩
    pure (node, ⟨growth.nodes ++ [node], growth.created ++ [node]⟩)

/-- Find or add nodes one after the other. -/
def findOrCreateAll (growth : Growth) : List NewNode → Program Growth
  | [] => pure growth
  | pattern :: rest => do
    let (_, grown) ← findOrCreate growth pattern
    findOrCreateAll grown rest

/-- File new nodes in the indexes, if that is wanted. -/
def maintain (executor : Executor) (created : List Node) : Task StorageError Unit :=
  if executor.maintainIndexes then
    Collections.indexNodes executor.directory executor.style created
  else pure ()

/-- Create nodes. -/
def createNodes (executor : Executor) (patterns : List NewNode) : Task StorageError Answer :=
  holding executor.registry [LockRegistry.nodes, LockRegistry.indexes] do
    let nodes ← Collections.loadNodes executor.directory
    let growth ← ExceptT.lift (findOrCreateAll ⟨nodes, []⟩ patterns)
    if growth.created ≠ [] then
      Collections.saveNodes executor.directory executor.style growth.nodes
      executor.maintain growth.created
    pure ⟨"Node(s) created", growth.created, []⟩

/-- Create a relationship between two nodes. -/
def createRelationship (executor : Executor) (start : NewNode) (type : String)
    (properties : Properties) (target : NewNode) : Task StorageError Answer :=
  holding executor.registry LockRegistry.collections do
    let nodes ← Collections.loadNodes executor.directory
    let relationships ← Collections.loadRelationships executor.directory
    let (startNode, growth) ← ExceptT.lift (findOrCreate ⟨nodes, []⟩ start)
    let (endNode, growth) ← ExceptT.lift (findOrCreate growth target)
    let number ← Task.perform .fresh
    let relationship : Relationship :=
      ⟨Identifier.ofNumber number, startNode.id, endNode.id, type, properties⟩
    if growth.created ≠ [] then
      Collections.saveNodes executor.directory executor.style growth.nodes
    Collections.saveRelationships executor.directory executor.style
      (relationships ++ [relationship])
    executor.maintain growth.created
    pure ⟨"Nodes and relationship created", [startNode, endNode], [relationship]⟩

/-- Create an index. -/
def createIndex (executor : Executor) (label property : String) : Task StorageError Nat :=
  holding executor.registry [LockRegistry.nodes, LockRegistry.indexes] do
    Collections.createIndex executor.directory executor.style label property

/-! ## Matching -/

/-- The ids that an index holds for a pattern with a label and a single property. -/
def probe (executor : Executor) (pattern : NodePattern) (useIndex : Bool) :
    Program (List String) :=
  match pattern.label, pattern.properties.entries with
  | some label, [(property, value)] =>
    if useIndex then Collections.probeIndex executor.directory label property value else pure []
  | _, _ => pure []

/-- Match one node without condition. -/
def matchNode (executor : Executor) (pattern : NodePattern) (useIndex : Bool) :
    Task StorageError Answer := do
  if pattern.properties.entries = [] then
    let nodes ← Collections.loadNodes executor.directory
    match pattern.label with
    | none =>
      let relationships ← Collections.loadRelationships executor.directory
      pure (answerAll nodes relationships)
    | some _ => pure (answerNodes (pattern.select nodes) "")
  else
    let ids ← ExceptT.lift (executor.probe pattern useIndex)
    let nodes ← Collections.loadNodes executor.directory
    let candidates := if ids = [] then nodes else nodes.filter fun node => ids.contains node.id
    pure (answerNodes (pattern.select candidates) " with properties")

/-- Match one node with a condition. -/
def matchWhere (executor : Executor) (pattern : NodePattern) (condition : Comparison) :
    Task StorageError Answer := do
  let nodes ← Collections.loadNodes executor.directory
  let matched := (pattern.select nodes).filter fun node => condition.holds node.properties
  pure (answerNodes matched " with WHERE")

/-- Match a path. -/
def matchPath (executor : Executor) (start : NodePattern) (segment : Segment)
    (condition : Option Comparison) : Task StorageError Answer := do
  let nodes ← Collections.loadNodes executor.directory
  let relationships ← Collections.loadRelationships executor.directory
  pure (answerPaths segment.relationship.direction
    (segment.select start condition nodes relationships))

/-- Whether the condition of a match, if it has one, is about a variable that is bound. -/
def isBound (query : MatchQuery) : Bool :=
  query.condition.all fun condition => query.pattern.binds condition.variableName

/-- Match a pattern. -/
def executeMatch (executor : Executor) (query : MatchQuery) (useIndex : Bool) :
    Task ExecutionError Answer :=
  if isBound query then
    Task.mapError .storage <|
      match query.pattern.segment, query.condition with
      | some segment, condition => executor.matchPath query.pattern.start segment condition
      | none, some condition => executor.matchWhere query.pattern.start condition
      | none, none => executor.matchNode query.pattern.start useIndex
  else throw .variableMismatch

/-! ## Statements -/

/-- Execute a statement. -/
def executeStatement (executor : Executor) (statement : Statement) (useIndex : Bool) :
    Task ExecutionError Answer :=
  match statement with
  | .createNodes patterns => Task.mapError .storage (executor.createNodes patterns)
  | .createRelationship start type properties target =>
    Task.mapError .storage (executor.createRelationship start type properties target)
  | .createIndex label property => do
    let _ ← Task.mapError .storage (executor.createIndex label property)
    pure ⟨"Index created for :" ++ label ++ " on property '" ++ property ++ "'", [], []⟩
  | .matching query => executor.executeMatch query useIndex

/-- Read a text as a statement and execute it. -/
def execute (executor : Executor) (source : String) (useIndex : Bool) :
    Task ExecutionError Answer :=
  match parse source with
  | .error error => throw (.parse error)
  | .ok statement => executor.executeStatement statement useIndex

theorem execute_of_parse (executor : Executor) {source : String} {statement : Statement}
    (parsed : parse source = .ok statement) (useIndex : Bool) :
    executor.execute source useIndex = executor.executeStatement statement useIndex := by
  rw [execute, parsed]

end Executor

/-- The response that reports how a statement ended. -/
def Response.ofResult : Except ExecutionError Answer → Response
  | .ok answer => success answer
  | .error error => failure error.message

/-- Execute a text against a directory with default settings; the locks are those that all such
calls on the directory share. -/
def respond (directory : Path) (source : String) (useIndex : Bool) : Program Response :=
  Response.ofResult <$>
    (Executor.ofSettings directory ("directory " ++ directory.text) {}).execute source useIndex

end Query
end GraphStore
