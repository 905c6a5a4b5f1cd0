import GraphStore.Graph.Node
import GraphStore.Graph.Relationship
import GraphStore.Index.Catalog
import GraphStore.Store.Document

/-!
# Collections

The nodes, the relationships and the indexes of a database each are one file of its directory.
-/

namespace GraphStore
namespace Collections

/-- The file of the nodes. -/
def nodesFile : String := "nodes.json"

/-- The file of the relationships. -/
def relationshipsFile : String := "relationships.json"

/-- The file of the indexes. -/
def indexesFile : String := "indexes.json"

/-- The files of all collections. -/
def files : List String :=
  [nodesFile, relationshipsFile, indexesFile]

/-- Load the nodes of a directory. -/
def loadNodes (directory : Path) : Task StorageError (List Node) :=
  Document.readItems Node.ofJson? (directory.child nodesFile)

/-- Save the nodes of a directory. -/
def saveNodes (directory : Path) (style : Json.Style) (nodes : List Node) :
    Task StorageError Unit :=
  Document.write directory nodesFile style (.array (nodes.map Node.toJson))

/-- Load the relationships of a directory. -/
def loadRelationships (directory : Path) : Task StorageError (List Relationship) :=
  Document.readItems Relationship.ofJson? (directory.child relationshipsFile)

/-- Save the relationships of a directory. -/
def saveRelationships (directory : Path) (style : Json.Style)
    (relationships : List Relationship) : Task StorageError Unit :=
  Document.write directory relationshipsFile style
    (.array (relationships.map Relationship.toJson))

/-! ## Indexes -/

/-- Read the document of the indexes; one that cannot be read counts as none. -/
def readIndexes (directory : Path) : Program (Option Json) := do
  match ← (Document.read (directory.child indexesFile)).run with
  | .ok document => pure document
  | .error _ => pure none

/-- Load the indexes of a directory. -/
def loadIndexes (directory : Path) : Program IndexCatalog := do
  match ← readIndexes directory with
  | some json => pure (IndexCatalog.ofJson json)
  | none => pure .empty

/-- Save the indexes of a directory. -/
def saveIndexes (directory : Path) (style : Json.Style) (catalog : IndexCatalog) :
    Task StorageError Unit :=
  Document.write directory indexesFile style catalog.toJson

/-- Build the index over a label and a property anew and save it; the answer is the number of
distinct key texts. -/
def createIndex (directory : Path) (style : Json.Style) (label property : String) :
    Task StorageError Nat := do
  let nodes ← loadNodes directory
  let index := PropertyIndex.build nodes label property
  let catalog ← ExceptT.lift (loadIndexes directory)
  saveIndexes directory style (catalog.set label property index)
  pure index.size

/-- Probe the stored indexes for the ids under a value. -/
def probeIndex (directory : Path) (label property : String) (value : Value) :
    Program (List String) := do
  match ← readIndexes directory with
  | some json => pure (IndexCatalog.probe json label property value)
  | none => pure []

/-- File new nodes in the stored indexes, which are saved only if that changes them. -/
def indexNodes (directory : Path) (style : Json.Style) (nodes : List Node) :
    Task StorageError Unit :=
  if nodes = [] then pure ()
  else do
    let catalog ← ExceptT.lift (loadIndexes directory)
    if catalog.lacksSome nodes then saveIndexes directory style (catalog.addNodes nodes)

/-- Whether there is an index over a label and a property. -/
def hasIndex (directory : Path) (label property : String) : Program Bool := do
  let catalog ← loadIndexes directory
  pure (catalog.contains label property)

/-- The pairs of label and property that are indexed. -/
def listIndexes (directory : Path) : Program (List (String × String)) := do
  let catalog ← loadIndexes directory
  pure catalog.definitions

end Collections
end GraphStore
