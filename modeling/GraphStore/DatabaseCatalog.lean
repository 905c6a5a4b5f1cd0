import GraphStore.Store.Document
import GraphStore.Store.Collections

/-!
# Catalogs of databases

The databases of a catalog are the directories below its root.
-/

namespace GraphStore

/-- Why a database cannot be created or found. -/
inductive CatalogError where
  /-- The name is not allowed. -/
  | invalidName (name : String)
  /-- There is such an entry already. -/
  | alreadyExists (name : String)
  /-- There is no such database. -/
  | notFound (name : String)
  /-- A file or directory cannot be used. -/
  | storage (error : StorageError)
  deriving DecidableEq

/-- The message of a catalog error. -/
def CatalogError.message : CatalogError → String
  | invalidName name => "Invalid database name: " ++ name
  | alreadyExists name => "Database already exists: " ++ name
  | notFound name => "Database not found: " ++ name
  | storage error => "Storage error: " ++ error.message

/-- The databases below a root directory. -/
structure DatabaseCatalog where
  /-- The root directory. -/
  root : Path
  deriving DecidableEq

namespace DatabaseCatalog

/-- The file of the password digest. -/
def digestFile : String := "password.txt"

/-- Whether a database may have a name. -/
def isName (name : String) : Bool :=
  let chars := name.toList
  Text.trim chars != [] && name != "." && name != ".." &&
    !chars.contains '/' && !chars.contains '\\' && !chars.contains '\x00'

/-- Where a database of a given name is, whether or not it exists. -/
def pathFor (catalog : DatabaseCatalog) (name : String) : Path :=
  catalog.root.join name

/-- The files of a new database and what they hold. -/
def initialFiles (digest : String) : List (String × String) :=
  [(Collections.nodesFile, "[]"), (Collections.relationshipsFile, "[]"),
    (Collections.indexesFile, "\x7b\x7d"), (digestFile, digest)]

/-- Write files one after the other. -/
def writeFiles (directory : Path) : List (String × String) → Task StorageError Unit
  | [] => pure ()
  | (name, text) :: rest => do
    Document.replace directory name (.text text)
    writeFiles directory rest

/-- Create a database without nodes, relationships and indexes. -/
def create (catalog : DatabaseCatalog) (name digest : String) : Task CatalogError Path := do
  if !isName name then throw (.invalidName name)
  let path := catalog.pathFor name
  if (← Task.perform (.kind path)).isSome then throw (.alreadyExists name)
  if !(← Task.perform (.makeDirectories path)) then throw (.storage (.io path.text))
  Task.mapError .storage (writeFiles path (initialFiles digest))
  pure path

/-- Find a database. -/
def «open» (catalog : DatabaseCatalog) (name : String) : Task CatalogError Path := do
  if !isName name then throw (.invalidName name)
  let path := catalog.pathFor name
  if (← Task.perform (.kind path)) = some .directory then pure path else throw (.notFound name)

/-- The stored password digest of a database, without blanks around it. -/
def digest (catalog : DatabaseCatalog) (name : String) : Task CatalogError String := do
  let path := (← catalog.open name).child digestFile
  match ← Task.perform (.read path) with
  | .ok (.text digest) => pure (Text.trimString digest)
  | _ => throw (.storage (.io path.text))

/-- The names among some that are directories of the root. -/
def directories (root : Path) : List String → Program (List String)
  | [] => pure []
  | name :: rest => do
    let kind ← Program.perform (.kind (root.child name))
    let others ← directories root rest
    pure (if kind = some .directory then name :: others else others)

/-- The names of all databases in order. -/
def list (catalog : DatabaseCatalog) : Task CatalogError (List String) := do
  match ← Task.perform (.list catalog.root) with
  | .error .missing => pure []
  | .error .obstructed => throw (.storage (.io catalog.root.text))
  | .ok names =>
    let names ← ExceptT.lift (directories catalog.root names)
    pure (names.mergeSort fun left right => left ≤ right)

end DatabaseCatalog
end GraphStore
