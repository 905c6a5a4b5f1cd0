import GraphStore.Json.Reader
import GraphStore.Json.Record
import GraphStore.Json.Writer
import GraphStore.Program.Basic

/-!
# Stored documents

A stored document is a JSON file.  A file that is missing or blank counts as no document.
-/

namespace GraphStore

/-- Why a stored document cannot be read or written. -/
inductive StorageError where
  /-- A file or directory cannot be used. -/
  | io (path : String)
  /-- A file does not hold what it should. -/
  | json (path : String)
  deriving DecidableEq

/-- The message of a storage error. -/
def StorageError.message : StorageError → String
  | io path => "I/O error on " ++ path
  | json path => "Invalid JSON in " ++ path

namespace Document

/-- What the content of a file at a path says: a document, none, or an error. -/
def ofContent (path : Path) : Except Fault Content → Except StorageError (Option Json)
  | .ok (.text source) =>
    if Text.trim source.toList = [] then .ok none
    else
      match Json.sortedDocument? source with
      | some json => .ok (some json)
      | none => .error (.json path.text)
  | .error .missing => .ok none
  | _ => .error (.io path.text)

/-- Read a document. -/
def read (path : Path) : Task StorageError (Option Json) := do
  let content ← Task.perform (.read path)
  ExceptT.mk (pure (ofContent path content))

/-- The items that a document lists.  No document and the empty object list none. -/
def items {α : Type} (decode : Json → Option α) (path : Path) :
    Option Json → Except StorageError (List α)
  | none => .ok []
  | some (.object []) => .ok []
  | some json =>
    match json.list? decode with
    | some items => .ok items
    | none => .error (.json path.text)

/-- Read the items that a document lists. -/
def readItems {α : Type} (decode : Json → Option α) (path : Path) :
    Task StorageError (List α) := do
  let document ← read path
  ExceptT.mk (pure (items decode path document))

/-- Replace a file as a whole. -/
def replace (directory : Path) (name : String) (content : Content) : Task StorageError Unit := do
  match ← Task.perform (.replace directory name content) with
  | .done => pure ()
  | .noDirectory => throw (.io directory.trimmed.text)
  | .noFile => throw (.io (directory.child name).text)

/-- Write a document. -/
def write (directory : Path) (name : String) (style : Json.Style) (json : Json) :
    Task StorageError Unit :=
  replace directory name (.text (json.write style))

end Document
end GraphStore
