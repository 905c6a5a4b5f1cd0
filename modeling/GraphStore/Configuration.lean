import GraphStore.Program.Basic
import GraphStore.Settings
import GraphStore.Yaml.Node

/-!
# Configuration files

The settings of a handle can be read from a YAML file.  Fields that are missing keep their defaults,
fields of other names are skipped, and a field may not be repeated.
-/

namespace GraphStore

/-- Why settings cannot be read. -/
inductive ConfigurationError where
  /-- The file cannot be read. -/
  | unreadable
  /-- The file does not hold settings. -/
  | malformed
  /-- The name of the workspace is not allowed. -/
  | workspaceName (name : String)
  deriving DecidableEq

/-- The message of a configuration error. -/
def ConfigurationError.message : ConfigurationError → String
  | unreadable => "Failed to read config file"
  | malformed => "Invalid config file"
  | workspaceName name => Settings.invalidNameMessage name

namespace Configuration

/-- The tag of truth values. -/
def booleanTag : Yaml.TagBytes :=
  Yaml.bytesOf "tag:yaml.org,2002:bool"

/-- Read the text of a truth value. -/
def booleanOfText? (text : String) : Option Bool :=
  if text ∈ ["true", "True", "TRUE"] then some true
  else if text ∈ ["false", "False", "FALSE"] then some false
  else none

/-- A truth value is a plain scalar, or a literal block that is tagged as one. -/
def boolean? : Yaml.Node → Option Bool
  | .scalar .plain _ text => booleanOfText? text
  | .scalar .literal (some tag) text => if tag = booleanTag then booleanOfText? text else none
  | _ => none

/-- Every scalar is a text. -/
def text? : Yaml.Node → Option String
  | .scalar _ _ text => some text
  | _ => none

/-- The names of the fields. -/
def fieldNames : List String :=
  ["maintain_indexes", "use_index_by_default", "pretty_json", "workspace_dir"]

/-- The known fields of a document, which is a mapping or blank. -/
def fields? (document : Yaml.Document) : Option (List (String × Yaml.Node)) :=
  match document.root with
  | .scalar .plain _ "" => some []
  | .mapping entries => do
    let named ← entries.mapM fun (key, value) => do
      some (← text? (← document.resolve? key), ← document.resolve? value)
    let known := named.filter fun field => fieldNames.contains field.1
    if (known.map Prod.fst).Nodup then some known else none
  | _ => none

/-- Read one field, which may be missing. -/
def field? {α : Type} (fields : List (String × Yaml.Node)) (name : String)
    (decode : Yaml.Node → Option α) (fallback : α) : Option α :=
  match fields.lookup name with
  | none => some fallback
  | some node => decode node

/-- Read settings from a document. -/
def settings? (document : Yaml.Document) : Option Settings := do
  let defaults : Settings := {}
  let fields ← fields? document
  let maintainIndexes ← field? fields "maintain_indexes" boolean? defaults.maintainIndexes
  let useIndexes ← field? fields "use_index_by_default" boolean? defaults.useIndexes
  let indented ← field? fields "pretty_json" boolean? defaults.indented
  let workspaceName ← field? fields "workspace_dir" text? defaults.workspaceName
  some ⟨maintainIndexes, useIndexes, indented, workspaceName⟩

/-- Refuse settings that are not allowed. -/
def validate (settings : Settings) : Except ConfigurationError Settings :=
  if settings.isValid then .ok settings else .error (.workspaceName settings.workspaceName)

/-- Read settings from a text.  A blank text and a text without a document give the defaults. -/
def parse (source : String) : Except ConfigurationError Settings :=
  if Text.trim source.toList = [] then .ok {}
  else
    match Yaml.parse? source with
    | none => .error .malformed
    | some none => .ok {}
    | some (some document) =>
      match settings? document with
      | some settings => validate settings
      | none => .error .malformed

/-- Read settings from a file. -/
def load (path : Path) : Task ConfigurationError Settings := do
  match ← Task.perform (.read path) with
  | .ok (.text source) => ExceptT.mk (pure (parse source))
  | _ => throw .unreadable

end Configuration
end GraphStore
