import GraphStore.Json.Writer
import GraphStore.Text.Search
import GraphStore.Text.Trim

/-!
# Settings of a handle
-/

namespace GraphStore

/-- What can be chosen for a handle. -/
structure Settings where
  /-- Whether new nodes are filed in the indexes that exist. -/
  maintainIndexes : Bool := true
  /-- Whether matches probe indexes unless they are told not to. -/
  useIndexes : Bool := true
  /-- Whether stored JSON is indented. -/
  indented : Bool := true
  /-- The name of the workspace within the database directory. -/
  workspaceName : String := "transaction_temp"
  deriving DecidableEq

namespace Settings

/-- Whether a name, apart from blanks around it, is that of an entry of a directory. -/
def isPlainName (name : String) : Bool :=
  let trimmed := Text.trim name.toList
  trimmed != [] && trimmed != ['.'] && trimmed != ['.', '.'] &&
    !trimmed.contains '/' && !trimmed.contains '\\'

/-- Whether the settings are allowed. -/
def isValid (settings : Settings) : Bool :=
  isPlainName settings.workspaceName

/-- The message about a workspace name that is not allowed. -/
def invalidNameMessage (name : String) : String :=
  "Invalid config value for workspace_dir: '" ++ name ++ "' is not a plain directory name"

/-- How stored JSON is written. -/
def style (settings : Settings) : Json.Style :=
  if settings.indented then .indented else .compact

end Settings
end GraphStore
