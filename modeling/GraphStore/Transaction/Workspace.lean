import GraphStore.Store.Collections
import GraphStore.Transaction.Owner

/-!
# Workspaces

A workspace is a directory that holds copies of the collections and the marker of its owner.
-/

namespace GraphStore

/-- Why a transaction cannot be begun or ended. -/
inductive TransactionError where
  /-- There is a workspace already. -/
  | alreadyActive
  /-- There is no transaction to end. -/
  | noActiveTransaction
  /-- A file cannot be used. -/
  | storage (error : StorageError)
  deriving DecidableEq

/-- The message of a transaction error. -/
def TransactionError.message : TransactionError → String
  | alreadyActive => "Transaction already active"
  | noActiveTransaction => "No active transaction"
  | storage error => "Storage error: " ++ error.message

namespace Workspace

/-- Copy files from one directory to another; files that are missing are skipped. -/
def copyFiles (source target : Path) : List String → Task StorageError Unit
  | [] => pure ()
  | name :: rest => do
    match ← Task.perform (.read (source.child name)) with
    | .ok content => Document.replace target name content
    | .error .missing => pure ()
    | .error .obstructed => throw (.io (source.child name).text)
    copyFiles source target rest

/-- Copy the collections from one directory to another. -/
def copyCollections (source target : Path) : Task StorageError Unit :=
  copyFiles source target Collections.files

/-- Remove the entries of a directory. -/
def removeEntries (directory : Path) : List String → Task StorageError Unit
  | [] => pure ()
  | name :: rest => do
    let path := directory.child name
    let removed ←
      if (← Task.perform (.kind path)) = some .directory then Task.perform (.removeAll path)
      else Task.perform (.removeFile path)
    if removed then removeEntries directory rest else throw (.io path.text)

/-- Remove a workspace with all that it holds, if there is one. -/
def cleanup (workspace : Path) : Task StorageError Unit := do
  match ← Task.perform (.list workspace) with
  | .error .missing => pure ()
  | .error .obstructed => throw (.io workspace.text)
  | .ok names =>
    removeEntries workspace names
    if !(← Task.perform (.removeDirectory workspace)) then throw (.io workspace.text)

/-- Assemble a workspace under a hidden name and move it into place. -/
def stage (owner : Owner) (database staging workspace : Path) : Task StorageError Unit := do
  if !(← Task.perform (.makeDirectories staging)) then throw (.io staging.text)
  Document.replace staging Owner.file (.text owner.markerText)
  copyCollections database staging
  if !(← Task.perform (.rename staging workspace)) then throw (.io workspace.text)

end Workspace
end GraphStore
