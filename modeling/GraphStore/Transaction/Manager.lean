import GraphStore.Identifier
import GraphStore.Transaction.Workspace

/-!
# Transaction managers

A manager is idle or active.  While it is active, the workspace of its directory is its own: it
carries the marker of the manager, and statements act on it.  A commit copies the collections of the
workspace back; a commit and a rollback both remove the workspace, unless its marker names somebody
else.
-/

namespace GraphStore

/-- The manager of the transactions of one handle. -/
structure TransactionManager where
  /-- The directory of the database. -/
  database : Path
  /-- The name of the workspace. -/
  workspaceName : String
  /-- Whom the marker of the workspace names. -/
  owner : Owner
  deriving DecidableEq

namespace TransactionManager

/-- The directory of the workspace. -/
def workspace (manager : TransactionManager) : Path :=
  manager.database.join manager.workspaceName

/-- A new manager, which is idle. -/
def create (database : Path) (workspaceName : String) : Program TransactionManager := do
  let number ← Program.perform .fresh
  let process ← Program.perform .ownProcess
  pure ⟨database, workspaceName, ⟨process, Identifier.ofNumber number⟩⟩

/-- Whether a transaction is active. -/
def isActive (manager : TransactionManager) : Program Bool :=
  Program.perform (.isActive manager.owner.handle)

/-- The directory on which statements act now. -/
def target (manager : TransactionManager) : Program Path := do
  if ← manager.isActive then pure manager.workspace else pure manager.database

/-- Whether something stands at the path of the workspace. -/
def workspaceExists (manager : TransactionManager) : Program Bool := do
  let kind ← Program.perform (.kind manager.workspace)
  pure kind.isSome

/-- Note whether the handle has a transaction in flight. -/
def setLive (manager : TransactionManager) (live : Bool) : Program Unit :=
  Program.perform (.setLive manager.owner.handle live)

/-- Set whether the manager is active. -/
def setActive (manager : TransactionManager) (active : Bool) : Program Unit :=
  Program.perform (.setActive manager.owner.handle active)

/-- What remains of a begin after its workspace was staged or not. -/
def concludeBegin (manager : TransactionManager) (staging : Path) :
    Except StorageError Unit → Task TransactionError Unit
  | .ok () => ExceptT.lift (manager.setActive true)
  | .error error => do
    ExceptT.lift (manager.setLive false)
    let _ ← ExceptT.lift (Workspace.cleanup staging).run
    if ← ExceptT.lift manager.workspaceExists then throw .alreadyActive
    throw (.storage error)

/-- Begin a transaction: copy the collections into a fresh workspace. -/
def begin (manager : TransactionManager) : Task TransactionError Unit := do
  if ← ExceptT.lift manager.isActive then throw .alreadyActive
  if ← ExceptT.lift manager.workspaceExists then throw .alreadyActive
  let number ← Task.perform .fresh
  let staging := manager.database.join
    (Replacement.temporaryName manager.workspaceName (Identifier.token number))
  ExceptT.lift (manager.setLive true)
  let staged ← ExceptT.lift
    (Workspace.stage manager.owner manager.database staging manager.workspace).run
  manager.concludeBegin staging staged

/-- Become idle, and remove the workspace unless its marker names somebody else. -/
def finish (manager : TransactionManager) : Task TransactionError Unit := do
  let owner ← ExceptT.lift (Owner.read manager.workspace)
  let result ←
    if owner.any (· ≠ manager.owner) then pure (.ok ())
    else ExceptT.lift (Workspace.cleanup manager.workspace).run
  ExceptT.lift (manager.setActive false)
  ExceptT.lift (manager.setLive false)
  Task.mapError .storage (ExceptT.mk (pure result))

/-- Whether the marker of the workspace names this manager. -/
def ownsWorkspace (manager : TransactionManager) : Program Bool := do
  let owner ← Owner.read manager.workspace
  pure (owner = some manager.owner)

/-- Commit: copy the collections of the workspace back and remove the workspace.  If the workspace
is not the manager's own any more, nothing is copied. -/
def commit (manager : TransactionManager) : Task TransactionError Unit := do
  if !(← ExceptT.lift manager.isActive) then throw .noActiveTransaction
  if ← ExceptT.lift manager.ownsWorkspace then
    Task.mapError .storage (Workspace.copyCollections manager.workspace manager.database)
    manager.finish
  else
    manager.finish
    throw .noActiveTransaction

/-- Roll back: remove the workspace. -/
def rollback (manager : TransactionManager) : Task TransactionError Unit := do
  if !(← ExceptT.lift manager.isActive) then throw .noActiveTransaction
  manager.finish

/-- Remove a workspace whose owner cannot finish its transaction any more; the answer says whether
there was one. -/
def recover (manager : TransactionManager) : Task TransactionError Bool := do
  if ← ExceptT.lift manager.isActive then return false
  if !(← ExceptT.lift manager.workspaceExists) then return false
  if let some owner ← ExceptT.lift (Owner.read manager.workspace) then
    if ← ExceptT.lift owner.isAlive then return false
  Task.mapError .storage (Workspace.cleanup manager.workspace)
  return true

end TransactionManager
end GraphStore
