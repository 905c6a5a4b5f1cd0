import GraphStore.Query.Execution
import GraphStore.Transaction.Manager

/-!
# Database handles

A handle binds a directory to its settings, its locks and its transactions.  Statements enter the
gate of the handle together; the beginning and the end of a transaction enter it alone, so the
directory on which a statement acts does not change under it.
-/

namespace GraphStore

/-- Why a handle cannot be opened or used. -/
inductive DatabaseError where
  /-- The name of the workspace is not allowed. -/
  | workspaceName (name : String)
  /-- A transaction cannot be begun, ended or recovered. -/
  | transaction (error : TransactionError)
  /-- A file cannot be used. -/
  | storage (error : StorageError)
  deriving DecidableEq

/-- The message of a database error. -/
def DatabaseError.message : DatabaseError → String
  | workspaceName name => "Config error: " ++ Settings.invalidNameMessage name
  | transaction error => "Transaction error: " ++ error.message
  | storage error => "Storage error: " ++ error.message

/-- A handle on a database. -/
structure Database where
  /-- The directory. -/
  path : Path
  /-- The settings. -/
  settings : Settings
  /-- The transactions. -/
  manager : TransactionManager
  deriving DecidableEq

namespace Database

/-- The name of the gate and the lock registry of a handle. -/
def name (database : Database) : String :=
  database.manager.owner.handle

/-- Open a database, making its directory if necessary.  A workspace is removed if its owner cannot
finish the transaction any more. -/
def «open» (path : Path) (settings : Settings) : Task DatabaseError Database := do
  if !settings.isValid then throw (.workspaceName settings.workspaceName)
  if !(← Task.perform (.makeDirectories path)) then throw (.storage (.io path.text))
  let manager ← ExceptT.lift (TransactionManager.create path settings.workspaceName)
  let _ ← Task.mapError .transaction manager.recover
  pure ⟨path, settings, manager⟩

/-- Run a task inside the gate. -/
def inGate {ε α : Type} (database : Database) (alone : Bool) (task : Task ε α) : Task ε α := do
  Task.perform (.enter database.name alone)
  task.ensuring (Program.perform (.leave database.name alone))

/-- Execute a statement on the current target. -/
def execute (database : Database) (source : String) (useIndex : Bool) :
    Task Query.ExecutionError Query.Answer :=
  database.inGate false do
    let target ← ExceptT.lift database.manager.target
    (Query.Executor.ofSettings target database.name database.settings).execute source useIndex

/-- Execute a statement; the settings say whether indexes are probed. -/
def query (database : Database) (source : String) : Task Query.ExecutionError Query.Answer :=
  database.execute source database.settings.useIndexes

/-- Execute a statement and report how it ended. -/
def respond (database : Database) (source : String) (useIndex : Bool) : Program Query.Response :=
  Query.Response.ofResult <$> (database.execute source useIndex).run

/-- Run a change of the transaction alone and under all locks. -/
def changeTransaction (database : Database) (change : Task TransactionError Unit) :
    Task TransactionError Unit :=
  database.inGate true (Query.Executor.holding database.name LockRegistry.collections change)

/-- Begin a transaction. -/
def begin (database : Database) : Task TransactionError Unit :=
  database.changeTransaction database.manager.begin

/-- Commit the transaction. -/
def commit (database : Database) : Task TransactionError Unit :=
  database.changeTransaction database.manager.commit

/-- Roll the transaction back. -/
def rollback (database : Database) : Task TransactionError Unit :=
  database.changeTransaction database.manager.rollback

/-- Whether a transaction is active. -/
def inTransaction (database : Database) : Program Bool :=
  database.manager.isActive

/-- Build an index anew; the answer is the number of its distinct key texts. -/
def createIndex (database : Database) (label property : String) : Task DatabaseError Nat :=
  Task.mapError .storage <| database.inGate false do
    let target ← ExceptT.lift database.manager.target
    (Query.Executor.ofSettings target database.name database.settings).createIndex label property

/-- Do something with the current target inside the gate. -/
def onTarget {α : Type} (database : Database) (action : Path → Program α) : Program α := do
  Program.perform (.enter database.name false)
  let target ← database.manager.target
  let answer ← action target
  Program.perform (.leave database.name false)
  pure answer

/-- Probe an index for the ids under a value. -/
def probeIndex (database : Database) (label property : String) (value : Value) :
    Program (List String) :=
  database.onTarget fun target => Collections.probeIndex target label property value

/-- The pairs of label and property that are indexed. -/
def listIndexes (database : Database) : Program (List (String × String)) :=
  database.onTarget Collections.listIndexes

/-- Give a handle up; an active transaction is rolled back. -/
def close (database : Database) : Program Unit := do
  let _ ← database.manager.rollback.run
  pure ()

end Database
end GraphStore
