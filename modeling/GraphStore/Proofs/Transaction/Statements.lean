import GraphStore.Proofs.Query.Progress
import GraphStore.Proofs.Transaction.Sessions

/-!
# Statements of operations

An operation that is no change of the transaction executes a statement on its target, or it only
reads.  Its progress is that of the statement.
-/

namespace GraphStore
namespace Database

/-- The statement that an operation executes.  One that executes none does as much as the creation of
no nodes. -/
def Operation.statement : Operation → Query.Statement
  | .execute source _ => Query.statementOf source
  | .createIndex label property => .createIndex label property
  | .probeIndex .. | .listIndexes | .begin | .commit | .rollback => .createNodes []

/-- What executes the statements of a handle, when its transaction is active and when it is not. -/
def executorIf (database : Database) (active : Bool) : Query.Executor :=
  .ofSettings (database.manager.targetIf active) database.name database.settings

variable {operation : Operation}

/-- What is not a change of the transaction makes progress with its statement all the way. -/
theorem advances_serveBare (database : Database) (statement : operation.IsChange = false)
    (active : Bool) (store : Store) :
    (database.serveBare active operation).PassesWith Store.perform
      ((database.executorIf active).Progress store operation.statement)
      (fun _ => (database.executorIf active).Progress store operation.statement) store := by
  cases operation with
  | execute source useIndex =>
      exact Program.passes_map (Query.Executor.advances_execute source useIndex)
  | createIndex label property =>
      exact Program.passes_map
        (Program.passes_map (Query.Executor.advances_createIndex label property))
  | probeIndex label property value =>
      have silent := (@Collections.loads_probeIndex (database.manager.targetIf active) label
        property value).uses
      exact Program.passes_map
        ((Program.passes_silent silent).mono .unchanged fun ended => .unchanged ended.1)
  | listIndexes =>
      have silent : (Collections.listIndexes (database.manager.targetIf active)).Uses
          Action.IsSilent :=
        Program.uses_bind Collections.loads_loadIndexes.uses fun _ => trivial
      exact Program.passes_map
        ((Program.passes_silent silent).mono .unchanged fun ended => .unchanged ended.1)
  | begin | commit | rollback => cases statement

end Database

namespace Query

/-- What executes texts without a handle. -/
def responder (directory : Path) : Executor :=
  .ofSettings directory ("directory " ++ directory.text) {}

/-- A text that is executed without a handle makes progress all the way. -/
theorem advances_respond (directory : Path) (source : String) (useIndex : Bool) (store : Store) :
    (respond directory source useIndex).PassesWith Store.perform
      ((responder directory).Progress store (statementOf source))
      (fun _ => (responder directory).Progress store (statementOf source)) store :=
  Program.passes_map (Executor.advances_execute source useIndex)

end Query
end GraphStore
