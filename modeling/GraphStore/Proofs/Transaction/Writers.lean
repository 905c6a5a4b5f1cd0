import GraphStore.Proofs.Program.Sections
import GraphStore.Proofs.Transaction.Removals

/-!
# Writers

Statements that create something, and the beginnings and ends of transactions, write.  Each of them
works under the lock of the nodes, inside the gate; those that change whether a transaction is active
are alone there.
-/

namespace GraphStore

variable {α β ε : Type} {alone : Bool}

/-! ## What is done under the locks -/

theorem Path.Touches.isInner {directory : Path} {action : Action}
    (touches : directory.Touches action) : action.IsInner alone := by
  cases action <;> trivial

theorem Document.uses_replace {allowed : Action → Prop} {directory : Path} {name : String}
    {content : Content} (permitted : allowed (.replace directory name content)) :
    (Document.replace directory name content).run.Uses allowed := by
  refine Program.uses_taskBind (Program.uses_lift (Program.uses_perform permitted)) fun answer => ?_
  cases answer <;> trivial

theorem Action.Removes.isOnDisk {workspace : Path} {action : Action}
    (removes : action.Removes workspace) : action.IsOnDisk := by
  cases action <;> trivial

theorem Action.Cleans.isInner {workspace : Path} {action : Action}
    (cleans : action.Cleans workspace) : action.IsInner true := by
  cases action <;> trivial

namespace Workspace

/-- Copying files reads them and replaces others. -/
theorem uses_copyFiles {allowed : Action → Prop} {source target : Path} {names : List String}
    (reads : ∀ {path}, allowed (.read path))
    (replaces : ∀ {name content}, name ∈ names → allowed (.replace target name content)) :
    (copyFiles source target names).run.Uses allowed := by
  induction names with
  | nil => trivial
  | cons name rest ih =>
      have copied := ih fun member => replaces (List.mem_cons_of_mem name member)
      refine Program.uses_taskBind (Program.uses_lift (Program.uses_perform reads)) fun answer => ?_
      cases answer with
      | ok content =>
          have replaced : (Document.replace target name content).run.Uses allowed :=
            Document.uses_replace (replaces List.mem_cons_self)
          exact Program.uses_taskBind replaced fun _ => copied
      | error fault =>
          cases fault with
          | missing => exact copied
          | obstructed => trivial

theorem uses_stage (owner : Owner) (database staging workspace : Path) :
    (stage owner database staging workspace).run.Uses Action.IsOnDisk := by
  have move : Program.Uses Action.IsOnDisk (do
      if !(← Task.perform (.rename staging workspace)) then throw (.io workspace.text) :
        Task StorageError Unit).run := by
    refine Program.uses_taskBind (Program.uses_lift (Program.uses_perform trivial)) fun _ => ?_
    split <;> trivial
  refine Program.uses_taskBind (Program.uses_lift (Program.uses_perform trivial)) fun made => ?_
  split
  · trivial
  · refine Program.uses_taskBind (Document.uses_replace trivial) fun _ => ?_
    exact Program.uses_taskBind (uses_copyFiles trivial fun _ => trivial) fun _ => move

end Workspace

namespace TransactionManager

variable (manager : TransactionManager)

theorem uses_workspaceExists : manager.workspaceExists.Uses (Action.IsInner true) :=
  Program.uses_bind (Program.uses_perform trivial) fun _ => trivial

theorem uses_concludeBegin (staging : Path) (staged : Except StorageError Unit) :
    (manager.concludeBegin staging staged).run.Uses (Action.IsInner true) := by
  cases staged with
  | ok _ => exact Program.uses_lift (Program.uses_perform rfl)
  | error error =>
      refine Program.uses_taskBind (Program.uses_lift (Program.uses_perform trivial)) fun _ => ?_
      have cleanup := (Workspace.uses_cleanup staging).mono fun removes =>
        removes.isOnDisk.isInner true
      refine Program.uses_taskBind (Program.uses_lift cleanup) fun _ => ?_
      refine Program.uses_taskBind (Program.uses_lift manager.uses_workspaceExists) fun _ => ?_
      split <;> trivial

theorem uses_begin : manager.begin.run.Uses (Action.IsInner true) := by
  have copy : Program.Uses (Action.IsInner true) (do
      let number ← Task.perform .fresh
      let staging := manager.database.join
        (Replacement.temporaryName manager.workspaceName (Identifier.token number))
      ExceptT.lift (manager.setLive true)
      let staged ← ExceptT.lift
        (Workspace.stage manager.owner manager.database staging manager.workspace).run
      manager.concludeBegin staging staged : Task TransactionError Unit).run := by
    refine Program.uses_taskBind (Program.uses_lift (Program.uses_perform trivial)) fun number => ?_
    refine Program.uses_taskBind (Program.uses_lift (Program.uses_perform trivial)) fun _ => ?_
    have stage := (Workspace.uses_stage manager.owner manager.database (manager.database.join
      (Replacement.temporaryName manager.workspaceName (Identifier.token number)))
      manager.workspace).mono fun onDisk => onDisk.isInner true
    refine Program.uses_taskBind (Program.uses_lift stage) fun staged => ?_
    exact manager.uses_concludeBegin _ staged
  refine Program.uses_taskBind (Program.uses_lift (Program.uses_perform trivial)) fun active => ?_
  split
  · trivial
  · refine Program.uses_taskBind (Program.uses_lift manager.uses_workspaceExists) fun exists_ => ?_
    split
    · trivial
    · exact copy

theorem uses_commit : manager.commit.run.Uses (Action.IsInner true) := by
  have finish := manager.uses_finish.mono Action.Cleans.isInner
  refine Program.uses_taskBind (Program.uses_lift (Program.uses_perform trivial)) fun active => ?_
  split
  · trivial
  · have owns : manager.ownsWorkspace.Uses (Action.IsInner true) :=
      Program.uses_bind (Program.uses_bind (Program.uses_perform trivial) fun _ => trivial)
        fun _ => trivial
    refine Program.uses_taskBind (Program.uses_lift owns) fun own => ?_
    split
    · have copy : (Workspace.copyCollections manager.workspace manager.database).run.Uses
          (Action.IsInner true) := Workspace.uses_copyFiles trivial fun _ => trivial
      exact Program.uses_taskBind (Program.uses_mapError _ copy) fun _ => finish
    · exact Program.uses_taskBind finish fun _ => trivial

theorem uses_rollback : manager.rollback.run.Uses (Action.IsInner true) := by
  refine Program.uses_taskBind (Program.uses_lift (Program.uses_perform trivial)) fun active => ?_
  split
  · trivial
  · exact manager.uses_finish.mono Action.Cleans.isInner

end TransactionManager

/-! ## Locks and gates -/

theorem LockRegistry.collectionOrder_collections :
    collectionOrder collections = [nodes, relationships, indexes] := by decide

theorem LockRegistry.collectionOrder_nodes_indexes :
    collectionOrder [nodes, indexes] = [nodes, indexes] := by decide

theorem Task.run_mapError_bind {ε' : Type} (wrap : ε → ε') (task : Task ε α)
    (next : Except ε' α → Program β) :
    ((task.mapError wrap).run >>= next) = task.run >>= fun result => next (result.mapError wrap) :=
  bind_map_left _ _ _

theorem Query.Executor.run_holding_bind (registry : String) (resources : List String)
    (task : Task ε α) (next : Except ε α → Program β) :
    ((holding registry resources task).run >>= next) =
      ((LockRegistry.collectionOrder resources).forM fun resource =>
        Program.perform (.acquire registry resource)) >>= fun _ => task.run >>= fun result =>
          ((LockRegistry.collectionOrder resources).forM fun resource =>
            Program.perform (.release registry resource)) >>= fun _ => next result := by
  have ensured : ∀ afterwards : Program Unit, (task.ensuring afterwards).run =
      task.run >>= fun result => afterwards >>= fun _ => pure result := fun _ => rfl
  rw [holding, ExceptT.run_bind_lift, bind_assoc, ensured]
  simp only [bind_assoc, pure_bind]

/-- A task under the locks of the nodes and of other collections. -/
theorem Query.Executor.waits_holding {registry : String} {resources others : List String}
    {task : Task ε α} {next : Except ε α → Program β}
    (order : LockRegistry.collectionOrder resources = LockRegistry.nodes :: others)
    (distinct : LockRegistry.nodes ∉ others) (uses : task.run.Uses (Action.IsInner alone))
    (later : ∀ result, ∃ value, (next result).Leaves registry alone value) :
    ((holding registry resources task).run >>= next).Waits registry alone := by
  have ends : ∀ result, (((LockRegistry.nodes :: others).forM fun resource =>
      Program.perform (.release registry resource)) >>= fun _ => next result).Works registry
        alone := by
    intro result
    obtain ⟨value, leaves⟩ := later result
    exact .inr ⟨rfl, fun _ => ⟨value, Program.leaves_forM distinct leaves⟩⟩
  have works := Program.works_forM distinct (Program.works_bind uses ends)
  rw [run_holding_bind, order]
  exact .inr (.inl ⟨rfl, fun _ => works⟩)

namespace Database

/-- Whether an operation writes.  Statements that only match do not, and neither do questions about
the indexes. -/
def Operation.IsWriter : Operation → Bool
  | .execute source _ =>
    match Query.parse source with
    | .ok (.matching _) => false
    | _ => true
  | .createIndex .. | .begin | .commit | .rollback => true
  | .probeIndex .. | .listIndexes => false

variable (database : Database)

theorem writes_inGate {task : Task ε α}
    (waits : (task.run >>= fun result => Program.perform (.leave database.name alone) >>=
      fun _ => pure result).Waits database.name alone) :
    (database.inGate alone task).run.Writes database.name :=
  ⟨alone, rfl, fun _ => waits⟩

/-- A task under locks on the current target. -/
theorem writes_onTarget {task : Path → Task ε α}
    (waits : ∀ target, ((task target).run >>= fun result =>
      Program.perform (.leave database.name false) >>= fun _ => pure result).Waits
        database.name false) :
    (database.inGate false do
      let target ← ExceptT.lift database.manager.target
      task target).run.Writes database.name := by
  refine database.writes_inGate (.inl ⟨rfl, fun active => ?_⟩)
  cases active with
  | false => exact waits database.manager.database
  | true => exact waits database.manager.workspace

theorem writes_changeTransaction {change : Task TransactionError Unit}
    (uses : change.run.Uses (Action.IsInner true)) :
    (database.changeTransaction change).run.Writes database.name :=
  database.writes_inGate (Query.Executor.waits_holding LockRegistry.collectionOrder_collections
    (by decide) uses fun result => ⟨result, .inr ⟨rfl, fun _ => rfl⟩⟩)

theorem writes_createIndex (label property : String) :
    (database.createIndex label property).run.Writes database.name := by
  refine Program.Writes.map (database.writes_onTarget fun target => ?_) _
  exact Query.Executor.waits_holding LockRegistry.collectionOrder_nodes_indexes (by decide)
    ((Collections.uses_createIndex _ label property).mono Path.Touches.isInner)
    fun result => ⟨result, .inr ⟨rfl, fun _ => rfl⟩⟩

theorem writes_execute {source : String} {useIndex : Bool}
    (writer : (Operation.execute source useIndex).IsWriter) :
    (database.execute source useIndex).run.Writes database.name := by
  refine database.writes_onTarget fun target => ?_
  rw [Operation.IsWriter] at writer
  unfold Query.Executor.execute
  cases parsed : Query.parse source with
  | error error => exact .inr (.inr ⟨rfl, fun _ => ⟨_, rfl⟩⟩)
  | ok statement =>
      cases statement with
      | createNodes patterns =>
          obtain ⟨body, same, uses⟩ := (Query.Executor.ofSettings target database.name
            database.settings).createNodes_eq_holding patterns
          simp only [Query.Executor.executeStatement, same, Task.run_mapError_bind]
          exact Query.Executor.waits_holding LockRegistry.collectionOrder_nodes_indexes (by decide)
            (uses.mono Path.Touches.isInner) fun result => ⟨_, .inr ⟨rfl, fun _ => rfl⟩⟩
      | createRelationship start type properties last =>
          obtain ⟨body, same, uses⟩ := (Query.Executor.ofSettings target database.name
            database.settings).createRelationship_eq_holding start type properties last
          simp only [Query.Executor.executeStatement, same, Task.run_mapError_bind]
          exact Query.Executor.waits_holding LockRegistry.collectionOrder_collections (by decide)
            (uses.mono Path.Touches.isInner) fun result => ⟨_, .inr ⟨rfl, fun _ => rfl⟩⟩
      | createIndex label property =>
          simp only [Query.Executor.executeStatement, ExceptT.run_bind, Task.run_mapError_bind,
            bind_assoc]
          refine Query.Executor.waits_holding LockRegistry.collectionOrder_nodes_indexes (by decide)
            ((Collections.uses_createIndex _ label property).mono Path.Touches.isInner)
            fun result => ?_
          cases result <;> exact ⟨_, .inr ⟨rfl, fun _ => rfl⟩⟩
      | matching query => simp [parsed] at writer

/-- A handle serves the operations of writers in writing programs. -/
theorem writes_serve {operation : Operation} (writer : operation.IsWriter) :
    (database.serve operation).Writes database.name := by
  cases operation with
  | execute source useIndex => exact (database.writes_execute writer).map _
  | createIndex label property => exact (database.writes_createIndex label property).map _
  | begin => exact (database.writes_changeTransaction database.manager.uses_begin).map _
  | commit => exact (database.writes_changeTransaction database.manager.uses_commit).map _
  | rollback => exact (database.writes_changeTransaction database.manager.uses_rollback).map _
  | probeIndex | listIndexes => cases writer

end Database
end GraphStore
