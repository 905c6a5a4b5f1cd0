import GraphStore.Database
import GraphStore.Proofs.Program.Sections
import GraphStore.Proofs.Transaction.Changes

/-!
# Serving a handle from snapshots

A handle that nobody disturbs answers like an abstract machine that only knows the committed
collections and those of the active transaction.
-/

namespace GraphStore

/-! ## Operations -/

namespace Database

/-- What a handle may be asked. -/
inductive Operation where
  /-- Execute a statement. -/
  | execute (source : String) (useIndex : Bool)
  /-- Build an index anew. -/
  | createIndex (label property : String)
  /-- Probe an index. -/
  | probeIndex (label property : String) (value : Value)
  /-- List the indexes. -/
  | listIndexes
  /-- Begin a transaction. -/
  | begin
  /-- Commit the transaction. -/
  | commit
  /-- Roll the transaction back. -/
  | rollback

/-- What a handle answers. -/
inductive Reply where
  /-- How a statement ended. -/
  | executed (result : Except Query.ExecutionError Query.Answer)
  /-- The size of an index. -/
  | indexed (result : Except DatabaseError Nat)
  /-- The ids that an index holds. -/
  | probed (ids : List String)
  /-- The pairs that are indexed. -/
  | listed (definitions : List (String × String))
  /-- How the beginning or the end of a transaction ended. -/
  | changed (result : Except TransactionError Unit)
  deriving DecidableEq

/-- Let a handle serve an operation. -/
def serve (database : Database) : Operation → Program Reply
  | .execute source useIndex => Reply.executed <$> (database.execute source useIndex).run
  | .createIndex label property => Reply.indexed <$> (database.createIndex label property).run
  | .probeIndex label property value => Reply.probed <$> database.probeIndex label property value
  | .listIndexes => Reply.listed <$> database.listIndexes
  | .begin => Reply.changed <$> database.begin.run
  | .commit => Reply.changed <$> database.commit.run
  | .rollback => Reply.changed <$> database.rollback.run

/-- Let a handle serve operations one after the other. -/
def serveAll (database : Database) : List Operation → Program (List Reply)
  | [] => pure []
  | operation :: rest => do
    let reply ← database.serve operation
    let replies ← database.serveAll rest
    pure (reply :: replies)

theorem run_execute_eq (database : Database) (world : World) (source : String) (useIndex : Bool) :
    (world.run (database.serve (.execute source useIndex))).1 =
      .executed (world.run (database.execute source useIndex).run).1 := by
  rw [Program.run_eq_runWith, serve, Program.runWith_map, Program.run_eq_runWith]

end Database

/-! ## The abstract machine -/

namespace Versions

/-- Run a program on the collections on which statements act. -/
def onTarget {α : Type} (versions : Versions) (manager : TransactionManager)
    (program : Path → Program α) : α × Versions :=
  let ran := (program (manager.targetIf versions.working.isSome)).runWith Store.perform
    versions.store
  (ran.1, versions.setStore ran.2)

/-- Serve an operation. -/
def serve (versions : Versions) (database : Database) :
    Database.Operation → Database.Reply × Versions
  | .execute source useIndex =>
    let executor target := Query.Executor.ofSettings target database.name database.settings
    (versions.onTarget database.manager fun target =>
      ((executor target).execute source useIndex).run).map .executed id
  | .createIndex label property =>
    let executor target := Query.Executor.ofSettings target database.name database.settings
    (versions.onTarget database.manager fun target =>
      ((executor target).createIndex label property).run).map
        (fun result => .indexed (result.mapError .storage)) id
  | .probeIndex label property value =>
    (versions.onTarget database.manager fun target =>
      Collections.probeIndex target label property value).map .probed id
  | .listIndexes => (versions.onTarget database.manager Collections.listIndexes).map .listed id
  | .begin => (versions.begin database.manager).map .changed id
  | .commit => versions.commit.map .changed id
  | .rollback => versions.rollback.map .changed id

/-- Serve operations one after the other. -/
def serveAll (versions : Versions) (database : Database) :
    List Database.Operation → List Database.Reply × Versions
  | [] => ([], versions)
  | operation :: rest =>
    let (reply, next) := versions.serve database operation
    let (replies, last) := next.serveAll database rest
    (reply :: replies, last)

end Versions

/-! ## Gates and locks -/

/-- Whether a property of worlds is not about locks and gates. -/
def World.IsEssential (property : World → Prop) : Prop :=
  ∀ {world other : World}, property world → other.unlocked = world.unlocked → property other

namespace Program

variable {α β ε : Type} {before after : World → Prop}

/-- Whether a program gives a value on every world with one property, and leaves a world with
another one. -/
def Serves (program : Program α) (before : World → Prop) (value : α) (after : World → Prop) :
    Prop :=
  ∀ world, before world → (program.runWith World.perform world).1 = value ∧
    after (program.runWith World.perform world).2

theorem Serves.map {program : Program α} {value : α} (serves : program.Serves before value after)
    (change : α → β) : (change <$> program).Serves before (change value) after := by
  intro world holds
  obtain ⟨same, holdsAfter⟩ := serves world holds
  rw [runWith_map]
  exact ⟨congrArg change same, holdsAfter⟩

theorem serves_forM {body : String → Program PUnit}
    (silent : ∀ item, (body item).Serves before ⟨⟩ before) (items : List String) :
    (items.forM body).Serves before ⟨⟩ before := by
  intro world holds
  induction items generalizing world with
  | nil => exact ⟨rfl, holds⟩
  | cons item rest ih =>
      obtain ⟨-, holdsAfter⟩ := silent item world holds
      change (runWith World.perform world (body item >>= fun _ => rest.forM body)).1 = _ ∧
        before (runWith World.perform world (body item >>= fun _ => rest.forM body)).2
      rw [runWith_bind]
      exact ih _ holdsAfter

theorem serves_enter (essential : World.IsEssential before) (handle : String) (alone : Bool) :
    (perform (.enter handle alone)).Serves before () before :=
  fun _ holds => ⟨rfl, essential holds rfl⟩

theorem serves_leave (essential : World.IsEssential before) (handle : String) (alone : Bool) :
    (perform (.leave handle alone)).Serves before () before :=
  fun _ holds => ⟨rfl, essential holds rfl⟩

theorem Serves.inGate {task : Task ε α} {value : Except ε α}
    (serves : task.run.Serves before value after) (essential : World.IsEssential before)
    (essentialAfter : World.IsEssential after) (database : Database) (alone : Bool) :
    (database.inGate alone task).run.Serves before value after := by
  intro world holds
  obtain ⟨same, holdsAfter⟩ :=
    serves _ (serves_enter essential database.name alone world holds).2
  rw [Database.inGate, Task.runWith_run, Task.runWith_bind_of_ok (Task.runWith_perform _ _ _),
    Task.runWith_ensuring]
  exact ⟨same, (serves_leave essentialAfter database.name alone _ holdsAfter).2⟩

theorem Serves.holding {task : Task ε α} {value : Except ε α}
    (serves : task.run.Serves before value after) (essential : World.IsEssential before)
    (essentialAfter : World.IsEssential after) (registry : String) (resources : List String) :
    (Query.Executor.holding registry resources task).run.Serves before value after := by
  intro world holds
  have acquires : ∀ resource, (perform (.acquire registry resource)).Serves before () before :=
    fun _ _ holds => ⟨rfl, essential holds rfl⟩
  have releases : ∀ resource, (perform (.release registry resource)).Serves after () after :=
    fun _ _ holds => ⟨rfl, essentialAfter holds rfl⟩
  obtain ⟨same, holdsAfter⟩ :=
    serves _ (serves_forM acquires (LockRegistry.collectionOrder resources) world holds).2
  rw [Query.Executor.holding, Task.runWith_run,
    Task.runWith_bind_of_ok (Task.runWith_lift _ _ _), Task.runWith_ensuring]
  exact ⟨same, (serves_forM releases (LockRegistry.collectionOrder resources) _ holdsAfter).2⟩

theorem Serves.changeTransaction {change : Task TransactionError Unit}
    {value : Except TransactionError Unit} (serves : change.run.Serves before value after)
    (essential : World.IsEssential before) (essentialAfter : World.IsEssential after)
    (database : Database) : (database.changeTransaction change).run.Serves before value after :=
  (serves.holding essential essentialAfter database.name LockRegistry.collections).inGate essential
    essentialAfter database true

/-- An action on the target inside the gate. -/
theorem Serves.onTarget {database : Database} {action : Path → Program α} {value : α}
    (serves : (database.manager.target >>= action).Serves before value after)
    (essential : World.IsEssential before) (essentialAfter : World.IsEssential after) :
    (database.onTarget action).Serves before value after := by
  intro world holds
  obtain ⟨same, holdsAfter⟩ :=
    serves _ (serves_enter essential database.name false world holds).2
  rw [runWith_bind] at same holdsAfter
  simp only [Database.onTarget, runWith_bind, runWith_pure]
  exact ⟨same, (serves_leave essentialAfter database.name false _ holdsAfter).2⟩

end Program

/-! ## Service -/

namespace TransactionManager

variable {manager : TransactionManager} {base : Tree} {place : List String} {versions : Versions}

theorem isEssential_layout : World.IsEssential (manager.Layout base place versions) :=
  fun layout same => layout.transport (World.disk_congr same) (World.active_congr same)
    (World.nextNumber_congr same)

/-- Whatever concerns the collections of the target acts on the current collections. -/
theorem Ground.serves_onTarget {α : Type} (ground : manager.Ground base place)
    (versions : Versions) {program : Path → Program α}
    (uses : ∀ target, (program target).Uses target.Concerns) :
    (manager.target >>= program).Serves (manager.Layout base place versions)
      (versions.onTarget manager program).1
      (manager.Layout base place (versions.onTarget manager program).2) := by
  intro world layout
  rw [Program.runWith_bind, layout.runWith_target]
  exact layout.run (uses _) ground

variable {database : Database}

/-- A handle serves an operation like the abstract machine. -/
theorem Ground.serve (ground : database.manager.Ground base place) (versions : Versions)
    (operation : Database.Operation) :
    (database.serve operation).Serves (database.manager.Layout base place versions)
      (versions.serve database operation).1
      (database.manager.Layout base place (versions.serve database operation).2) := by
  have essential : ∀ {versions : Versions},
      World.IsEssential (database.manager.Layout base place versions) := isEssential_layout
  cases operation with
  | execute source useIndex =>
      have serves := (ground.serves_onTarget versions fun target =>
        @Query.Executor.uses_execute (Query.Executor.ofSettings target database.name
          database.settings) source useIndex)
      rw [← ExceptT.run_bind_lift] at serves
      exact (serves.inGate essential essential database false).map Database.Reply.executed
  | createIndex label property =>
      have serves := (ground.serves_onTarget versions fun target =>
        @Query.Executor.uses_createIndex (Query.Executor.ofSettings target database.name
          database.settings) label property)
      rw [← ExceptT.run_bind_lift] at serves
      exact ((serves.inGate essential essential database false).map
        (Except.mapError DatabaseError.storage)).map Database.Reply.indexed
  | probeIndex label property value =>
      exact ((ground.serves_onTarget versions fun target => (Collections.uses_probeIndex label
        property value).mono Path.Touches.concerns).onTarget essential essential).map
          Database.Reply.probed
  | listIndexes =>
      exact ((ground.serves_onTarget versions fun target =>
        Collections.uses_listIndexes.mono Path.Touches.concerns).onTarget essential essential).map
          Database.Reply.listed
  | begin =>
      have serves : database.manager.begin.run.Serves
          (database.manager.Layout base place versions) (versions.begin database.manager).1
          (database.manager.Layout base place (versions.begin database.manager).2) :=
        fun world layout => layout.begin ground
      exact (serves.changeTransaction essential essential database).map Database.Reply.changed
  | commit =>
      have serves : database.manager.commit.run.Serves
          (database.manager.Layout base place versions) versions.commit.1
          (database.manager.Layout base place versions.commit.2) :=
        fun world layout => layout.commit ground
      exact (serves.changeTransaction essential essential database).map Database.Reply.changed
  | rollback =>
      have serves : database.manager.rollback.run.Serves
          (database.manager.Layout base place versions) versions.rollback.1
          (database.manager.Layout base place versions.rollback.2) :=
        fun world layout => layout.rollback ground
      exact (serves.changeTransaction essential essential database).map Database.Reply.changed

/-- A handle serves any operations like the abstract machine. -/
theorem Ground.serveAll (ground : database.manager.Ground base place) (versions : Versions)
    (operations : List Database.Operation) :
    (database.serveAll operations).Serves (database.manager.Layout base place versions)
      (versions.serveAll database operations).1
      (database.manager.Layout base place (versions.serveAll database operations).2) := by
  induction operations generalizing versions with
  | nil => exact fun world layout => ⟨rfl, layout⟩
  | cons operation rest ih =>
      intro world layout
      obtain ⟨reply, layoutNext⟩ := ground.serve versions operation world layout
      obtain ⟨replies, layoutLast⟩ := ih _ _ layoutNext
      rw [Database.serveAll, Program.runWith_bind, reply, Program.runWith_bind, replies]
      exact ⟨rfl, layoutLast⟩

end TransactionManager
end GraphStore
