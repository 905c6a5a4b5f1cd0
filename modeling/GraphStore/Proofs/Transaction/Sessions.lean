import GraphStore.Proofs.Query.Effects
import GraphStore.Proofs.Transaction.Markers
import GraphStore.Proofs.Transaction.Service

/-!
# Sessions of a process

In a session one process opens any number of handles on one directory, lets them serve operations
and closes them, in any order.  Each event is a whole run.  What it does to the disk and to the
memory of the process is what it would do without locks and gates.
-/

namespace GraphStore

/-! ## Events -/

/-- The world of a process, and the handles that are open. -/
structure Session where
  world : World
  handles : List Database

namespace Session

/-- What may happen in a session on one directory. -/
inductive Event where
  /-- A handle is opened. -/
  | «open» (settings : Settings)
  /-- A handle serves an operation. -/
  | serve (handle : Database) (operation : Database.Operation)
  /-- A handle is given up. -/
  | close (handle : Database)
  /-- A text is executed against the directory without a handle. -/
  | respond (source : String) (useIndex : Bool)

/-- The handle that an event uses. -/
def Event.handle? : Event → Option Database
  | .serve handle _ | .close handle => some handle
  | .open _ | .respond .. => none

/-- The session after an event. -/
def after (path : Path) (session : Session) : Event → Session
  | .open settings =>
    match session.world.run (Database.open path settings).run with
    | (.ok handle, world) => ⟨world, handle :: session.handles⟩
    | (.error _, world) => ⟨world, session.handles⟩
  | .serve handle operation => ⟨(session.world.run (handle.serve operation)).2, session.handles⟩
  | .close handle => ⟨(session.world.run handle.close).2, session.handles.erase handle⟩
  | .respond source useIndex =>
    ⟨(session.world.run (Query.respond path source useIndex)).2, session.handles⟩

theorem world_after_open (path : Path) (session : Session) (settings : Settings) :
    (session.after path (.open settings)).world =
      (session.world.run (Database.open path settings).run).2 := by
  rw [after]
  split <;> next ran => rw [ran]

/-- Every event is a run of a program. -/
theorem exists_run (path : Path) (session : Session) (event : Event) :
    ∃ (α : Type) (program : Program α),
      (session.after path event).world = (session.world.run program).2 := by
  cases event with
  | «open» settings => exact ⟨_, _, session.world_after_open path settings⟩
  | serve | close | respond => exact ⟨_, _, rfl⟩

/-- Whether an event may happen: workspaces have the given name, the id of a new handle is none of
those that are in use, and only open handles are used. -/
def Admits (name : String) (session : Session) : Event → Prop
  | .open settings => settings.workspaceName = name ∧
      Identifier.ofNumber session.world.nextNumber ∉ session.handles.map Database.name
  | .serve handle _ | .close handle => handle ∈ session.handles
  | .respond .. => True

instance (name : String) (session : Session) (event : Event) :
    Decidable (session.Admits name event) :=
  match event with
  | .open _ => inferInstanceAs (Decidable (_ ∧ _))
  | .serve handle _ | .close handle => inferInstanceAs (Decidable (handle ∈ session.handles))
  | .respond .. => inferInstanceAs (Decidable True)

/-- The sessions to which admitted events lead. -/
inductive Reaches (path : Path) (name : String) (start : Session) : Session → Prop where
  /-- Nothing has happened. -/
  | start : Reaches path name start start
  /-- One more event happens. -/
  | step {session : Session} {event : Event} (reaches : Reaches path name start session)
      (admits : session.Admits name event) : Reaches path name start (session.after path event)

end Session

/-! ## Runs apart from locks and gates -/

variable {α β : Type}

namespace Program

/-- Worlds that differ in locks and gates only serve a program alike. -/
theorem serves_unlocked (program : Program α) (world : World) :
    program.Serves (fun other => other.unlocked = world.unlocked) (world.run program).1
      (fun other => other.unlocked = (world.run program).2.unlocked) := by
  intro other same
  rw [← run_eq_runWith]
  exact World.run_congr same program

theorem isEssential_unlocked (world : World) :
    World.IsEssential fun other => other.unlocked = world.unlocked :=
  fun holds same => same.trans holds

theorem Serves.agreeOn {program other : Program α} {world : World}
    (serves : program.Serves (fun other => other.unlocked = world.unlocked) (world.run other).1
      (fun after => after.unlocked = (world.run other).2.unlocked)) :
    program.AgreeOn world other := by
  have same := serves world rfl
  rw [← run_eq_runWith] at same
  exact same

end Program

theorem World.run_map (world : World) (change : α → β) (program : Program α) :
    world.run (change <$> program) = (change (world.run program).1, (world.run program).2) := by
  rw [Program.run_eq_runWith, Program.runWith_map, ← Program.run_eq_runWith]

theorem TransactionManager.serves_target (manager : TransactionManager) (world : World)
    (program : Path → Program α) :
    let bare := program (manager.targetIf (world.active.contains manager.owner.handle))
    (manager.target >>= program).Serves (fun other => other.unlocked = world.unlocked)
      (world.run bare).1 (fun other => other.unlocked = (world.run bare).2.unlocked) := by
  intro bare other same
  have target : manager.target.runWith World.perform other =
      (manager.targetIf (world.active.contains manager.owner.handle), other) := by
    rw [target, Program.runWith_bind, isActive, Program.runWith_perform, World.perform,
      World.active_congr same, targetIf]
    cases world.active.contains manager.owner.handle <;> rfl
  rw [Program.runWith_bind, target]
  exact Program.serves_unlocked bare world other same

namespace Database

/-- What a handle does for an operation apart from locks and gates, if its transaction is active or
not. -/
def serveBare (database : Database) (active : Bool) : Operation → Program Reply
  | .execute source useIndex =>
    Reply.executed <$> ((Query.Executor.ofSettings (database.manager.targetIf active)
      database.name database.settings).execute source useIndex).run
  | .createIndex label property =>
    Reply.indexed <$> Except.mapError DatabaseError.storage <$>
      ((Query.Executor.ofSettings (database.manager.targetIf active) database.name
        database.settings).createIndex label property).run
  | .probeIndex label property value =>
    Reply.probed <$> Collections.probeIndex (database.manager.targetIf active) label property value
  | .listIndexes => Reply.listed <$> Collections.listIndexes (database.manager.targetIf active)
  | .begin => Reply.changed <$> database.manager.begin.run
  | .commit => Reply.changed <$> database.manager.commit.run
  | .rollback => Reply.changed <$> database.manager.rollback.run

variable (database : Database) (world : World)

theorem agreeOn_serve (operation : Operation) :
    (database.serve operation).AgreeOn world
      (database.serveBare (world.active.contains database.name) operation) := by
  have essential := Program.isEssential_unlocked
  have change : ∀ task : Task TransactionError Unit,
      (database.changeTransaction task).run.Serves (fun other => other.unlocked = world.unlocked)
        (world.run task.run).1 (fun other => other.unlocked = (world.run task.run).2.unlocked) :=
    fun task => (Program.serves_unlocked task.run world).changeTransaction (essential _)
      (essential _) database
  apply Program.Serves.agreeOn
  cases operation with
  | execute source useIndex =>
      have serves := database.manager.serves_target world fun target =>
        ((Query.Executor.ofSettings target database.name database.settings).execute source
          useIndex).run
      rw [← ExceptT.run_bind_lift] at serves
      rw [serveBare, World.run_map]
      exact (serves.inGate (essential _) (essential _) database false).map Reply.executed
  | createIndex label property =>
      have serves := database.manager.serves_target world fun target =>
        ((Query.Executor.ofSettings target database.name database.settings).createIndex label
          property).run
      rw [← ExceptT.run_bind_lift] at serves
      rw [serveBare, World.run_map, World.run_map]
      exact ((serves.inGate (essential _) (essential _) database false).map
        (Except.mapError DatabaseError.storage)).map Reply.indexed
  | probeIndex label property value =>
      have serves := database.manager.serves_target world fun target =>
        Collections.probeIndex target label property value
      rw [serveBare, World.run_map]
      exact (serves.onTarget (essential _) (essential _)).map Reply.probed
  | listIndexes =>
      have serves := database.manager.serves_target world Collections.listIndexes
      rw [serveBare, World.run_map]
      exact (serves.onTarget (essential _) (essential _)).map Reply.listed
  | begin =>
      rw [serveBare, World.run_map]
      exact (change _).map Reply.changed
  | commit =>
      rw [serveBare, World.run_map]
      exact (change _).map Reply.changed
  | rollback =>
      rw [serveBare, World.run_map]
      exact (change _).map Reply.changed

/-- The directory on which statements act. -/
theorem run_target_eq : (world.run database.manager.target).1 =
    database.manager.targetIf (world.active.contains database.name) := by
  rw [Program.run_eq_runWith, TransactionManager.target, TransactionManager.isActive,
    Program.runWith_bind, Program.runWith_perform, World.perform, TransactionManager.targetIf,
    Database.name]
  dsimp only
  split <;> rfl

/-- Whether an operation begins or ends a transaction. -/
def Operation.IsChange : Operation → Bool
  | .begin | .commit | .rollback => true
  | _ => false

/-- Statements concern the collections of the target. -/
theorem uses_serveBare {operation : Operation} (statement : operation.IsChange = false)
    (active : Bool) :
    (database.serveBare active operation).Uses (database.manager.targetIf active).Concerns := by
  let executor := Query.Executor.ofSettings (database.manager.targetIf active) database.name
    database.settings
  cases operation with
  | execute source useIndex =>
      have uses := @Query.Executor.uses_execute executor source useIndex
      exact Program.uses_map _ uses
  | createIndex label property =>
      have uses := @Query.Executor.uses_createIndex executor label property
      exact Program.uses_map _ (Program.uses_map _ uses)
  | probeIndex label property value =>
      exact Program.uses_map _
        ((Collections.uses_probeIndex label property value).mono Path.Touches.concerns)
  | listIndexes => exact Program.uses_map _ (Collections.uses_listIndexes.mono Path.Touches.concerns)
  | begin | commit | rollback => cases statement

end Database

theorem Query.uses_respond (path : Path) (source : String) (useIndex : Bool) :
    (respond path source useIndex).Uses path.Concerns := by
  have uses := @Executor.uses_execute (Executor.ofSettings path ("directory " ++ path.text) {})
    source useIndex
  exact Program.uses_map _ uses

end GraphStore
