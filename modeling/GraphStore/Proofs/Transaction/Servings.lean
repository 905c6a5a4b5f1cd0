import GraphStore.Proofs.Transaction.Endings
import GraphStore.Proofs.Transaction.Stagings

/-!
# What serving an operation does to the files

A statement acts on one directory and leaves the other, the beginning of a transaction copies the
database into the workspace, a commit publishes, and what is refused changes nothing.  Nothing is
assumed of the files, so each may be missing, malformed, or impossible to replace.
-/

namespace GraphStore

variable {path : Path} {place : List String} {name : String} {world before after : World}
  {handle : Database}

namespace World

/-- Whether the collections of a directory hold the same in two worlds. -/
def SameAt (directory : Path) (before after : World) : Prop :=
  ∀ file ∈ Collections.files,
    after.disk.contents directory file = before.disk.contents directory file

/-- Whether a workspace that belongs to somebody holds the same in two worlds. -/
def SparesOwned (workspace : Path) (before after : World) : Prop :=
  ∀ owner, before.disk.IsMarked workspace owner → SameAt workspace before after

/-- A program that concerns one directory acts on its collections as on a store. -/
structure ActsOn (directory : Path) (before after : World) {α : Type} (program : Program α)
    (value : α) : Prop where
  value_eq : value = (program.runWith Store.perform (before.storeAt directory)).1
  reads : ∀ file ∈ Collections.files, after.disk.readAt (directory.child file) =
    (program.runWith Store.perform (before.storeAt directory)).2.read file

theorem actsOn_run {α : Type} {program : Program α} {directory : Path}
    (uses : program.Uses directory.Concerns) (leads : world.disk.LeadsTo directory place) :
    world.ActsOn directory (world.run program).2 program (world.run program).1 ∧
      (world.run program).2.disk.LeadsTo directory place := by
  obtain ⟨value, holds⟩ := (holds_storeAt leads).run uses
  exact ⟨⟨value, holds.read⟩, holds.leads⟩

/-- What is done in a directory leaves a workspace in it that belongs to somebody. -/
theorem sparesOwned_run {α : Type} {program : Program α} (uses : program.Uses path.Concerns) :
    world.SparesOwned (path.child name) (world.run program).2 := by
  intro owner marked file member
  obtain ⟨there, workspace, shows, -⟩ := marked.shows
  have showsAfter := shows.run (uses.mono fun concerns => concerns.fills)
  rw [Tree.contents, shows.leadsTo_child.readAt_congr showsAfter.leadsTo_child
    (Collections.ne_empty_of_mem_files member)]
  · rfl
  · rw [Tree.find_append_of_ok shows.found, Tree.find_append_of_ok showsAfter.found]

end World

namespace Database

/-- How an operation that a handle serves ends, and what has become of the files. -/
inductive Serving (handle : Database) (before after : World) : Operation → Reply → Prop
  /-- A statement acts on the database. -/
  | onDatabase {operation : Operation} {reply : Reply} (statement : operation.IsChange = false)
      (idle : before.active.contains handle.name = false)
      (acts : before.ActsOn handle.manager.database after (handle.serveBare false operation) reply)
      (workspace : before.SparesOwned handle.manager.workspace after)
      (active : after.active = before.active) : Serving handle before after operation reply
  /-- A statement acts on the workspace. -/
  | onWorkspace {operation : Operation} {reply : Reply} (statement : operation.IsChange = false)
      (isActive : before.active.contains handle.name)
      (acts : before.ActsOn handle.manager.workspace after (handle.serveBare true operation) reply)
      (database : before.SameAt handle.manager.database after)
      (active : after.active = before.active) : Serving handle before after operation reply
  /-- A transaction is begun. -/
  | begun (idle : before.active.contains handle.name = false)
      (database : before.SameAt handle.manager.database after)
      (workspace : ∀ file ∈ Collections.files, after.disk.contents handle.manager.workspace file =
        before.disk.contents handle.manager.database file)
      (isActive : after.active.contains handle.name) :
      Serving handle before after .begin (.changed (.ok ()))
  /-- A commit publishes all collections and ends the transaction. -/
  | committed {result : Except TransactionError Unit}
      (isActive : before.active.contains handle.name)
      (all : Collections.files.takeWhile (handle.manager.canPublish before.disk) =
        Collections.files)
      (database : ∀ file ∈ Collections.files, after.disk.contents handle.manager.database file =
        handle.manager.publishes before.disk file)
      (idle : after.active.contains handle.name = false) :
      Serving handle before after .commit (.changed result)
  /-- A commit publishes some collections and leaves the transaction as it is. -/
  | interrupted {result : Except TransactionError Unit}
      (isActive : before.active.contains handle.name)
      (some : Collections.files.takeWhile (handle.manager.canPublish before.disk) ≠
        Collections.files)
      (database : ∀ file ∈ Collections.files, after.disk.contents handle.manager.database file =
        handle.manager.publishes before.disk file)
      (workspace : before.SameAt handle.manager.workspace after)
      (still : after.active.contains handle.name) :
      Serving handle before after .commit (.changed result)
  /-- A rollback ends the transaction. -/
  | rolledBack {result : Except TransactionError Unit}
      (isActive : before.active.contains handle.name)
      (database : before.SameAt handle.manager.database after)
      (idle : after.active.contains handle.name = false) :
      Serving handle before after .rollback (.changed result)
  /-- The beginning or the end of a transaction is refused. -/
  | refused {operation : Operation} {error : TransactionError} (change : operation.IsChange)
      (database : before.SameAt handle.manager.database after)
      (workspace : before.SparesOwned handle.manager.workspace after)
      (active : after.active = before.active) :
      Serving handle before after operation (.changed (.error error))

theorem Serving.congr {operation : Operation} {reply : Reply} {other : World}
    (serving : handle.Serving before after operation reply)
    (same : other.unlocked = after.unlocked) : handle.Serving before other operation reply := by
  have disk := World.disk_congr same
  have active := World.active_congr same
  cases serving with
  | onDatabase statement idle acts workspace still =>
      exact .onDatabase statement idle ⟨acts.value_eq, disk ▸ acts.reads⟩
        (fun owner marked file => disk ▸ workspace owner marked file) (active.trans still)
  | onWorkspace statement isActive acts database still =>
      exact .onWorkspace statement isActive ⟨acts.value_eq, disk ▸ acts.reads⟩
        (fun file => disk ▸ database file) (active.trans still)
  | begun idle database workspace isActive =>
      exact .begun idle (fun file => disk ▸ database file) (disk ▸ workspace) (active ▸ isActive)
  | committed isActive all database idle =>
      exact .committed isActive all (disk ▸ database) (active ▸ idle)
  | interrupted isActive some database workspace still =>
      exact .interrupted isActive some (disk ▸ database) (fun file => disk ▸ workspace file)
        (active ▸ still)
  | rolledBack isActive database idle =>
      exact .rolledBack isActive (fun file => disk ▸ database file) (active ▸ idle)
  | refused change database workspace still =>
      exact .refused change (fun file => disk ▸ database file)
        (fun owner marked file => disk ▸ workspace owner marked file) (active.trans still)

/-! ## Each kind of operation -/

section

variable {operation : Operation}

/-- What is not done on the disk changes nothing. -/
theorem serving_of_refused {error : TransactionError} (change : operation.IsChange) :
    handle.Serving world world operation (.changed (.error error)) :=
  .refused change (fun _ _ => rfl) (fun _ _ _ _ => rfl) rfl

variable (isOn : handle.IsOn path name world.process) (plain : Path.IsPlain name)
  {holder : Option Database} (held : world.HasHolder path name holder)
  (leads : world.disk.LeadsTo path place) (avoids : path.Avoids name)

include isOn plain held leads avoids

theorem IsOn.serving_statement (statement : operation.IsChange = false) :
    let ran := world.run (handle.serveBare (world.active.contains handle.name) operation)
    handle.Serving world ran.2 operation ran.1 ∧ ran.2.disk.LeadsTo path place := by
  have there := isOn.workspace_eq plain
  cases active : world.active.contains handle.name with
  | false =>
      have uses := handle.uses_serveBare statement false
      have still := (World.memory_run (uses.mono fun concerns => concerns.isQuiet) world).2
      rw [show handle.manager.targetIf false = path from isOn.database] at uses
      obtain ⟨acts, leadsAfter⟩ := World.actsOn_run uses leads
      refine ⟨.onDatabase statement active ?_ ?_ still, leadsAfter⟩
      · rw [isOn.database]
        exact acts
      · rw [there]
        exact World.sparesOwned_run uses
  | true =>
      obtain ⟨-, -, marked⟩ := isOn.marked_of_active held active
      obtain ⟨above, workspace, shows, -⟩ := marked.shows
      obtain rfl := leads.unique shows.leads
      have uses := handle.uses_serveBare statement true
      have still := (World.memory_run (uses.mono fun concerns => concerns.isQuiet) world).2
      rw [show handle.manager.targetIf true = path.child name from there] at uses
      obtain ⟨acts, leadsAfter⟩ := World.actsOn_run uses shows.leadsTo_child
      obtain ⟨spares, -⟩ := (Program.passes_fills_child (uses.mono fun concerns => concerns.fills)
        leads avoids shows.leadsTo_child).run
      refine ⟨.onWorkspace statement active ?_ ?_ still, spares.leads⟩
      · rw [there]
        exact acts
      · rw [isOn.database]
        refine fun file member => spares.contents leads
          (Collections.ne_empty_of_mem_files member) fun inside => ?_
        rw [List.mem_singleton.1 inside]
        exact ⟨shows.hasDirectory.hasNoFile, leadsAfter.2.hasNoFile⟩

theorem IsOn.serving_begin
    (avoidsStaging : path.Avoids (Replacement.temporaryName name
      (Identifier.token world.nextNumber)))
    (unused : world.disk.kindAt? (path.child (Replacement.temporaryName name
      (Identifier.token world.nextNumber))) = none) :
    let ran := handle.manager.begin.runWith World.perform world
    handle.Serving world ran.2 .begin (.changed ran.1) ∧ ran.2.disk.LeadsTo path place := by
  by_cases free : world.disk.kindAt? handle.manager.workspace = none
  · cases active : world.active.contains handle.manager.owner.handle with
    | true =>
        obtain ⟨-, -, marked⟩ := isOn.marked_of_active held active
        rw [isOn.workspace_eq plain, marked.kindAt? plain.1] at free
        cases free
    | false =>
        obtain rfl := isOn.database
        obtain rfl := isOn.workspaceName
        obtain ⟨leadsAfter, same⟩ :=
          (TransactionManager.passes_begin plain leads avoids avoidsStaging unused).run
        rw [Program.run_eq_runWith, Task.runWith_run] at leadsAfter same
        rcases TransactionManager.begin_cases active free with
          ⟨succeeds, -, -, -, -, activeAfter⟩ | ⟨⟨reason, fails⟩, -, activeAfter⟩
        · dsimp only
          rw [succeeds] at same ⊢
          refine ⟨.begun active (fun file member => (same file member).1)
            (fun file member => (same file member).2 rfl) ?_, leadsAfter⟩
          rw [activeAfter]
          exact World.contains_setMember _ true _
        · dsimp only
          rw [fails] at same ⊢
          refine ⟨.refused rfl (fun file member => (same file member).1)
            (fun owner marked => ?_) activeAfter, leadsAfter⟩
          rw [isOn.workspace_eq plain] at free marked
          rw [marked.kindAt? plain.1] at free
          cases free
  · rw [TransactionManager.runWith_begin_of_stands _ free]
    exact ⟨serving_of_refused rfl, leads⟩

theorem IsOn.serving_commit :
    let ran := handle.manager.commit.runWith World.perform world
    handle.Serving world ran.2 .commit (.changed ran.1) ∧ ran.2.disk.LeadsTo path place := by
  cases active : world.active.contains handle.manager.owner.handle with
  | false =>
      rw [TransactionManager.runWith_commit_of_idle active]
      exact ⟨serving_of_refused rfl, leads⟩
  | true =>
      obtain ⟨-, -, marked⟩ := isOn.marked_of_active held active
      rw [← isOn.workspace_eq plain] at marked
      obtain rfl := isOn.database
      obtain rfl := isOn.workspaceName
      obtain ⟨leadsAfter, published, ⟨idle, all⟩ | ⟨still, some, reads⟩⟩ :=
        TransactionManager.contents_commit plain leads avoids active marked
      · refine ⟨.committed active all (fun file member => ?_) idle, leadsAfter⟩
        exact published file (Collections.ne_empty_of_mem_files member)
      · refine ⟨.interrupted active some (fun file member => ?_) (fun file member => ?_) still,
          leadsAfter⟩
        · exact published file (Collections.ne_empty_of_mem_files member)
        · exact congrArg Except.toOption (reads file member)

theorem IsOn.serving_rollback :
    let ran := handle.manager.rollback.runWith World.perform world
    handle.Serving world ran.2 .rollback (.changed ran.1) ∧ ran.2.disk.LeadsTo path place := by
  cases active : world.active.contains handle.manager.owner.handle with
  | false =>
      rw [TransactionManager.runWith_rollback_of_idle active]
      exact ⟨serving_of_refused rfl, leads⟩
  | true =>
      obtain ⟨-, -, marked⟩ := isOn.marked_of_active held active
      rw [← isOn.workspace_eq plain] at marked
      obtain rfl := isOn.database
      obtain rfl := isOn.workspaceName
      obtain ⟨leadsAfter, same, idle⟩ :=
        TransactionManager.contents_rollback plain leads avoids active marked
      refine ⟨.rolledBack active (fun file member => ?_) idle, leadsAfter⟩
      exact same file (Collections.ne_empty_of_mem_files member)

variable (operation) in
/-- What serving an operation does to the files, whatever the operation is. -/
theorem IsOn.serving
    (avoidsStaging : path.Avoids (Replacement.temporaryName name
      (Identifier.token world.nextNumber)))
    (unused : operation = .begin → world.disk.kindAt? (path.child (Replacement.temporaryName name
      (Identifier.token world.nextNumber))) = none) :
    let ran := world.run (handle.serve operation)
    handle.Serving world ran.2 operation ran.1 ∧ ran.2.disk.LeadsTo path place := by
  obtain ⟨reply, same⟩ := handle.agreeOn_serve world operation
  let bare := handle.serveBare (world.active.contains handle.name) operation
  suffices served : handle.Serving world (world.run bare).2 operation (world.run bare).1 ∧
      (world.run bare).2.disk.LeadsTo path place by
    dsimp only
    rw [reply]
    exact ⟨served.1.congr same, World.disk_congr same ▸ served.2⟩
  by_cases statement : operation.IsChange = false
  · exact isOn.serving_statement plain held leads avoids statement
  · cases operation with
    | begin =>
        rw [show bare = Reply.changed <$> handle.manager.begin.run from rfl, World.run_map,
          Program.run_eq_runWith]
        exact isOn.serving_begin plain held leads avoids avoidsStaging (unused rfl)
    | commit =>
        rw [show bare = Reply.changed <$> handle.manager.commit.run from rfl, World.run_map,
          Program.run_eq_runWith]
        exact isOn.serving_commit plain held leads avoids
    | rollback =>
        rw [show bare = Reply.changed <$> handle.manager.rollback.run from rfl, World.run_map,
          Program.run_eq_runWith]
        exact isOn.serving_rollback plain held leads avoids
    | _ => exact absurd rfl statement

end

end Database
end GraphStore
