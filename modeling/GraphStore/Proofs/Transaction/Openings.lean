import GraphStore.Proofs.Transaction.Service

/-!
# Opening handles

Opening a handle on a directory only draws a number for its id.  It is refused if a file stands where
the workspace of the handle would be.
-/

namespace GraphStore

namespace TransactionManager

variable {manager : TransactionManager} {world : World}

theorem runWith_recover_of_active (active : world.active.contains manager.owner.handle) :
    manager.recover.runWith World.perform world = (.ok false, world) := by
  rw [recover, Task.runWith_bind_of_ok (Task.runWith_lift _ _ _), isActive, Program.runWith_perform]
  simp only [World.perform, active, if_true]
  rfl

/-- Where there is no workspace, nothing is recovered. -/
theorem runWith_recover_of_free (idle : world.active.contains manager.owner.handle = false)
    (free : world.disk.kindAt? manager.workspace = none) :
    manager.recover.runWith World.perform world = (.ok false, world) := by
  rw [recover, Task.runWith_bind_of_ok (Task.runWith_lift _ _ _), isActive, Program.runWith_perform]
  simp only [World.perform, idle, Bool.false_eq_true, if_false]
  rw [Task.runWith_bind_of_ok (Task.runWith_lift _ _ _), runWith_workspaceExists, free]
  rfl

/-- A file in the place of the workspace is no workspace that can be recovered. -/
theorem runWith_recover_of_file {place : List String}
    (idle : world.active.contains manager.owner.handle = false)
    (leads : world.disk.LeadsTo manager.database place) (plain : Path.IsPlain manager.workspaceName)
    (file : world.disk.kindAt? manager.workspace = some .file) :
    manager.recover.runWith World.perform world =
      (.error (.storage (.io manager.workspace.text)), world) := by
  have joined : manager.workspace = manager.database.child manager.workspaceName :=
    Path.join_of_isPlain manager.database plain
  obtain ⟨content, found⟩ : ∃ content, world.disk.findAt manager.workspace = .ok (.file content) := by
    unfold Tree.kindAt? at file
    cases found : world.disk.findAt manager.workspace with
    | error fault =>
        rw [found] at file
        cases file
    | ok entry =>
        rw [found] at file
        cases entry with
        | file content => exact ⟨content, rfl⟩
        | directory entries => cases file
  have unlisted : world.disk.listAt manager.workspace = .error .obstructed := by
    rw [Tree.listAt, found]
  have unmarked : (Owner.read manager.workspace).runWith World.perform world = (none, world) := by
    have usable : (manager.database.child manager.workspaceName).isUsable := by
      cases usable : (manager.database.child manager.workspaceName).isUsable with
      | true => rfl
      | false =>
          rw [joined, Tree.findAt, leads.locate_child plain.1, usable] at found
          cases found
    rw [joined, leads.findAt_child plain.1 usable] at found
    obtain ⟨fault, unread⟩ := leads.readAt_below_file found Owner.file
    rw [Owner.read, Program.runWith_bind, Program.runWith_perform, World.perform, joined, unread]
    rfl
  rw [recover, Task.runWith_bind_of_ok (Task.runWith_lift _ _ _), isActive, Program.runWith_perform]
  simp only [World.perform, idle, Bool.false_eq_true, if_false]
  rw [Task.runWith_bind_of_ok (Task.runWith_lift _ _ _), runWith_workspaceExists, file]
  simp only [Option.isSome_some, Bool.not_true, Bool.false_eq_true, if_false]
  rw [Task.runWith_bind_of_ok (Task.runWith_lift _ _ _), unmarked]
  simp only
  have cleaned := congrArg (fun ran : Except StorageError Unit × World =>
    (ran.1.mapError TransactionError.storage, ran.2))
    (Workspace.runWith_cleanup_of_obstructed unlisted)
  rw [← Task.runWith_mapError] at cleaned
  exact Task.runWith_bind_of_error cleaned _

end TransactionManager

namespace Database

variable {path : Path} {settings : Settings} {database : Database} {world opened : World}

/-- The handle that is opened next. -/
def next (path : Path) (settings : Settings) (world : World) : Database :=
  ⟨path, settings, path, settings.workspaceName, world.process,
    Identifier.ofNumber world.nextNumber⟩

/-- A handle that was opened has allowed settings, and its manager names the process and a fresh
id. -/
theorem open_eq_ok (ran : world.run (Database.open path settings).run = (.ok database, opened)) :
    settings.isValid ∧ database = next path settings world := by
  rw [Program.run_eq_runWith, Task.runWith_run, Database.open] at ran
  cases valid : settings.isValid with
  | false =>
      rw [valid] at ran
      cases ran
  | true =>
      simp only [valid, Bool.not_true, Bool.false_eq_true, if_false] at ran
      rw [Task.runWith_bind_of_ok (Task.runWith_perform _ _ _)] at ran
      cases made : (world.perform (.makeDirectories path)).1 with
      | false =>
          simp only [made, Bool.not_false, if_true] at ran
          cases ran
      | true =>
          simp only [made, Bool.not_true, Bool.false_eq_true, if_false] at ran
          rw [Task.runWith_bind_of_ok (Task.runWith_lift _ _ _), Task.runWith_bind] at ran
          split at ran
          · cases ran
            exact ⟨rfl, rfl⟩
          · cases ran

/-- On an existing directory, opening a handle recovers its workspace. -/
theorem runWith_open_eq {place : List String} (valid : settings.isValid) (usable : path.isUsable)
    (leads : world.disk.LeadsTo path place) :
    (Database.open path settings).runWith World.perform world =
      match (next path settings world).manager.recover.runWith World.perform
          { world with nextNumber := world.nextNumber + 1 } with
      | (.ok _, after) => (.ok (next path settings world), after)
      | (.error error, after) => (.error (.transaction error), after) := by
  have made : world.disk.makeDirectoriesAt path = (true, world.disk) := by
    rw [Tree.makeDirectoriesAt, if_pos usable, Tree.makeAlong_of_follow leads.1 leads.2]
  rw [Database.open, valid]
  simp only [Bool.not_true, Bool.false_eq_true, if_false]
  rw [Task.runWith_bind_of_ok (Task.runWith_perform _ _ _)]
  simp only [World.perform, World.onDisk, made, Bool.not_true, Bool.false_eq_true, if_false]
  rw [Task.runWith_bind_of_ok (Task.runWith_lift _ _ _), Task.runWith_bind, Task.runWith_mapError]
  have created : (TransactionManager.create path settings.workspaceName).runWith World.perform
      world = ((next path settings world).manager,
        { world with nextNumber := world.nextNumber + 1 }) := rfl
  rw [created]
  simp only
  rcases (next path settings world).manager.recover.runWith World.perform
    { world with nextNumber := world.nextNumber + 1 } with ⟨error | recovered, after⟩
  · rfl
  · rfl

theorem contains_next_of_fresh (fresh : Identifier.ofNumber world.nextNumber ∉ world.active) :
    world.active.contains (next path settings world).manager.owner.handle = false :=
  Bool.eq_false_iff.2 fun inside => fresh (List.contains_iff_mem.1 inside)

/-- Opening a handle on a directory without workspace only draws a number. -/
theorem runWith_open_of_free {place : List String} (valid : settings.isValid)
    (usable : path.isUsable) (leads : world.disk.LeadsTo path place)
    (free : world.disk.kindAt? (path.join settings.workspaceName) = none)
    (fresh : Identifier.ofNumber world.nextNumber ∉ world.active) :
    (Database.open path settings).runWith World.perform world =
      (.ok (next path settings world), { world with nextNumber := world.nextNumber + 1 }) := by
  have idle := @contains_next_of_fresh path settings world fresh
  have recovered := @TransactionManager.runWith_recover_of_free (next path settings world).manager
    { world with nextNumber := world.nextNumber + 1 } idle free
  rw [runWith_open_eq valid usable leads, recovered]

/-- A handle is not opened if a file stands in the place of its workspace. -/
theorem runWith_open_of_file {place : List String} (valid : settings.isValid)
    (usable : path.isUsable) (leads : world.disk.LeadsTo path place)
    (file : world.disk.kindAt? (path.join settings.workspaceName) = some .file)
    (fresh : Identifier.ofNumber world.nextNumber ∉ world.active) :
    (Database.open path settings).runWith World.perform world =
      (.error (.transaction (.storage (.io (path.join settings.workspaceName).text))),
        { world with nextNumber := world.nextNumber + 1 }) := by
  have idle := @contains_next_of_fresh path settings world fresh
  have refused := @TransactionManager.runWith_recover_of_file (next path settings world).manager
    { world with nextNumber := world.nextNumber + 1 } place idle leads
    (Settings.isPlain_of_isPlainName valid) file
  rw [runWith_open_eq valid usable leads, refused]
  rfl

/-- Opening a handle on an existing directory does to the disk what recovering its workspace does. -/
theorem disk_runWith_open_of_recover {place : List String} (leads : world.disk.LeadsTo path place)
    (recovers : settings.isValid → ((next path settings world).manager.recover.runWith World.perform
      { world with nextNumber := world.nextNumber + 1 }).2.disk = world.disk) :
    ((Database.open path settings).runWith World.perform world).2.disk = world.disk := by
  cases valid : settings.isValid with
  | false =>
      rw [Database.open, valid]
      rfl
  | true =>
      cases usable : path.isUsable with
      | false =>
          have made : world.disk.makeDirectoriesAt path = (false, world.disk) := by
            rw [Tree.makeDirectoriesAt, usable, if_neg Bool.false_ne_true]
          rw [Database.open, valid]
          simp only [Bool.not_true, Bool.false_eq_true, if_false]
          rw [Task.runWith_bind_of_ok (Task.runWith_perform _ _ _)]
          simp only [World.perform, World.onDisk, made, Bool.not_false, if_true]
          rfl
      | true =>
          rw [runWith_open_eq valid usable leads]
          split
          · next recovered =>
              rw [← recovers valid, recovered]
          · next recovered =>
              rw [← recovers valid, recovered]

/-- If no directory stands in the place of the workspace, opening a handle leaves the disk as it
is. -/
theorem disk_runWith_open {place : List String} (leads : world.disk.LeadsTo path place)
    (noDirectory : settings.isValid →
      world.disk.kindAt? (path.join settings.workspaceName) ≠ some .directory) :
    ((Database.open path settings).runWith World.perform world).2.disk = world.disk := by
  refine disk_runWith_open_of_recover leads fun valid => ?_
  let drawn : World := { world with nextNumber := world.nextNumber + 1 }
  by_cases active : Identifier.ofNumber world.nextNumber ∈ world.active
  · rw [@TransactionManager.runWith_recover_of_active (next path settings world).manager drawn
      (List.contains_iff_mem.2 active)]
  · have idle := @contains_next_of_fresh path settings world active
    cases stands : world.disk.kindAt? (path.join settings.workspaceName) with
    | none =>
        rw [@TransactionManager.runWith_recover_of_free (next path settings world).manager drawn idle
          stands]
    | some kind =>
        cases kind with
        | file =>
            rw [@TransactionManager.runWith_recover_of_file (next path settings world).manager drawn
              place idle leads (Settings.isPlain_of_isPlainName valid) stands]
        | directory => exact absurd stands (noDirectory valid)

/-- A handle that was opened under a fresh id found no workspace, unless a directory stood there. -/
theorem free_of_runWith_open {place : List String}
    (leads : world.disk.LeadsTo path place) (usable : path.isUsable)
    (fresh : Identifier.ofNumber world.nextNumber ∉ world.active)
    (noDirectory : world.disk.kindAt? (path.join settings.workspaceName) ≠ some .directory)
    (ran : (Database.open path settings).runWith World.perform world = (.ok database, opened)) :
    world.disk.kindAt? (path.join settings.workspaceName) = none := by
  have started : world.run (Database.open path settings).run = (.ok database, opened) := by
    rw [Program.run_eq_runWith]
    exact ran
  obtain ⟨valid, -⟩ := open_eq_ok started
  cases stands : world.disk.kindAt? (path.join settings.workspaceName) with
  | none => rfl
  | some kind =>
      cases kind with
      | file =>
          rw [runWith_open_of_file valid usable leads stands fresh] at ran
          cases ran
      | directory => exact absurd stands noDirectory

end Database
end GraphStore
