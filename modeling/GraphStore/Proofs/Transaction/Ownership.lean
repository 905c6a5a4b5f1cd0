import GraphStore.Proofs.Disk.Updates
import GraphStore.Proofs.Transaction.Contents

/-!
# Who may end a transaction

The marker of the workspace says whose it is.  Unless it names the manager, a commit changes none of
the collections of the database, and a rollback changes none in any case; and if it names somebody
else, neither touches the disk.  Either way the manager is idle afterwards.
-/

namespace GraphStore

/-- A path leads nowhere but to its place. -/
theorem Tree.placeOf_of_locate {tree : Tree} {path : Path} {target : List String}
    (located : tree.locate path = .ok target) : Path.placeOf [] path.steps = target :=
  placeOf_of_follow (follow_of_locate located)

theorem Path.placeOf_child (path : Path) (name : String) :
    placeOf [] (path.child name).steps = placeOf [] path.steps ++ [name] := by
  simp [placeOf, child, Step.follow]

/-! ## Files beside a workspace -/

theorem Tree.HasNoFile.read {tree : Tree} {place : List String} (noFile : tree.HasNoFile place) :
    (tree.read place).toOption = none := by
  rw [Tree.read]
  split
  · next content found => exact absurd found (noFile content)
  · rfl
  · rfl

/-- An empty directory that is removed is no file, before and after. -/
theorem Tree.read_removeDirectory {tree : Tree} {target above : List String} {file : String}
    (apart : ¬target <+: above) :
    ((tree.removeDirectory target).2.read (above ++ [file])).toOption =
      (tree.read (above ++ [file])).toOption := by
  by_cases isPrefix : target <+: above ++ [file]
  · have same := (List.prefix_concat_iff.1 isPrefix).resolve_right apart
    rw [← same]
    unfold Tree.removeDirectory
    split
    · next found =>
        have noFile := HasDirectory.hasNoFile ⟨_, found⟩
        rw [(noFile.update_none _).read, noFile.read]
    · rfl
  · unfold Tree.removeDirectory
    split
    · exact congrArg _ (read_update_of_apart isPrefix none)
    · rfl

/-- What cleans a workspace leaves a file alone that is not below it: the content stays, or there is
none before and after. -/
theorem Action.Cleans.read_perform {action : Action} {workspace : Path} {above : List String}
    {file : String} {world : World} (cleans : action.Cleans workspace)
    (apart : ¬Path.placeOf [] workspace.steps <+: above) :
    ((world.perform action).2.disk.read (above ++ [file])).toOption =
      (world.disk.read (above ++ [file])).toOption := by
  -- An entry of the workspace is not at or above the file.
  have entryApart : ∀ {entry target}, world.disk.locate (workspace.child entry) = .ok target →
      ¬target <+: above ++ [file] := by
    rintro entry target located isPrefix
    rw [← Tree.placeOf_of_locate located, Path.placeOf_child] at isPrefix
    rcases List.prefix_concat_iff.1 isPrefix with same | before
    · exact apart ((List.append_inj' same rfl).1 ▸ List.prefix_rfl)
    · exact apart ((List.prefix_append _ _).trans before)
  cases action with
  | removeFile path =>
      obtain ⟨entry, rfl⟩ := cleans
      simp only [World.perform, World.onDisk, Tree.removeFileAt, Tree.changeAt, Tree.removeFile]
      repeat' split
      all_goals first | rfl | exact congrArg _ (Tree.read_update_of_apart (entryApart ‹_›) _)
  | removeAll path =>
      obtain ⟨entry, rfl⟩ := cleans
      simp only [World.perform, World.onDisk, Tree.removeAllAt, Tree.namesEntry_child,
        Tree.removeAll]
      repeat' split
      all_goals first
        | rfl
        | exact congrArg _ (Tree.read_update_of_apart (entryApart ‹_›) _)
        | contradiction
  | removeDirectory path =>
      obtain rfl := cleans
      simp only [World.perform, World.onDisk, Tree.removeDirectoryAt, Tree.changeAt]
      split
      · next target located =>
          rw [Tree.placeOf_of_locate located] at apart
          split
          · exact Tree.read_removeDirectory apart
          · rfl
      · rfl
  | _ => first | exact cleans.elim | rfl

namespace TransactionManager

/-- What a collection of the database holds, seen from the place to which the path of the database
leads. -/
def primary (manager : TransactionManager) (disk : Tree) (file : String) : Option Content :=
  (disk.read (Path.placeOf [] manager.database.steps ++ [file])).toOption

/-- Whether the path of the workspace does not lead to the directory of the database or one above
it. -/
def IsApart (manager : TransactionManager) : Prop :=
  ¬Path.placeOf [] manager.workspace.steps <+: Path.placeOf [] manager.database.steps

instance (manager : TransactionManager) : Decidable manager.IsApart :=
  inferInstanceAs (Decidable (¬_))

/-- The name of a workspace that the configuration allows is one of an entry of the database. -/
theorem isApart_of_isPlain {manager : TransactionManager}
    (plain : Path.IsPlain manager.workspaceName) : manager.IsApart := by
  rw [IsApart, workspace, Path.join_of_isPlain _ plain, Path.placeOf_child]
  intro isPrefix
  have short := isPrefix.length_le
  simp at short

/-- Who finishes changes no collection of the database. -/
theorem primary_finish {manager : TransactionManager} (apart : manager.IsApart) (world : World)
    (file : String) :
    manager.primary (manager.finish.runWith World.perform world).2.disk file =
      manager.primary world.disk file := by
  have passes := Program.passes_of_uses
    (fun stopped : World => manager.primary stopped.disk file = manager.primary world.disk file)
    manager.uses_finish (fun same cleans => (cleans.read_perform apart).trans same) rfl
  exact passes.runWith

/-- Who finishes and finds the marker of somebody else leaves the disk as it is. -/
theorem disk_finish_of_foreign {manager : TransactionManager} {world : World} {other : Owner}
    (marked : Owner.ofContent? (world.disk.readAt (manager.workspace.child Owner.file)) =
      some other) (foreign : other ≠ manager.owner) :
    (manager.finish.runWith World.perform world).2.disk = world.disk := by
  rw [finish, Task.runWith_bind_of_ok (Task.runWith_lift _ _ _), Owner.runWith_read, marked]
  simp only [Option.any_some, decide_eq_true_eq, ne_eq, foreign, not_false_eq_true, if_true]
  rfl

/-- A commit whose workspace is not its own finishes and fails. -/
theorem runWith_commit_of_unowned {manager : TransactionManager} {world : World}
    (active : manager.owner.handle ∈ world.active)
    (unowned : Owner.ofContent? (world.disk.readAt (manager.workspace.child Owner.file)) ≠
      some manager.owner) :
    (∃ error, (manager.commit.runWith World.perform world).1 = .error error) ∧
      (manager.commit.runWith World.perform world).2 =
        (manager.finish.runWith World.perform world).2 := by
  have isActive : world.active.contains manager.owner.handle = true := by simpa using active
  have owns : manager.ownsWorkspace.runWith World.perform world = (false, world) := by
    rw [ownsWorkspace, Program.runWith_bind, Owner.runWith_read]
    simp [unowned]
  rw [commit, Task.runWith_bind_of_ok (Task.runWith_lift _ _ _), runWith_isActive, isActive]
  simp only [Bool.not_true, Bool.false_eq_true, if_false]
  rw [Task.runWith_bind_of_ok (Task.runWith_lift _ _ _), owns]
  simp only [Bool.false_eq_true, if_false]
  rw [Task.runWith_bind]
  rcases manager.finish.runWith World.perform world with ⟨_ | value, after⟩
  · exact ⟨⟨_, rfl⟩, rfl⟩
  · exact ⟨⟨_, rfl⟩, rfl⟩

/-- Who finishes is idle. -/
theorem not_mem_finish (manager : TransactionManager) (world : World) :
    manager.owner.handle ∉ (manager.finish.runWith World.perform world).2.active ∧
      manager.owner.handle ∉ (manager.finish.runWith World.perform world).2.live := by
  obtain ⟨live, active⟩ := memory_finish manager world
  rw [live, active]
  have gone : ∀ members, manager.owner.handle ∉ World.setMember manager.owner.handle false members :=
    fun members => by simp [World.setMember]
  exact ⟨gone _, gone _⟩

/-- A manager that is active ends its transaction as the marker of the workspace says, whatever the
workspace holds: unless the marker is its own, a commit fails, changes no collection of the database
and leaves the manager idle; a rollback changes none in any case and leaves it idle; and if the
marker names somebody else, both leave the disk as it is.  The workspace must not be the directory of
the database or one above it, which no allowed name makes it. -/
theorem ends_as_marked {manager : TransactionManager} {world : World}
    (active : manager.owner.handle ∈ world.active) (apart : manager.IsApart) :
    let marker := Owner.ofContent? (world.disk.readAt (manager.workspace.child Owner.file))
    let committed := world.run manager.commit.run
    let rolledBack := world.run manager.rollback.run
    (marker ≠ some manager.owner →
      (∃ error, committed.1 = .error error) ∧
        (∀ file ∈ Collections.files,
          manager.primary committed.2.disk file = manager.primary world.disk file) ∧
        manager.owner.handle ∉ committed.2.active ∧ manager.owner.handle ∉ committed.2.live) ∧
      ((∀ file ∈ Collections.files,
          manager.primary rolledBack.2.disk file = manager.primary world.disk file) ∧
        manager.owner.handle ∉ rolledBack.2.active ∧ manager.owner.handle ∉ rolledBack.2.live) ∧
      ∀ other, marker = some other → other ≠ manager.owner →
        committed.2.disk = world.disk ∧ rolledBack.2.disk = world.disk := by
  have isActive : world.active.contains manager.owner.handle := by simpa using active
  simp only [Program.run_eq_runWith, Task.runWith_run, runWith_rollback_of_active isActive]
  refine ⟨fun unowned => ?_, ⟨fun file _ => primary_finish apart world file,
    manager.not_mem_finish world⟩, fun other marked foreign => ?_⟩
  · obtain ⟨fails, ended⟩ := runWith_commit_of_unowned active unowned
    rw [ended]
    exact ⟨fails, fun file _ => primary_finish apart world file, manager.not_mem_finish world⟩
  · have unowned : Owner.ofContent?
        (world.disk.readAt (manager.workspace.child Owner.file)) ≠ some manager.owner := by
      rw [marked]
      exact fun same => foreign (Option.some.inj same)
    rw [(runWith_commit_of_unowned active unowned).2]
    exact ⟨disk_finish_of_foreign marked foreign, disk_finish_of_foreign marked foreign⟩

/-- The workspace of an active manager was replaced by that of a handle of another process. -/
theorem ends_as_marked_of_foreign_workspace :
    let manager : TransactionManager := ⟨.ofText "db", "work", ⟨2, "own"⟩⟩
    let world : World :=
      { active := ["own"]
        live := ["own"]
        disk := .directory [("db", .directory
          [("nodes.json", .file (.text "[]")),
            ("work", .directory
              [("nodes.json", .file (.text "[1]")),
                ("owner.json", .file (.text (Owner.markerText ⟨1, "other"⟩)))])])] }
    (∃ error, (world.run manager.commit.run).1 = .error error) ∧
      (world.run manager.commit.run).2.disk = world.disk ∧
      (world.run manager.rollback.run).2.disk = world.disk ∧
      manager.owner.handle ∉ (world.run manager.rollback.run).2.live := by
  intro manager world
  have active : manager.owner.handle ∈ world.active := by decide
  have apart : manager.IsApart := by decide +kernel
  have marked : Owner.ofContent? (world.disk.readAt (manager.workspace.child Owner.file)) =
      some ⟨1, "other"⟩ := by decide +kernel
  have unowned : Owner.ofContent? (world.disk.readAt (manager.workspace.child Owner.file)) ≠
      some manager.owner := by decide +kernel
  have foreign : (⟨1, "other"⟩ : Owner) ≠ manager.owner := by decide
  obtain ⟨fails, idle, kept⟩ := ends_as_marked active apart
  exact ⟨(fails unowned).1, (kept _ marked foreign).1, (kept _ marked foreign).2, idle.2.2⟩

/-- A name that leads from a missing directory of the database to the directory itself, and back
there from the name under which a workspace is staged, makes the directory of the database the
workspace, and a rollback removes what was put there. -/
theorem rollback_removes_collection :
    let manager : TransactionManager := ⟨.ofText "x/db", "./../db", ⟨2, "own"⟩⟩
    let begun := ({} : World).run manager.begin.run
    let world := { begun.2 with
      disk := (begun.2.disk.writeAt (manager.database.child Collections.nodesFile) (.text "[]")).2 }
    begun.1 = .ok () ∧ manager.owner.handle ∈ world.active ∧
      manager.primary world.disk Collections.nodesFile = some (.text "[]") ∧
      manager.primary (world.run manager.rollback.run).2.disk Collections.nodesFile = none := by
  decide +kernel

end TransactionManager
end GraphStore
