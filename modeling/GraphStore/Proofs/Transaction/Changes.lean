import GraphStore.Proofs.Transaction.Layouts

/-!
# Beginning and ending transactions

On a layout a transaction begins by showing the committed collections in a workspace, and it ends by
giving the workspace up, after its collections became the committed ones or not.
-/

namespace GraphStore

namespace Versions

/-- Begin a transaction on a copy of the committed collections, unless there is one.  A number is
drawn for the hidden name of the workspace. -/
def begin (manager : TransactionManager) (versions : Versions) :
    Except TransactionError Unit × Versions :=
  match versions.working with
  | some _ => (.error .alreadyActive, versions)
  | none =>
    let drawn := { versions with nextNumber := versions.nextNumber + 1 }
    if manager.CanStage then (.ok (), { drawn with working := some versions.committed })
    else
      let staging := manager.database.join (manager.hiddenName versions.nextNumber)
      (.error (.storage (.io staging.text)), drawn)

/-- Commit the transaction. -/
def commit (versions : Versions) : Except TransactionError Unit × Versions :=
  match versions.working with
  | some working => (.ok (), { versions with committed := working, working := none })
  | none => (.error .noActiveTransaction, versions)

/-- Roll the transaction back. -/
def rollback (versions : Versions) : Except TransactionError Unit × Versions :=
  match versions.working with
  | some _ => (.ok (), { versions with working := none })
  | none => (.error .noActiveTransaction, versions)

end Versions

theorem World.contains_setMember (member : String) (present : Bool) (members : List String) :
    (setMember member present members).contains member = present := by
  unfold setMember
  cases present with
  | true =>
      simp only [if_true]
      split
      · next inside => exact inside
      · simp
  | false => simp

namespace TransactionManager

variable {manager : TransactionManager} {base : Tree} {place : List String}
  {versions : Versions} {world : World}

theorem runWith_workspaceExists (manager : TransactionManager) (world : World) :
    manager.workspaceExists.runWith World.perform world =
      ((world.disk.kindAt? manager.workspace).isSome, world) := by
  rw [workspaceExists, Program.runWith_bind, Program.runWith_perform]
  rfl

/-- Only the disk of a world, its next number and the active handles matter. -/
theorem Layout.transport (layout : manager.Layout base place versions world) {other : World}
    (disk : other.disk = world.disk) (active : other.active = world.active)
    (number : other.nextNumber = world.nextNumber) :
    manager.Layout base place versions other := by
  refine ⟨?_, ?_, layout.regular, ?_, ?_, ?_, ?_⟩
  · rw [disk]
    exact layout.keeps
  · rw [disk]
    exact layout.committed
  · rw [disk]
    exact layout.workspace
  · rw [disk]
    exact layout.others
  · rw [active]
    exact layout.active
  · rw [number]
    exact layout.number

theorem Layout.runWith_isActive (layout : manager.Layout base place versions world) :
    manager.isActive.runWith World.perform world = (versions.working.isSome, world) := by
  rw [isActive, Program.runWith_perform, World.perform, layout.active]

theorem Layout.runWith_target (layout : manager.Layout base place versions world) :
    manager.target.runWith World.perform world =
      (manager.targetIf versions.working.isSome, world) := by
  rw [target, Program.runWith_bind, layout.runWith_isActive]
  unfold targetIf
  cases versions.working.isSome <;> rfl

theorem Layout.kindAt?_workspace (layout : manager.Layout base place versions world)
    (ground : manager.Ground base place) :
    world.disk.kindAt? manager.workspace = versions.working.map fun _ => .directory := by
  have leads := layout.leads ground
  rw [ground.workspace_eq]
  cases works : versions.working with
  | none => exact leads.kindAt?_child_of_none ground.plain.1 (layout.workspace.idle works)
  | some working =>
      obtain ⟨canStage, -, -, workspace, found, isWorkspace⟩ :=
        layout.workspace.active working works
      rw [leads.kindAt?_child ground.plain.1 (ground.fits_workspace canStage).isUsable,
        Tree.kind?_eq_some_directory.2 (isWorkspace.isWorkspace.hasDirectory found)]
      rfl

/-! ## Beginning -/

/-- The hidden name of a workspace that cannot be staged is obstructed. -/
theorem Layout.hidden_obstructed (layout : manager.Layout base place versions world)
    (ground : manager.Ground base place) (cannot : ¬manager.CanStage) (number : Nat)
    (usable : (manager.database.child (manager.hiddenName number)).isUsable) :
    world.disk.find (place ++ [manager.hiddenName number]) = .error .obstructed := by
  refine (layout.leads ground).2.find_of_not_fits ?_
  by_cases long : manager.workspaceName.utf8ByteSize + Replacement.temporaryExtra ≤ Tree.nameLimit
  · have unclean : '\x00' ∈ manager.workspaceName.toList := by
      simpa only [CanStage, long, true_and, Decidable.not_not] using cannot
    rw [Path.not_isUsable_child (mem_hiddenName unclean number)] at usable
    cases usable
  · rw [Tree.fits, utf8ByteSize_hiddenName]
    exact decide_eq_false long

/-- A free hidden name and the free name of the workspace become those of a staged workspace. -/
theorem Layout.stage (layout : manager.Layout base place versions world)
    (ground : manager.Ground base place) (canStage : manager.CanStage)
    (idle : versions.working = none) (number : Nat) :
    ∃ disk, (Workspace.stage manager.owner manager.database
        (manager.database.join (manager.hiddenName number)) manager.workspace).runWith
          World.perform world = (.ok (), { world with disk }) ∧
      manager.Layout base place { versions with working := some versions.committed }
        { world with disk, active := World.setMember manager.owner.handle true world.active } := by
  have leads := layout.leads ground
  have short : ∀ number, Tree.fits (manager.hiddenName number) := by
    intro number
    rw [Tree.fits, utf8ByteSize_hiddenName]
    exact decide_eq_true canStage.1
  have shortName : Tree.fits manager.workspaceName :=
    decide_eq_true (Nat.le_trans (Nat.le_add_right _ _) canStage.1)
  have apart := hiddenName_ne_workspaceName manager number
  obtain ⟨staged, disk, workspace, ran, found, isWorkspace, gone, altersHidden, alters⟩ :=
    Workspace.runWith_stage manager.owner leads
      (isPlain_hiddenName ground.plain number).1 ground.plain.1
      (ground.fits_staging canStage number) (ground.fits_workspace canStage).isUsable
      (leads.2.find_of_kind?_none (short number) (layout.hidden ground number))
      (leads.2.find_of_kind?_none shortName (layout.workspace.idle idle)) apart
      (hiddenName_not_mem_files number) layout.regular
      (fun file member => layout.read_committed ground member)
  have same : ∀ other, other ≠ manager.hiddenName number → other ≠ manager.workspaceName →
      disk.find (place ++ [other]) = world.disk.find (place ++ [other]) :=
    fun other first second => (alters.same other second []).trans (altersHidden.same other first [])
  refine ⟨disk, ?_, ?_, fun name member => ?_, layout.regular,
    ⟨fun none => absurd none (Option.some_ne_none _), ?_⟩, fun other notFile notWorkspace => ?_, ?_, layout.number⟩
  · rw [ground.staging_eq, ground.workspace_eq]
    exact ran
  · exact alters.keeps base (Tree.not_hasDirectory_of_kind? ground.free)
      (altersHidden.keeps base (Tree.not_hasDirectory_of_kind? (ground.hidden number)) layout.keeps)
  · have different : name ≠ manager.hiddenName number :=
      fun equal => hiddenName_not_mem_files number (equal ▸ member)
    have differs : name ≠ manager.workspaceName := fun equal => ground.apart (equal ▸ member)
    rw [Tree.read, same name different differs, ← layout.committed name member, Tree.read]
  · rintro _ ⟨rfl⟩
    exact ⟨canStage, layout.regular, fun name member missing => missing, workspace, found,
      isWorkspace⟩
  · by_cases equal : other = manager.hiddenName number
    · rw [equal, ground.hidden number, Tree.kind?, gone]
    · rw [← layout.others other notFile notWorkspace, Tree.kind?, same _ equal notWorkspace,
        Tree.kind?]
  · exact World.contains_setMember manager.owner.handle true world.active

/-- The world in which a workspace is staged. -/
def drawn (manager : TransactionManager) (world : World) : World :=
  { world with
    nextNumber := world.nextNumber + 1
    live := World.setMember manager.owner.handle true world.live }

theorem Layout.drawn (layout : manager.Layout base place versions world) :
    manager.Layout base place { versions with nextNumber := versions.nextNumber + 1 }
      (manager.drawn world) :=
  ⟨layout.keeps, layout.committed, layout.regular,
    ⟨layout.workspace.idle, layout.workspace.active⟩, layout.others, layout.active,
    congrArg (· + 1) layout.number⟩

/-- A manager that is idle stages a workspace. -/
theorem runWith_begin (idle : world.active.contains manager.owner.handle = false)
    (free : world.disk.kindAt? manager.workspace = none) {staged : World}
    {result : Except StorageError Unit}
    (ran : (Workspace.stage manager.owner manager.database
        (manager.database.join (manager.hiddenName world.nextNumber)) manager.workspace).runWith
          World.perform (manager.drawn world) = (result, staged)) :
    manager.begin.runWith World.perform world =
      (manager.concludeBegin (manager.database.join (manager.hiddenName world.nextNumber))
        result).runWith World.perform staged := by
  have isActive : manager.isActive.runWith World.perform world = (false, world) := by
    rw [isActive, Program.runWith_perform, World.perform, idle]
  rw [TransactionManager.begin, Task.runWith_bind_of_ok (Task.runWith_lift _ _ _), isActive]
  simp only [Bool.false_eq_true, if_false]
  rw [Task.runWith_bind_of_ok (Task.runWith_lift _ _ _), runWith_workspaceExists, free]
  simp only [Option.isSome_none, Bool.false_eq_true, if_false]
  rw [Task.runWith_bind_of_ok (Task.runWith_perform _ _ _),
    Task.runWith_bind_of_ok (Task.runWith_lift _ _ _),
    Task.runWith_bind_of_ok (Task.runWith_lift _ _ _)]
  simp only [setLive, World.perform, Task.runWith_run]
  rw [Program.runWith_perform]
  simp only [World.perform]
  unfold drawn hiddenName at ran
  rw [ran, hiddenName]

/-- A transaction whose workspace cannot be made under its hidden name is not begun. -/
theorem runWith_begin_of_obstructed (leads : world.disk.LeadsTo manager.database place)
    (plain : Path.IsPlain manager.workspaceName)
    (idle : world.active.contains manager.owner.handle = false)
    (free : world.disk.kindAt? manager.workspace = none)
    (obstructed : (manager.database.child (manager.hiddenName world.nextNumber)).isUsable →
      world.disk.find (place ++ [manager.hiddenName world.nextNumber]) = .error .obstructed) :
    ∃ after, manager.begin.runWith World.perform world =
        (.error (.storage (.io (manager.database.join
          (manager.hiddenName world.nextNumber)).text)), after) ∧
      after.disk = world.disk ∧ after.active = world.active ∧
      after.nextNumber = world.nextNumber + 1 := by
  have hidden := isPlain_hiddenName plain world.nextNumber
  have refused := leads.makeDirectoriesAt_child_of_obstructed obstructed
  have unlisted := leads.listAt_child_of_obstructed hidden.1 obstructed
  rw [← Path.join_of_isPlain manager.database hidden] at refused unlisted
  have notStaged := @Workspace.runWith_stage_of_not_made (manager.drawn world) manager.database _
    manager.workspace manager.owner refused
  have cleaned := @Workspace.runWith_cleanup_of_obstructed
    ((manager.drawn world).perform (.setLive manager.owner.handle false)).2 _ unlisted
  refine ⟨((manager.drawn world).perform (.setLive manager.owner.handle false)).2, ?_, rfl, rfl,
    rfl⟩
  rw [runWith_begin idle free notStaged, concludeBegin,
    Task.runWith_bind_of_ok (Task.runWith_lift _ _ _), setLive, Program.runWith_perform,
    Task.runWith_bind_of_ok (Task.runWith_lift _ _ _), Task.runWith_run, cleaned,
    Task.runWith_bind_of_ok (Task.runWith_lift _ _ _), runWith_workspaceExists]
  have freeAfter : ((manager.drawn world).perform
      (.setLive manager.owner.handle false)).2.disk.kindAt? manager.workspace = none := free
  rw [freeAfter]
  rfl

theorem Layout.begin (layout : manager.Layout base place versions world)
    (ground : manager.Ground base place) :
    (manager.begin.runWith World.perform world).1 = (versions.begin manager).1 ∧
      manager.Layout base place (versions.begin manager).2
        (manager.begin.runWith World.perform world).2 := by
  cases works : versions.working with
  | some working =>
      rw [TransactionManager.begin, Task.runWith_bind_of_ok (Task.runWith_lift _ _ _),
        layout.runWith_isActive, Versions.begin, works]
      exact ⟨rfl, layout⟩
  | none =>
      have idle := layout.active
      have free := layout.kindAt?_workspace ground
      rw [works] at idle free
      rw [Versions.begin, works]
      simp only
      split
      · next canStage =>
          obtain ⟨disk, ran, staged⟩ := layout.drawn.stage ground canStage works world.nextNumber
          rw [runWith_begin idle free ran, concludeBegin, Task.runWith_lift]
          exact ⟨rfl, staged.transport rfl rfl rfl⟩
      · next cannot =>
          obtain ⟨after, ran, disk, active, number⟩ := runWith_begin_of_obstructed
            (layout.leads ground) ground.plain idle free
            (layout.hidden_obstructed ground cannot world.nextNumber)
          rw [ran, layout.number]
          refine ⟨rfl, ?_⟩
          have drawn := layout.drawn.transport disk active number
          rwa [works] at drawn

/-! ## Ending -/

theorem Layout.runWith_readOwner (layout : manager.Layout base place versions world)
    (ground : manager.Ground base place) {working : Snapshot}
    (works : versions.working = some working) :
    (Owner.read manager.workspace).runWith World.perform world = (some manager.owner, world) := by
  obtain ⟨workspace, isWorkspace, reads⟩ :=
    layout.read_working ground works (show Owner.file ∈ Workspace.names from List.mem_cons_self)
  rw [Owner.read, Program.runWith_bind, Program.runWith_perform, World.perform, reads,
    isWorkspace.marker, Owner.ofContent?_markerText ground.process]
  rfl

/-- Finishing removes the workspace. -/
theorem Layout.finish (layout : manager.Layout base place versions world)
    (ground : manager.Ground base place) {working : Snapshot}
    (works : versions.working = some working) :
    ∃ after, manager.finish.runWith World.perform world = (.ok (), after) ∧
      manager.Layout base place { versions with working := none } after := by
  obtain ⟨canStage, -, -, workspace, found, isWorkspace⟩ := layout.workspace.active working works
  obtain ⟨disk, cleaned, gone, alters⟩ := Workspace.runWith_cleanup (layout.leads ground)
    ground.plain.1 (ground.fits_workspace canStage) found isWorkspace.isWorkspace
  rw [← ground.workspace_eq] at cleaned
  refine ⟨{ world with
    disk
    active := World.setMember manager.owner.handle false world.active
    live := World.setMember manager.owner.handle false world.live }, ?_, ?_⟩
  · rw [TransactionManager.finish, Task.runWith_bind_of_ok (Task.runWith_lift _ _ _),
      layout.runWith_readOwner ground works]
    have own : (some manager.owner).any (· ≠ manager.owner) = false := by simp
    simp only [own, Bool.false_eq_true, if_false]
    rw [Task.runWith_bind_of_ok (Task.runWith_lift _ _ _), Task.runWith_run, cleaned]
    rfl
  · refine layout.alterWorkspace ground alters ⟨fun _ => ?_, fun _ works => (nomatch works)⟩
      (World.contains_setMember manager.owner.handle false world.active) rfl
    rw [Tree.kind?, gone]

theorem Layout.rollback (layout : manager.Layout base place versions world)
    (ground : manager.Ground base place) :
    (manager.rollback.runWith World.perform world).1 = versions.rollback.1 ∧
      manager.Layout base place versions.rollback.2
        (manager.rollback.runWith World.perform world).2 := by
  rw [TransactionManager.rollback, Task.runWith_bind_of_ok (Task.runWith_lift _ _ _),
    layout.runWith_isActive, Versions.rollback]
  cases works : versions.working with
  | none => exact ⟨rfl, layout⟩
  | some working =>
      obtain ⟨after, ran, layoutAfter⟩ := layout.finish ground works
      simp only [Option.isSome_some, Bool.not_true, Bool.false_eq_true, if_false]
      rw [ran]
      exact ⟨rfl, layoutAfter⟩

/-- The collections of the workspace are copied back. -/
theorem Layout.copyBack (layout : manager.Layout base place versions world)
    (ground : manager.Ground base place) {working : Snapshot}
    (works : versions.working = some working) :
    ∃ after, (Workspace.copyCollections manager.workspace manager.database).runWith
        World.perform world = (.ok (), after) ∧
      manager.Layout base place { versions with committed := working } after := by
  obtain ⟨canStage, regular, covers, -⟩ := layout.workspace.active working works
  obtain ⟨after, ran, layoutAfter⟩ := @Workspace.runWith_copyFiles manager.workspace
    manager.database working
    (fun snapshot world => manager.Layout base place { versions with committed := snapshot } world)
    Collections.files regular
    (fun {snapshot world} holds name member => by
      obtain ⟨workspace, isWorkspace, reads⟩ :=
        holds.read_working ground works (List.mem_cons_of_mem _ member)
      rw [reads, isWorkspace.copies name member])
    (fun {snapshot world} holds name member content read => by
      refine holds.replace_committed ground member content fun other same => ?_
      rw [works] at same
      cases same
      rw [read]
      exact fun equal => (nomatch equal))
    versions.committed world layout
  refine ⟨after, ran, layoutAfter.keeps, fun name member => ?_, regular,
    ⟨fun idle => ?_, fun other same => ?_⟩, layoutAfter.others, layoutAfter.active,
    layoutAfter.number⟩
  · rw [layoutAfter.committed name member]
    exact Snapshot.overlay_of_covers regular covers member
  · rw [works] at idle
    cases idle
  · rw [works] at same
    cases same
    obtain ⟨-, -, -, shown⟩ := layoutAfter.workspace.active working works
    exact ⟨canStage, regular, fun name member missing => missing, shown⟩

theorem Layout.commit (layout : manager.Layout base place versions world)
    (ground : manager.Ground base place) :
    (manager.commit.runWith World.perform world).1 = versions.commit.1 ∧
      manager.Layout base place versions.commit.2
        (manager.commit.runWith World.perform world).2 := by
  rw [TransactionManager.commit, Task.runWith_bind_of_ok (Task.runWith_lift _ _ _),
    layout.runWith_isActive, Versions.commit]
  cases works : versions.working with
  | none => exact ⟨rfl, layout⟩
  | some working =>
      obtain ⟨copied, ranCopies, layoutCopied⟩ := layout.copyBack ground works
      obtain ⟨after, ran, layoutAfter⟩ := layoutCopied.finish ground works
      simp only [Option.isSome_some, Bool.not_true, Bool.false_eq_true, if_false]
      rw [Task.runWith_bind_of_ok (Task.runWith_lift _ _ _), ownsWorkspace, Program.runWith_bind,
        layout.runWith_readOwner ground works]
      simp only [Program.runWith_pure, decide_true, if_true]
      have wrapped : (Task.mapError TransactionError.storage (Workspace.copyCollections
          manager.workspace manager.database)).runWith World.perform world =
          (.ok (), copied) := by
        rw [Task.runWith_mapError, ranCopies]
        rfl
      rw [Task.runWith_bind_of_ok wrapped, ran]
      exact ⟨rfl, layoutAfter⟩

end TransactionManager
end GraphStore
