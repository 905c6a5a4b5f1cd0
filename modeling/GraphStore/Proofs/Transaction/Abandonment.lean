import GraphStore.Proofs.Transaction.Begins

/-!
# Abandoned workspaces

Managers of one directory are created, used and dropped in one process.  At any time at most one of
them is active, and the workspace is its own; when none is active there is no workspace, unless an
earlier process left one.  A manager that is dropped while it is active stays noted as live, and its
workspace stays for good.
-/

namespace GraphStore

/-! ## A directory beside its workspace -/

/-- Whether the directory to which a path leads can hold workspaces of a name: no directory is in the
place of a collection, and no name for a workspace is taken, neither the proper one nor one of the
hidden ones that are still to be drawn. -/
structure Tree.IsSite (base : Tree) (path : Path) (name : String) (number : Nat)
    (place : List String) : Prop where
  free : base.IsFree path place name
  ordered : base.IsOrdered
  regular : ∀ file ∈ Collections.files, base.read (place ++ [file]) ≠ .error .obstructed
  unused : ∀ drawn, number ≤ drawn → base.find
    (place ++ [Replacement.temporaryName name (Identifier.token drawn)]) = .error .missing

namespace Tree

variable {base workspace : Tree} {path : Path} {name file : String} {number : Nat}
  {place : List String}

theorem IsSite.mono (site : base.IsSite path name number place) {later : Nat}
    (less : number ≤ later) : base.IsSite path name later place :=
  ⟨site.free, site.ordered, site.regular, fun drawn more => site.unused drawn (less.trans more)⟩

/-- A directory of which a collection was replaced can hold the same workspaces. -/
theorem IsSite.put (site : base.IsSite path name number place) (member : file ∈ Collections.files)
    (differs : file ≠ name) (content : Content) (possible : base.CanReplace path place file) :
    (base.update (place ++ [file]) (some (.file content))).IsSite path name number place := by
  obtain ⟨leadsAfter, finds⟩ := site.free.leads.replaced content possible
  refine ⟨⟨leadsAfter, ?_⟩, site.ordered.update _ (isOrdered_file content),
    fun other memberOther => ?_, fun drawn more => ?_⟩
  · rw [finds, if_neg differs.symm]
    exact site.free.missing
  · rw [read, finds]
    by_cases equal : other = file
    · rw [if_pos equal]
      rintro ⟨⟩
    · rw [if_neg equal]
      exact site.regular other memberOther
  · have hidden : Replacement.temporaryName name (Identifier.token drawn) ≠ file := by
      rintro rfl
      exact @TransactionManager.hiddenName_not_mem_files ⟨path, name, ⟨0, ""⟩⟩ drawn member
    rw [finds, if_neg hidden]
    exact site.unused drawn more

theorem IsSite.canReplace (site : base.IsSite path name number place)
    (fits : path.Fits Workspace.fileRoom) (member : file ∈ Collections.files) :
    base.CanReplace path place file :=
  Workspace.canReplace_of_fits fits (List.mem_cons_of_mem _ member)
    (site.free.leads.2.acceptsFile_of_read (site.regular file member))

/-- A collection of the directory is replaced, beside the workspace. -/
theorem IsSite.replace (site : base.IsSite path name number place)
    (fits : path.Fits Workspace.fileRoom) (member : file ∈ Collections.files)
    (differs : file ≠ name) (workspace : Tree) (content : Content) :
    (base.host place name workspace).replace path file content =
      (.done, (base.update (place ++ [file]) (some (.file content))).host place name workspace) := by
  have leadsHost := site.free.leadsTo_host workspace
  have same : (base.host place name workspace).read (place ++ [file]) =
      base.read (place ++ [file]) := by
    rw [read, host, site.free.leads.2.find_update_of_ne differs, read]
  have possible : (base.host place name workspace).CanReplace path place file :=
    Workspace.canReplace_of_fits fits (List.mem_cons_of_mem _ member)
      (leadsHost.2.acceptsFile_of_read (same ▸ site.regular file member))
  rcases leadsHost.replace_cases (Collections.ne_empty_of_mem_files member) content with
    ⟨-, -, replaced⟩ | ⟨impossible, -⟩
  · rw [replaced, host, host, site.ordered.update_comm site.free.leads.2 differs.symm]
  · exact absurd possible impossible

/-- What a workspace of a directory holds is read below the path of the workspace. -/
theorem IsFree.readAt_workspace (free : base.IsFree path place name)
    (fits : (path.child name).Fits Workspace.fileRoom) (isWorkspace : workspace.IsWorkspace)
    (member : file ∈ Workspace.names) :
    (base.host place name workspace).readAt ((path.child name).child file) =
      workspace.read [file] := by
  have found := free.find_host workspace
  rw [((free.leadsTo_host workspace).child (isWorkspace.hasDirectory found)).readAt_child
    (Workspace.ne_empty_of_mem_names member) (Workspace.isUsable_child fits member), read,
    find_append_of_ok found, read]

theorem IsWorkspace.read_ne_obstructed (isWorkspace : workspace.IsWorkspace)
    (member : file ∈ Workspace.names) : workspace.read [file] ≠ .error .obstructed := by
  obtain ⟨entries, rfl, -, files⟩ := isWorkspace
  rw [read, find_singleton, if_pos (fits_of_mem_names member)]
  cases looked : entries.lookup file with
  | none => rintro ⟨⟩
  | some entry =>
      obtain ⟨before, after, rfl, -⟩ := List.lookup_eq_some_iff.1 looked
      obtain ⟨-, content, rfl⟩ := files (file, entry) (by simp)
      rintro ⟨⟩

end Tree

namespace Workspace

variable {base workspace : Tree} {path : Path} {name : String} {number : Nat} {place : List String}

/-- The collections of a workspace are copied to the directory in which it stands. -/
theorem runWith_copyFiles_back (site : base.IsSite path name number place)
    (fits : path.Fits fileRoom) (fitsThere : (path.child name).Fits fileRoom)
    (isWorkspace : workspace.IsWorkspace)
    (absent : name ∈ Collections.files → ∀ content, workspace.read [name] ≠ .ok content)
    {files : List String}
    (members : ∀ file ∈ files, file ∈ Collections.files) (world : World) :
    ∃ after : Tree, (copyFiles (path.child name) path files).runWith World.perform
        { world with disk := base.host place name workspace } =
          (.ok (), { world with disk := after.host place name workspace }) ∧
      after.IsSite path name number place := by
  induction files generalizing base with
  | nil => exact ⟨base, rfl, site⟩
  | cons file rest ih =>
      have member := members file List.mem_cons_self
      have membersRest := fun other inRest => members other (List.mem_cons_of_mem file inRest)
      have inNames : file ∈ names := List.mem_cons_of_mem _ member
      have read := site.free.readAt_workspace fitsThere isWorkspace inNames
      rw [copyFiles, Task.runWith_bind_of_ok (Task.runWith_perform _ _ _)]
      simp only [World.perform, read]
      cases found : workspace.read [file] with
      | ok content =>
          have differs : file ≠ name := fun same => absent (same ▸ member) content (same ▸ found)
          simp only
          rw [Task.runWith_bind_of_ok (Document.runWith_replace_on world
            (site.replace fits member differs workspace content))]
          exact ih (site.put member differs content (site.canReplace fits member)) membersRest
      | error fault =>
          cases fault with
          | missing => exact ih site membersRest
          | obstructed => exact absurd found (isWorkspace.read_ne_obstructed inNames)

end Workspace

/-! ## The managers of a directory -/

/-- Whether a directory can have workspaces of a name as far as names and their lengths go. -/
structure Path.Hosts (path : Path) (name : String) : Prop where
  plain : Settings.isPlainName name
  clean : '\x00' ∉ name.toList
  short : name.utf8ByteSize + Replacement.temporaryExtra ≤ Tree.nameLimit
  room : path.Fits (name.utf8ByteSize + Replacement.temporaryExtra + 1 + Workspace.fileRoom)

namespace Path.Hosts

variable {path : Path} {name : String} (hosts : path.Hosts name)

include hosts

theorem isPlain : IsPlain name :=
  Settings.isPlain_of_isPlainName hosts.plain

theorem fits : path.Fits Workspace.fileRoom :=
  hosts.room.mono (by omega)

theorem fits_child : (path.child name).Fits Workspace.fileRoom :=
  Fits.child (hosts.room.mono (by omega)) hosts.clean

theorem named_hidden (number : Nat) :
    Replacement.temporaryName name (Identifier.token number) ≠ "" :=
  (@TransactionManager.isPlain_hiddenName ⟨path, name, ⟨0, ""⟩⟩ hosts.isPlain number).1

theorem fits_hidden (number : Nat) :
    (path.child (Replacement.temporaryName name (Identifier.token number))).Fits
      Workspace.fileRoom := by
  refine Fits.child (hosts.room.mono ?_)
    (@TransactionManager.not_mem_hiddenName ⟨path, name, ⟨0, ""⟩⟩ hosts.clean number)
  rw [Replacement.utf8ByteSize_temporaryName name (Identifier.utf8ByteSize_token number)]

end Path.Hosts

namespace TransactionManager

/-- Whether a manager works on a directory in a process, with workspaces of a given name. -/
structure IsOn (path : Path) (name : String) (process : Nat) (manager : TransactionManager) :
    Prop where
  database : manager.database = path
  workspaceName : manager.workspaceName = name
  process : manager.owner.process = process

/-- What is asked of a manager. -/
inductive Call where
  /-- Begin a transaction. -/
  | begin
  /-- Commit the transaction. -/
  | commit
  /-- Roll the transaction back. -/
  | rollback
  /-- Remove an abandoned workspace. -/
  | recover

/-- The world after a call. -/
def after (manager : TransactionManager) (world : World) : Call → World
  | .begin => (world.run manager.begin.run).2
  | .commit => (world.run manager.commit.run).2
  | .rollback => (world.run manager.rollback.run).2
  | .recover => (world.run manager.recover.run).2

end TransactionManager

/-- The managers that exist in a process, and the world in which they work. -/
structure Managers where
  /-- The world in which they work. -/
  world : World
  /-- Those that were created and not dropped. -/
  existing : List TransactionManager

/-- One more manager is created. -/
def Managers.create (path : Path) (name : String) (managers : Managers) : Managers :=
  let created := managers.world.run (TransactionManager.create path name)
  ⟨created.2, created.1 :: managers.existing⟩

/-- The managers to which it leads that managers of a directory are created, used and dropped.  A
manager that is dropped does nothing more, whatever its state. -/
inductive Managers.Reaches (path : Path) (name : String) (start : Managers) : Managers → Prop where
  /-- Nothing has happened. -/
  | start : Reaches path name start start
  /-- One more manager is created. -/
  | create {managers : Managers} (reaches : Reaches path name start managers) :
    Reaches path name start (managers.create path name)
  /-- A manager is used. -/
  | use {managers : Managers} {manager : TransactionManager}
    (reaches : Reaches path name start managers) (member : manager ∈ managers.existing)
    (call : TransactionManager.Call) :
    Reaches path name start { managers with world := manager.after managers.world call }
  /-- A manager is dropped. -/
  | drop {managers : Managers} (reaches : Reaches path name start managers)
    (manager : TransactionManager) :
    Reaches path name start { managers with existing := managers.existing.erase manager }

/-! ## Who is active -/

/-- Whether a workspace can be staged in a directory that stands or can be made. -/
structure Tree.MayHost (base : Tree) (path : Path) (name : String) (number : Nat) : Prop where
  ordered : base.IsOrdered
  receives : base.Receives path
  free : base.kindAt? (path.child name) = none
  unused : ∀ drawn, number ≤ drawn → base.kindAt?
    (path.child (Replacement.temporaryName name (Identifier.token drawn))) = none

namespace World

/-- Whether no manager is active, and there is no workspace but one whose owner is gone. -/
structure IsAbandoned (path : Path) (name : String) (base : Tree) (world : World) : Prop where
  live : world.live = []
  active : world.active = []
  mayHost : base.MayHost path name world.nextNumber
  leftover : world.disk = base ∨ ∃ place workspace, base.LeadsTo path place ∧
    Tree.IsWorkspace workspace ∧ world.disk = base.host place name workspace ∧
    ∀ owner, world.disk.IsMarked (path.child name) owner → world.isAlive owner = false

/-- Whether a manager is the only one that is active, and the workspace is its own. -/
structure IsWorkedOnBy (path : Path) (name : String) (manager : TransactionManager)
    (world : World) : Prop where
  live : world.live = [manager.owner.handle]
  active : world.active = [manager.owner.handle]
  workspace : ∃ (base workspace : Tree) (place : List String),
    base.IsSite path name world.nextNumber place ∧ workspace.IsWorkspace ∧
    workspace.read [Owner.file] = .ok (.text manager.owner.markerText) ∧
    (name ∈ Collections.files → ∀ content, workspace.read [name] ≠ .ok content) ∧
    world.disk = base.host place name workspace

end World

variable {base workspace : Tree} {path : Path} {name : String} {number : Nat} {place : List String}
  {world : World} {manager other : TransactionManager}

theorem Tree.MayHost.mono (mayHost : base.MayHost path name number) {later : Nat}
    (less : number ≤ later) : base.MayHost path name later :=
  ⟨mayHost.ordered, mayHost.receives, mayHost.free,
    fun drawn more => mayHost.unused drawn (less.trans more)⟩

theorem Tree.IsSite.mayHost (site : base.IsSite path name number place) (hosts : path.Hosts name) :
    base.MayHost path name number := by
  have free : ∀ {other : String}, other ≠ "" → (path.child other).isUsable →
      base.find (place ++ [other]) = .error .missing → base.kindAt? (path.child other) = none := by
    intro other named usable missing
    rw [site.free.leads.kindAt?_child named usable, kind?, missing]
  refine ⟨site.ordered, .inl ⟨place, site.free.leads⟩,
    free hosts.isPlain.1 hosts.fits_child.isUsable site.free.missing, fun drawn more => ?_⟩
  exact free (hosts.named_hidden drawn) (hosts.fits_hidden drawn).isUsable (site.unused drawn more)

theorem Tree.MayHost.isFree (mayHost : base.MayHost path name number) (hosts : path.Hosts name)
    (leads : base.LeadsTo path place) : base.IsFree path place name :=
  isFree_of_made leads (.inl rfl) hosts.isPlain.1
    (decide_eq_true (Nat.le_trans (Nat.le_add_right _ _) hosts.short)) hosts.fits_child.isUsable
    mayHost.free

/-- A directory whose collections were copied to a workspace is a site, and its workspace has no copy
of a file that has the name of the workspace. -/
theorem Tree.MayHost.isSite {tree made : Tree} {owner : Owner}
    (mayHost : tree.MayHost path name number) (hosts : path.Hosts name) (ordered : made.IsOrdered)
    (leads : made.LeadsTo path place)
    (same : made = tree ∨ made.find place = .ok emptyDirectory)
    (isWorkspace : workspace.IsWorkspaceOf owner fun file => made.readAt (path.child file)) :
    made.IsSite path name number place ∧
      (name ∈ Collections.files → ∀ content, workspace.read [name] ≠ .ok content) := by
  have free := isFree_of_made leads same hosts.isPlain.1
    (decide_eq_true (Nat.le_trans (Nat.le_add_right _ _) hosts.short)) hosts.fits_child.isUsable
    mayHost.free
  have reads : ∀ file ∈ Collections.files, made.read (place ++ [file]) = workspace.read [file] := by
    intro file member
    rw [isWorkspace.copies file member,
      leads.readAt_child (Collections.ne_empty_of_mem_files member)
        (Workspace.isUsable_child hosts.fits (List.mem_cons_of_mem _ member))]
  refine ⟨⟨free, ordered, fun file member => ?_, fun drawn more => ?_⟩, fun member content => ?_⟩
  · rw [reads file member]
    exact isWorkspace.isWorkspace.read_ne_obstructed (List.mem_cons_of_mem _ member)
  · have short : (Replacement.temporaryName name (Identifier.token drawn)).utf8ByteSize ≤
        nameLimit := by
      rw [Replacement.utf8ByteSize_temporaryName name (Identifier.utf8ByteSize_token drawn)]
      exact hosts.short
    exact (isFree_of_made leads same (hosts.named_hidden drawn) (decide_eq_true short)
      (hosts.fits_hidden drawn).isUsable (mayHost.unused drawn more)).missing
  · rw [← reads name member, read, free.missing]
    rintro ⟨⟩

theorem Tree.IsFree.kindAt?_host (free : base.IsFree path place name) (hosts : path.Hosts name)
    (isWorkspace : workspace.IsWorkspace) :
    (base.host place name workspace).kindAt? (path.child name) = some .directory := by
  obtain ⟨entries, rfl, -⟩ := isWorkspace
  rw [(free.leadsTo_host _).kindAt?_child hosts.isPlain.1 hosts.fits_child.isUsable, kind?,
    free.find_host]
  rfl

namespace TransactionManager

/-- Managers with one handle are one manager. -/
theorem IsOn.eq_of_handle {process : Nat} (isOn : manager.IsOn path name process)
    (isOnOther : other.IsOn path name process) (same : manager.owner.handle = other.owner.handle) :
    manager = other := by
  have database := isOn.database.trans isOnOther.database.symm
  have workspaceName := isOn.workspaceName.trans isOnOther.workspaceName.symm
  have sameProcess := isOn.process.trans isOnOther.process.symm
  obtain ⟨_, _, _, _⟩ := manager
  obtain ⟨_, _, _, _⟩ := other
  simp only [mk.injEq, Owner.mk.injEq]
  exact ⟨database, workspaceName, sameProcess, same⟩

/-- A manager whose workspace is its own finishes, and takes the workspace away. -/
theorem runWith_finish_of_hosted (plain : Path.IsPlain manager.workspaceName)
    (small : manager.owner.process < 2 ^ 32)
    (fits : (manager.database.child manager.workspaceName).Fits Workspace.fileRoom)
    (free : base.IsFree manager.database place manager.workspaceName) (ordered : base.IsOrdered)
    (isWorkspace : workspace.IsWorkspace)
    (marker : workspace.read [Owner.file] = .ok (.text manager.owner.markerText)) (world : World) :
    manager.finish.runWith World.perform
        { world with disk := base.host place manager.workspaceName workspace } =
      (.ok (), { world with
        disk := base
        active := World.setMember manager.owner.handle false world.active
        live := World.setMember manager.owner.handle false world.live }) := by
  have read := free.readAt_workspace fits isWorkspace
    (show Owner.file ∈ Workspace.names from List.mem_cons_self)
  have cleaned := Workspace.runWith_cleanup_host free ordered plain.1 fits isWorkspace world
  rw [finish, Task.runWith_bind_of_ok (Task.runWith_lift _ _ _), Owner.runWith_read,
    TransactionManager.workspace, Path.join_of_isPlain _ plain, read, marker, Owner.ofContent?_markerText small]
  have own : (some manager.owner).any (· ≠ manager.owner) = false := by simp
  simp only [own, Bool.false_eq_true, if_false]
  rw [Task.runWith_bind_of_ok (Task.runWith_lift _ _ _), Task.runWith_run, cleaned]
  rfl

section

variable (isOn : manager.IsOn path name world.process) (hosts : path.Hosts name)

include isOn hosts

theorem IsOn.workspace_eq : manager.workspace = path.child name := by
  rw [workspace, isOn.database, isOn.workspaceName, Path.join_of_isPlain path hosts.isPlain]

/-- A workspace whose owner is gone is removed. -/
theorem runWith_recover_of_abandoned (abandoned : world.IsAbandoned path name base) :
    manager.recover.runWith World.perform world =
      (.ok (world.disk.kindAt? (path.child name)).isSome, { world with disk := base }) := by
  have there := isOn.workspace_eq hosts
  have idle : world.active.contains manager.owner.handle = false := by
    rw [abandoned.active]
    rfl
  rw [recover, Task.runWith_bind_of_ok (Task.runWith_lift _ _ _), runWith_isActive, idle]
  simp only [Bool.false_eq_true, if_false]
  rw [Task.runWith_bind_of_ok (Task.runWith_lift _ _ _), runWith_workspaceExists, there]
  rcases abandoned.leftover with rfl | ⟨place, workspace, leads, isWorkspace, disk, gone⟩
  · rw [abandoned.mayHost.free]
    rfl
  · have free := abandoned.mayHost.isFree hosts leads
    have cleaned := Workspace.runWith_cleanup_host free abandoned.mayHost.ordered hosts.isPlain.1
      hosts.fits_child isWorkspace world
    have removes : (Task.mapError TransactionError.storage
        (Workspace.cleanup (path.child name))).runWith World.perform world =
          (.ok (), { world with disk := base }) := by
      rw [Task.runWith_mapError]
      rw [← disk] at cleaned
      rw [cleaned]
      rfl
    have stands := free.kindAt?_host hosts isWorkspace
    rw [← disk] at stands
    rw [stands]
    simp only [Option.isSome_some, Bool.not_true, Bool.false_eq_true, if_false]
    rw [Task.runWith_bind_of_ok (Task.runWith_lift _ _ _), Owner.runWith_read]
    cases marker : Owner.ofContent? (world.disk.readAt ((path.child name).child Owner.file)) with
    | none =>
        simp only
        rw [Task.runWith_bind_of_ok removes]
        rfl
    | some owner =>
        simp only
        rw [Task.runWith_bind_of_ok (Task.runWith_lift _ _ _), World.run_isAlive, gone owner marker]
        simp only [Bool.false_eq_true, if_false]
        rw [Task.runWith_bind_of_ok removes]
        rfl

theorem mayBegin_of_mayHost (mayHost : world.disk.MayHost path name world.nextNumber) :
    manager.MayBegin world := by
  obtain ⟨rfl, rfl, -⟩ := isOn
  exact ⟨hosts.plain, hosts.short, hosts.room, mayHost.receives, mayHost.unused _ (Nat.le_refl _)⟩

/-- A manager that begins while none is active comes to be the only one, or none is. -/
theorem begin_of_abandoned (abandoned : world.IsAbandoned path name base) :
    let after := (manager.begin.runWith World.perform world).2
    (∃ base, after.IsAbandoned path name base) ∨ after.IsWorkedOnBy path name manager := by
  intro after
  have there := isOn.workspace_eq hosts
  have idle : world.active.contains manager.owner.handle = false := by
    rw [abandoned.active]
    rfl
  by_cases free : world.disk.kindAt? manager.workspace = none
  · have same : world.disk = base := by
      refine abandoned.leftover.resolve_right ?_
      rintro ⟨place, workspace, leads, isWorkspace, disk, -⟩
      rw [there, disk, (abandoned.mayHost.isFree hosts leads).kindAt?_host hosts isWorkspace] at free
      cases free
    have mayHost := abandoned.mayHost
    rw [← same] at mayHost
    have number : world.nextNumber ≤ after.nextNumber := by
      have less := World.nextNumber_le_run manager.begin.run world
      rwa [Program.run_eq_runWith, Task.runWith_run] at less
    have disk := disk_begin_cases (mayBegin_of_mayHost isOn hosts mayHost) idle free mayHost.ordered
    rcases begin_cases idle free with ⟨begun, -, -, -, live, active⟩ | ⟨⟨reason, failed⟩, live, active⟩
    · refine .inr ⟨?_, ?_, ?_⟩
      · exact live.trans (by rw [abandoned.live]; rfl)
      · exact active.trans (by rw [abandoned.active]; rfl)
      · rcases disk with
          ⟨-, made, place, workspace, makes, leads, same, isWorkspace, disk⟩ | ⟨⟨error, failed⟩, -⟩
        · have ordered := mayHost.ordered.makeDirectoriesAt manager.database.trimmed
          rw [makes] at ordered
          rw [isOn.database] at leads isWorkspace
          rw [isOn.workspaceName] at disk
          obtain ⟨site, absent⟩ := mayHost.isSite hosts ordered leads same isWorkspace
          exact ⟨made, workspace, place, site.mono number, isWorkspace.isWorkspace,
            isWorkspace.marker, absent, disk⟩
        · rw [begun] at failed
          cases failed
    · refine .inl ⟨base, ?_, ?_, abandoned.mayHost.mono number, .inl ?_⟩
      · exact live.trans (by rw [abandoned.live]; simp [World.setMember])
      · exact active.trans abandoned.active
      · rcases disk with ⟨begun, -⟩ | ⟨-, disk⟩
        · rw [failed] at begun
          cases begun
        · exact disk.trans same
  · have unchanged := runWith_begin_of_stands manager free
    refine .inl ⟨base, ?_⟩
    show (manager.begin.runWith World.perform world).2.IsAbandoned path name base
    rw [unchanged]
    exact abandoned

theorem isMarked_of_worked (small : world.process < 2 ^ 32)
    (worked : world.IsWorkedOnBy path name manager) :
    world.disk.IsMarked manager.workspace manager.owner := by
  obtain ⟨base, workspace, place, site, isWorkspace, marker, -, disk⟩ := worked.workspace
  rw [isOn.workspace_eq hosts, Tree.IsMarked, disk, site.free.readAt_workspace hosts.fits_child
    isWorkspace (show Owner.file ∈ Workspace.names from List.mem_cons_self), marker,
    Owner.ofContent?_markerText (isOn.process ▸ small)]

/-- Who finishes leaves nobody active, and no workspace. -/
theorem finish_of_worked (small : world.process < 2 ^ 32)
    (worked : world.IsWorkedOnBy path name manager) :
    ∃ base, (manager.finish.runWith World.perform world).2.IsAbandoned path name base := by
  obtain ⟨base, workspace, place, site, isWorkspace, marker, -, disk⟩ := worked.workspace
  obtain ⟨rfl, rfl, process⟩ := isOn
  have finished := runWith_finish_of_hosted hosts.isPlain (process ▸ small) hosts.fits_child site.free
    site.ordered isWorkspace marker world
  rw [← disk] at finished
  rw [finished]
  refine ⟨base, ?_, ?_, site.mayHost hosts, .inl rfl⟩
  · simp [worked.live, World.setMember]
  · simp [worked.active, World.setMember]

theorem rollback_of_worked (small : world.process < 2 ^ 32)
    (worked : world.IsWorkedOnBy path name manager) :
    ∃ base, (manager.rollback.runWith World.perform world).2.IsAbandoned path name base := by
  rw [runWith_rollback_of_active (by simp [worked.active])]
  exact finish_of_worked isOn hosts small worked

theorem commit_of_worked (small : world.process < 2 ^ 32)
    (worked : world.IsWorkedOnBy path name manager) :
    ∃ base, (manager.commit.runWith World.perform world).2.IsAbandoned path name base := by
  have marked := isMarked_of_worked isOn hosts small worked
  obtain ⟨base, workspace, place, site, isWorkspace, marker, absent, disk⟩ := worked.workspace
  obtain ⟨copied, ran, siteAfter⟩ := Workspace.runWith_copyFiles_back site hosts.fits
    hosts.fits_child isWorkspace absent (fun _ member => member) world
  rw [← disk] at ran
  rw [runWith_commit_of_marked (by simp [worked.active]) marked, isOn.workspace_eq hosts,
    isOn.database, Task.runWith_bind, Task.runWith_mapError, Workspace.copyCollections, ran]
  exact @finish_of_worked path name { world with disk := copied.host place name workspace } manager
    isOn hosts small ⟨worked.live, worked.active, copied, workspace, place, siteAfter, isWorkspace,
      marker, absent, rfl⟩

/-- Every call on a manager while none is active leaves none active, or this one. -/
theorem after_of_abandoned (abandoned : world.IsAbandoned path name base) (call : Call) :
    (∃ base, (manager.after world call).IsAbandoned path name base) ∨
      (manager.after world call).IsWorkedOnBy path name manager := by
  have idle : world.active.contains manager.owner.handle = false := by
    rw [abandoned.active]
    rfl
  cases call with
  | begin =>
      rw [after, Program.run_eq_runWith, Task.runWith_run]
      exact begin_of_abandoned isOn hosts abandoned
  | commit =>
      rw [after, Program.run_eq_runWith, Task.runWith_run, runWith_commit_of_idle idle]
      exact .inl ⟨base, abandoned⟩
  | rollback =>
      rw [after, Program.run_eq_runWith, Task.runWith_run, runWith_rollback_of_idle idle]
      exact .inl ⟨base, abandoned⟩
  | recover =>
      rw [after, Program.run_eq_runWith, Task.runWith_run,
        runWith_recover_of_abandoned isOn hosts abandoned]
      exact .inl ⟨base, abandoned.live, abandoned.active, abandoned.mayHost, .inl rfl⟩

section

variable (small : world.process < 2 ^ 32) (isOnWorker : other.IsOn path name world.process)
  (worked : world.IsWorkedOnBy path name other)

include small isOnWorker worked

/-- The workspace of an active manager is in the way of every other one. -/
theorem runWith_begin_of_worked :
    manager.begin.runWith World.perform world = (.error .alreadyActive, world) := by
  have marked := isMarked_of_worked isOnWorker hosts small worked
  rw [isOnWorker.workspace_eq hosts] at marked
  refine runWith_begin_of_stands manager ?_
  rw [isOn.workspace_eq hosts, marked.kindAt? hosts.isPlain.1]
  rintro ⟨⟩

/-- The workspace of an active manager is not removed as abandoned. -/
theorem runWith_recover_of_worked :
    manager.recover.runWith World.perform world = (.ok false, world) := by
  have marked := isMarked_of_worked isOnWorker hosts small worked
  rw [isOnWorker.workspace_eq hosts, ← isOn.workspace_eq hosts] at marked
  refine runWith_recover_of_alive manager marked ?_
  rw [World.isAlive, if_pos isOnWorker.process, worked.live]
  simp

/-- Every call while a manager is active leaves this one active, or ends its transaction. -/
theorem after_of_worked (call : Call) :
    (∃ base, (manager.after world call).IsAbandoned path name base) ∨
      (manager.after world call).IsWorkedOnBy path name other := by
  cases call with
  | begin =>
      rw [after, Program.run_eq_runWith, Task.runWith_run,
        runWith_begin_of_worked isOn hosts small isOnWorker worked]
      exact .inr worked
  | commit =>
      rw [after, Program.run_eq_runWith, Task.runWith_run]
      by_cases own : manager.owner.handle = other.owner.handle
      · rw [isOn.eq_of_handle isOnWorker own]
        exact .inl (commit_of_worked isOnWorker hosts small worked)
      · rw [runWith_commit_of_idle (by simp [worked.active, own])]
        exact .inr worked
  | rollback =>
      rw [after, Program.run_eq_runWith, Task.runWith_run]
      by_cases own : manager.owner.handle = other.owner.handle
      · rw [isOn.eq_of_handle isOnWorker own]
        exact .inl (rollback_of_worked isOnWorker hosts small worked)
      · rw [runWith_rollback_of_idle (by simp [worked.active, own])]
        exact .inr worked
  | recover =>
      rw [after, Program.run_eq_runWith, Task.runWith_run,
        runWith_recover_of_worked isOn hosts small isOnWorker worked]
      exact .inr worked

end

end

end TransactionManager

/-! ## Runs -/

/-- Whether at most one manager is active, and the workspace is its own, or has an owner that is
gone. -/
structure Managers.IsSound (path : Path) (name : String) (managers : Managers) : Prop where
  process : managers.world.process < 2 ^ 32
  isOn : ∀ manager ∈ managers.existing, manager.IsOn path name managers.world.process
  state : (∃ base, managers.world.IsAbandoned path name base) ∨
    ∃ manager : TransactionManager, manager.IsOn path name managers.world.process ∧
      managers.world.IsWorkedOnBy path name manager

namespace Managers

variable {managers start : Managers}

theorem IsSound.create (sound : managers.IsSound path name) :
    (managers.create path name).IsSound path name := by
  refine ⟨sound.process, List.forall_mem_cons.2 ⟨⟨rfl, rfl, rfl⟩, sound.isOn⟩, sound.state.imp ?_ ?_⟩
  · rintro ⟨base, abandoned⟩
    exact ⟨base, abandoned.live, abandoned.active, abandoned.mayHost.mono (Nat.le_succ _),
      abandoned.leftover⟩
  · rintro ⟨manager, isOn, live, active, base, workspace, place, site, rest⟩
    exact ⟨manager, isOn, live, active, base, workspace, place, site.mono (Nat.le_succ _), rest⟩

/-- A call on a manager leaves at most one manager active. -/
theorem IsSound.use (sound : managers.IsSound path name) (hosts : path.Hosts name)
    (member : manager ∈ managers.existing) (call : TransactionManager.Call) :
    IsSound path name { managers with world := manager.after managers.world call } := by
  have isOn := sound.isOn manager member
  have process : (manager.after managers.world call).process = managers.world.process := by
    cases call <;> exact World.process_run _ _
  refine ⟨process ▸ sound.process, fun other among => process ▸ sound.isOn other among, ?_⟩
  show (∃ base, (manager.after managers.world call).IsAbandoned path name base) ∨ _
  simp only [process]
  rcases sound.state with ⟨base, abandoned⟩ | ⟨worker, isOnWorker, worked⟩
  · refine (TransactionManager.after_of_abandoned isOn hosts abandoned call).imp_right ?_
    exact fun worked => ⟨manager, isOn, worked⟩
  · refine (TransactionManager.after_of_worked isOn hosts sound.process isOnWorker worked call).imp_right
      ?_
    exact fun worked => ⟨worker, isOnWorker, worked⟩

theorem Reaches.isSound (reaches : Reaches path name start managers) (hosts : path.Hosts name)
    (sound : start.IsSound path name) : managers.IsSound path name := by
  induction reaches with
  | start => exact sound
  | create _ ih => exact ih.create
  | use _ member call ih => exact ih.use hosts member call
  | drop _ manager ih =>
      exact ⟨ih.process, fun other member => ih.isOn other (List.mem_of_mem_erase member), ih.state⟩

/-- An abandoned workspace is removed.  After any run in which managers of a directory are created,
used and dropped, if every manager that is active still exists, and none that exists is active, then
a new manager finds out whether there is a workspace and removes it, and begins a transaction, unless
a directory has the name of a collection or a file that of the directory. -/
theorem recover_removes_workspace (hosts : path.Hosts name) (fresh : start.existing = [])
    (process : start.world.process < 2 ^ 32) (unheld : start.world.IsAbandoned path name base)
    (reaches : Reaches path name start managers)
    (kept : ∀ handle ∈ managers.world.active, ∃ manager ∈ managers.existing,
      manager.owner.handle = handle)
    (idle : ∀ manager ∈ managers.existing, manager.owner.handle ∉ managers.world.active) :
    let created := managers.world.run (TransactionManager.create path name)
    let recovered := created.2.run created.1.recover.run
    let begun := recovered.2.run created.1.begin.run
    recovered.1 = .ok (managers.world.disk.kindAt? (path.child name)).isSome ∧
      recovered.2.disk.kindAt? (path.child name) = none ∧
      (begun.1 = .ok () ∨ ∃ file ∈ Collections.files,
        recovered.2.disk.readAt (path.child file) = .error .obstructed) := by
  intro created recovered begun
  have sound := (reaches.isSound hosts ⟨process, by simp [fresh], .inl ⟨base, unheld⟩⟩).create
  rcases sound.state with ⟨base, abandoned⟩ | ⟨worker, -, worked⟩
  · have isOn := sound.isOn created.1 List.mem_cons_self
    have ran : recovered = (.ok (created.2.disk.kindAt? (path.child name)).isSome,
        { created.2 with disk := base }) := by
      show created.2.run created.1.recover.run = _
      rw [Program.run_eq_runWith, Task.runWith_run]
      exact TransactionManager.runWith_recover_of_abandoned isOn hosts abandoned
    have mayHost := abandoned.mayHost
    refine ⟨congrArg Prod.fst ran, ?_, or_iff_not_imp_right.2 fun regular => ?_⟩
    · rw [ran]
      exact mayHost.free
    · show (recovered.2.run created.1.begin.run).1 = _
      rw [ran] at regular ⊢
      rw [Program.run_eq_runWith, Task.runWith_run]
      refine @TransactionManager.begin_of_regular created.1 { created.2 with disk := base }
        (TransactionManager.mayBegin_of_mayHost isOn hosts mayHost) ?_ ?_ mayHost.ordered
        hosts.clean fun file member obstructed => regular ⟨file, member, obstructed⟩
      · show created.2.active.contains created.1.owner.handle = false
        rw [show created.2.active = [] from abandoned.active]
        rfl
      · rw [isOn.workspace_eq hosts]
        exact mayHost.free
  · -- The one that is active exists, but none that exists is active.
    have active : managers.world.active = [worker.owner.handle] := worked.active
    have member : worker.owner.handle ∈ managers.world.active := by simp [active]
    obtain ⟨manager, among, same⟩ := kept _ member
    exact absurd (same ▸ member) (idle manager among)

/-- The workspace of a process that is gone is in the way of one manager, which is dropped, and is
removed by the next one. -/
theorem recover_removes_workspace_of_dead_process :
    let owner : Owner := ⟨7, "gone"⟩
    let start : Managers := ⟨{ disk := .directory [("db", .directory
      [("work", .directory [("owner.json", .file (.text owner.markerText))])])] }, []⟩
    let created := start.world.run (TransactionManager.create (.ofText "db") "work")
    let managers : Managers := ⟨created.1.after created.2 .begin, []⟩
    let next := managers.world.run (TransactionManager.create (.ofText "db") "work")
    let recovered := next.2.run next.1.recover.run
    (created.2.run created.1.begin.run).1 = .error .alreadyActive ∧ recovered.1 = .ok true ∧
      (recovered.2.run next.1.begin.run).1 = .ok () := by
  intro owner start created managers next recovered
  let base : Tree := .directory [("db", .emptyDirectory)]
  have hosts : (Path.ofText "db").Hosts "work" :=
    ⟨by decide +kernel, by decide +kernel, by decide +kernel, by decide +kernel, by decide +kernel⟩
  have leads : base.LeadsTo (.ofText "db") ["db"] := ⟨by decide +kernel, _, rfl⟩
  have mayHost : base.MayHost (.ofText "db") "work" start.world.nextNumber := by
    refine ⟨Tree.isOrdered_emptyDirectory.update ["db"] Tree.isOrdered_emptyDirectory,
      .inl ⟨_, leads⟩, by decide +kernel, fun drawn _ => ?_⟩
    rw [leads.kindAt?_child (hosts.named_hidden drawn) (hosts.fits_hidden drawn).isUsable, Tree.kind?,
      Tree.find_append_of_ok (show base.find ["db"] = .ok .emptyDirectory from rfl),
      Tree.emptyDirectory, Tree.find_singleton]
    cases Tree.fits (Replacement.temporaryName "work" (Identifier.token drawn)) <;> rfl
  have unheld : start.world.IsAbandoned (.ofText "db") "work" base := by
    refine ⟨rfl, rfl, mayHost, .inr ⟨["db"], _, leads,
      (Tree.isWorkspaceOf_missing owner).isWorkspace, rfl, fun other marked => ?_⟩⟩
    have read : start.world.disk.readAt (((Path.ofText "db").child "work").child Owner.file) =
        .ok (.text owner.markerText) := by
      decide +kernel
    rw [Tree.IsMarked, read, Owner.ofContent?_markerText (by decide)] at marked
    cases marked
    rfl
  have reaches : Reaches (.ofText "db") "work" start managers := by
    have used : Reaches (.ofText "db") "work" start
        ⟨created.1.after created.2 .begin, [created.1]⟩ :=
      Reaches.start.create.use List.mem_cons_self .begin
    have dropped := used.drop created.1
    rwa [List.erase_cons_head] at dropped
  have idle : managers.world.active = [] := by decide +kernel
  have refused : (created.2.run created.1.begin.run).1 = .error .alreadyActive := by decide +kernel
  have stands : managers.world.disk.kindAt? ((Path.ofText "db").child "work") = some .directory := by
    decide +kernel
  obtain ⟨removed, -, begun | obstructed⟩ := recover_removes_workspace hosts rfl (by decide) unheld
    reaches (by simp [idle]) (by simp [managers])
  · rw [stands] at removed
    exact ⟨refused, removed, begun⟩
  · exact absurd obstructed (by decide +kernel)

/-- As long as a manager is noted as active, and be it one that was dropped, its workspace is in the
way of every other one. -/
theorem recover_keeps_workspace (hosts : path.Hosts name) (fresh : start.existing = [])
    (process : start.world.process < 2 ^ 32) (unheld : start.world.IsAbandoned path name base)
    (reaches : Reaches path name start managers) {handle : String}
    (active : handle ∈ managers.world.active) :
    let created := managers.world.run (TransactionManager.create path name)
    let recovered := created.2.run created.1.recover.run
    recovered.1 = .ok false ∧ recovered.2.disk = managers.world.disk ∧
      (recovered.2.run created.1.begin.run).1 = .error .alreadyActive := by
  intro created recovered
  have sound := (reaches.isSound hosts ⟨process, by simp [fresh], .inl ⟨base, unheld⟩⟩).create
  rcases sound.state with ⟨base, abandoned⟩ | ⟨worker, isOnWorker, worked⟩
  · have empty : managers.world.active = [] := abandoned.active
    simp [empty] at active
  · have isOn := sound.isOn created.1 List.mem_cons_self
    have ran : recovered = (.ok false, created.2) := by
      show created.2.run created.1.recover.run = _
      rw [Program.run_eq_runWith, Task.runWith_run]
      exact TransactionManager.runWith_recover_of_worked isOn hosts sound.process isOnWorker worked
    refine ⟨congrArg Prod.fst ran, congrArg (fun ended => ended.2.disk) ran, ?_⟩
    rw [ran, Program.run_eq_runWith, Task.runWith_run]
    exact congrArg Prod.fst
      (TransactionManager.runWith_begin_of_worked isOn hosts sound.process isOnWorker worked)

end Managers
end GraphStore
