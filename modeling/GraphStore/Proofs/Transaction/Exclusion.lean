import GraphStore.Proofs.Transaction.Sessions

/-!
# Exclusive transactions

In a session at most one handle has an active transaction.  While it has one, the workspace carries
its marker, and no event of another handle touches the workspace.  Who holds the transaction is one
invariant about three places: the marker on the disk, the active managers and the handles that the
process notes as live.
-/

namespace GraphStore

variable {path : Path} {name : String} {owner : Owner} {world : World}

/-! ## Owners that are alive -/

namespace World

/-- Whether an owner may still finish its transaction. -/
def isAlive (world : World) (owner : Owner) : Bool :=
  if owner.process = world.process then world.live.contains owner.handle
  else world.running.contains owner.process

theorem run_isAlive (world : World) (owner : Owner) :
    owner.isAlive.runWith World.perform world = (world.isAlive owner, world) := by
  rw [Owner.isAlive, Program.runWith_bind, isAlive]
  change Program.runWith perform world (if owner.process = world.process then
    Program.perform (.isLive owner.handle) else Program.perform (.isRunning owner.process)) = _
  split
  · rfl
  · next other =>
      have differs : (owner.process == world.process) = false := beq_false_of_ne other
      rw [Program.runWith_perform, perform, differs, Bool.false_or]

/-- What happens in a run does not change which other processes are running. -/
theorem running_run {α : Type} (program : Program α) (world : World) :
    (world.run program).2.running = world.running := by
  induction program generalizing world with
  | done value => rfl
  | act action next ih =>
      rw [run, ih]
      cases action <;> simp only [perform, onDisk, changeRegistry, changeGate]

end World

theorem Owner.runWith_read (workspace : Path) (world : World) :
    (read workspace).runWith World.perform world =
      (ofContent? (world.disk.readAt (workspace.child file)), world) := by
  rw [read, Program.runWith_bind, Program.runWith_perform]
  rfl

namespace TransactionManager

variable (manager : TransactionManager)

theorem runWith_isActive (world : World) :
    manager.isActive.runWith World.perform world =
      (world.active.contains manager.owner.handle, world) := rfl

/-- A workspace whose owner is alive is left alone. -/
theorem runWith_recover_of_alive (marked : world.disk.IsMarked manager.workspace owner)
    (alive : world.isAlive owner) :
    manager.recover.runWith World.perform world = (.ok false, world) := by
  rw [recover, Task.runWith_bind_of_ok (Task.runWith_lift _ _ _), runWith_isActive]
  split
  · rfl
  · rw [Task.runWith_bind_of_ok (Task.runWith_lift _ _ _), runWith_workspaceExists]
    split
    · rfl
    · rw [Task.runWith_bind_of_ok (Task.runWith_lift _ _ _), Owner.runWith_read, marked]
      simp only
      rw [Task.runWith_bind_of_ok (Task.runWith_lift _ _ _), World.run_isAlive, alive]
      rfl

/-! ## Changes of the transaction -/

theorem runWith_begin_of_stands (stands : world.disk.kindAt? manager.workspace ≠ none) :
    manager.begin.runWith World.perform world = (.error .alreadyActive, world) := by
  rw [TransactionManager.begin, Task.runWith_bind_of_ok (Task.runWith_lift _ _ _),
    runWith_isActive]
  split
  · rfl
  · rw [Task.runWith_bind_of_ok (Task.runWith_lift _ _ _), runWith_workspaceExists,
      Option.isSome_iff_ne_none.2 stands]
    rfl

variable {manager}

theorem runWith_commit_of_idle (idle : world.active.contains manager.owner.handle = false) :
    manager.commit.runWith World.perform world = (.error .noActiveTransaction, world) := by
  rw [commit, Task.runWith_bind_of_ok (Task.runWith_lift _ _ _), runWith_isActive, idle]
  rfl

/-- The commit of a transaction whose workspace is its own copies the collections and finishes. -/
theorem runWith_commit_of_marked (active : world.active.contains manager.owner.handle)
    (marked : world.disk.IsMarked manager.workspace manager.owner) :
    manager.commit.runWith World.perform world =
      Task.runWith World.perform world (do
        Task.mapError .storage (Workspace.copyCollections manager.workspace manager.database)
        manager.finish) := by
  have owns : manager.ownsWorkspace.runWith World.perform world = (true, world) := by
    rw [ownsWorkspace, Program.runWith_bind, Owner.runWith_read, marked, Program.runWith_pure,
      decide_eq_true rfl]
  rw [commit, Task.runWith_bind_of_ok (Task.runWith_lift _ _ _), runWith_isActive, active]
  simp only [Bool.not_true, Bool.false_eq_true, if_false]
  rw [Task.runWith_bind_of_ok (Task.runWith_lift _ _ _), owns]
  simp only [if_true]

theorem runWith_rollback_of_active (active : world.active.contains manager.owner.handle) :
    manager.rollback.runWith World.perform world =
      manager.finish.runWith World.perform world := by
  rw [rollback, Task.runWith_bind_of_ok (Task.runWith_lift _ _ _), runWith_isActive, active]
  rfl

theorem runWith_rollback_of_idle (idle : world.active.contains manager.owner.handle = false) :
    manager.rollback.runWith World.perform world = (.error .noActiveTransaction, world) := by
  rw [rollback, Task.runWith_bind_of_ok (Task.runWith_lift _ _ _), runWith_isActive, idle]
  rfl

/-- Whoever finishes is neither active nor live afterwards. -/
theorem memory_finish (manager : TransactionManager) (world : World) :
    (manager.finish.runWith World.perform world).2.live =
        World.setMember manager.owner.handle false world.live ∧
      (manager.finish.runWith World.perform world).2.active =
        World.setMember manager.owner.handle false world.active := by
  have cleanup := World.memory_run ((Workspace.uses_cleanup manager.workspace).mono
    fun removes => removes.isOnDisk.isQuiet) world
  rw [Program.run_eq_runWith] at cleanup
  rw [finish, Task.runWith_bind_of_ok (Task.runWith_lift _ _ _), Owner.runWith_read]
  split
  · rw [Task.runWith_bind_of_ok (Task.runWith_pure _ _ _)]
    exact ⟨rfl, rfl⟩
  · rw [Task.runWith_bind_of_ok (Task.runWith_lift _ _ _)]
    rw [Task.runWith_bind_of_ok (Task.runWith_lift _ _ _)]
    rw [Task.runWith_bind_of_ok (Task.runWith_lift _ _ _)]
    rw [← cleanup.1, ← cleanup.2]
    exact ⟨rfl, rfl⟩

/-- A begin whose staging failed cleans up and fails. -/
theorem runWith_concludeBegin_of_error (manager : TransactionManager) (staging : Path)
    (error : StorageError) (world : World) :
    ∃ reason, (manager.concludeBegin staging (.error error)).runWith World.perform world =
      (.error reason, ((Workspace.cleanup staging).run.runWith World.perform
        { world with live := World.setMember manager.owner.handle false world.live }).2) := by
  rw [concludeBegin, Task.runWith_bind_of_ok (Task.runWith_lift _ _ _),
    Task.runWith_bind_of_ok (Task.runWith_lift _ _ _),
    Task.runWith_bind_of_ok (Task.runWith_lift _ _ _), runWith_workspaceExists]
  split
  · exact ⟨_, rfl⟩
  · exact ⟨_, rfl⟩

theorem memory_concludeBegin (manager : TransactionManager) (staging : Path)
    (error : StorageError) (world : World) :
    let ran := (manager.concludeBegin staging (.error error)).runWith World.perform world
    (∃ reason, ran.1 = .error reason) ∧
      ran.2.live = World.setMember manager.owner.handle false world.live ∧
      ran.2.active = world.active := by
  have cleanup := World.memory_run ((Workspace.uses_cleanup staging).mono
    fun removes => removes.isOnDisk.isQuiet)
    { world with live := World.setMember manager.owner.handle false world.live }
  rw [Program.run_eq_runWith] at cleanup
  obtain ⟨reason, same⟩ := manager.runWith_concludeBegin_of_error staging error world
  rw [same]
  exact ⟨⟨reason, rfl⟩, cleanup⟩

/-- A begin that finds no workspace stages one and notes that it is active, or notes nothing. -/
theorem begin_cases (idle : world.active.contains manager.owner.handle = false)
    (free : world.disk.kindAt? manager.workspace = none) :
    let ran := manager.begin.runWith World.perform world
    (ran.1 = .ok () ∧ ∃ staged, (Workspace.stage manager.owner manager.database
        (manager.database.join (manager.hiddenName world.nextNumber)) manager.workspace).runWith
          World.perform (manager.drawn world) = (.ok (), staged) ∧ ran.2.disk = staged.disk ∧
        ran.2.live = World.setMember manager.owner.handle true world.live ∧
        ran.2.active = World.setMember manager.owner.handle true world.active) ∨
      (∃ reason, ran.1 = .error reason) ∧
        ran.2.live = World.setMember manager.owner.handle false
          (World.setMember manager.owner.handle true world.live) ∧
        ran.2.active = world.active := by
  intro begun
  let staging := manager.database.join (manager.hiddenName world.nextNumber)
  have memory := World.memory_run ((Workspace.uses_stage manager.owner manager.database staging
    manager.workspace).mono fun onDisk => onDisk.isQuiet) (manager.drawn world)
  rw [Program.run_eq_runWith, Task.runWith_run] at memory
  rcases ran : (Workspace.stage manager.owner manager.database staging manager.workspace).runWith
    World.perform (manager.drawn world) with ⟨result, staged⟩
  rw [ran] at memory
  have same : begun = _ := runWith_begin idle free ran
  cases result with
  | ok _ =>
      rw [concludeBegin, Task.runWith_lift] at same
      have active : staged.active = world.active := memory.2
      rw [same]
      exact .inl ⟨rfl, staged, rfl, rfl, memory.1, congrArg (World.setMember _ true) active⟩
  | error error =>
      obtain ⟨reason, live, active⟩ := manager.memory_concludeBegin staging error staged
      obtain ⟨liveStaged, activeStaged⟩ := memory
      rw [same, live, active]
      exact .inr ⟨reason, congrArg (World.setMember _ false) liveStaged, activeStaged⟩

end TransactionManager

/-! ## Opening -/

/-- A handle that is opened while the owner of the workspace is alive leaves the disk as it is. -/
theorem Database.disk_run_open_of_alive {settings : Settings}
    (marked : world.disk.IsMarked (path.child settings.workspaceName) owner)
    (alive : world.isAlive owner) :
    (world.run (Database.open path settings).run).2.disk = world.disk := by
  obtain ⟨place, workspace, shows, -⟩ := marked.shows
  rw [Program.run_eq_runWith, Task.runWith_run]
  refine disk_runWith_open_of_recover shows.leads fun valid => ?_
  let drawn : World := { world with nextNumber := world.nextNumber + 1 }
  have markedThere : drawn.disk.IsMarked (next path settings world).manager.workspace owner := by
    rw [TransactionManager.workspace, next,
      Path.join_of_isPlain path (Settings.isPlain_of_isPlainName valid)]
    exact marked
  rw [TransactionManager.runWith_recover_of_alive _ markedThere alive]

theorem Database.memory_run_open (path : Path) (settings : Settings) (world : World) :
    (world.run (Database.open path settings).run).2.live = world.live ∧
      (world.run (Database.open path settings).run).2.active = world.active :=
  World.memory_run (uses_open path settings (fun asks => asks.isQuiet)
    fun _ => ⟨trivial, trivial, fun removes => removes.isOnDisk.isQuiet⟩) world

/-! ## Who holds the transaction -/

/-- Whether a handle works on a directory in a process, with workspaces of a given name. -/
structure Database.IsOn (path : Path) (name : String) (process : Nat) (handle : Database) :
    Prop where
  database : handle.manager.database = path
  workspaceName : handle.manager.workspaceName = name
  process : handle.manager.owner.process = process

namespace World

/-- Whether a handle is the only one that is active and live, and the workspace has its marker. -/
structure IsHeldBy (path : Path) (name : String) (holder : Database) (world : World) : Prop where
  live : world.live = [holder.name]
  active : world.active = [holder.name]
  process : holder.manager.owner.process = world.process
  marked : world.disk.IsMarked (path.child name) holder.manager.owner

/-- Whether the transaction is held by a given handle, or by none. -/
def HasHolder (path : Path) (name : String) (world : World) : Option Database → Prop
  | none => world.live = [] ∧ world.active = []
  | some holder => world.IsHeldBy path name holder

variable {holder : Option Database} {after : World}

/-- Who holds the transaction goes on holding it if nothing is noted and its marker stays. -/
theorem HasHolder.transport (held : world.HasHolder path name holder)
    (live : after.live = world.live) (active : after.active = world.active)
    (process : after.process = world.process)
    (keeps : ∀ owner, world.disk.IsMarked (path.child name) owner →
      after.disk.IsMarked (path.child name) owner) : after.HasHolder path name holder := by
  cases holder with
  | none => exact ⟨live.trans held.1, active.trans held.2⟩
  | some holder =>
      exact ⟨live.trans held.live, active.trans held.active, held.process.trans process.symm,
        keeps _ held.marked⟩

theorem HasHolder.congr (held : world.HasHolder path name holder)
    (same : after.unlocked = world.unlocked) : after.HasHolder path name holder := by
  refine held.transport (live_congr same) (active_congr same) (process_congr same)
    fun owner marked => ?_
  rw [disk_congr same]
  exact marked

theorem IsHeldBy.isAlive {holder : Database} (held : world.IsHeldBy path name holder) :
    world.isAlive holder.manager.owner := by
  rw [World.isAlive, if_pos held.process, held.live]
  exact List.contains_iff_mem.2 List.mem_cons_self

end World

namespace Database.IsOn

variable {holder : Option Database} {process : Nat} {handle : Database}
  (isOn : handle.IsOn path name world.process)

include isOn

/-- An active handle holds the transaction. -/
theorem marked_of_active (held : world.HasHolder path name holder)
    (active : world.active.contains handle.name) :
    world.live = [handle.name] ∧ world.active = [handle.name] ∧
      world.disk.IsMarked (path.child name) handle.manager.owner := by
  cases holder with
  | none =>
      rw [held.2] at active
      cases active
  | some holder =>
      rw [held.active, List.contains_iff_mem, List.mem_singleton] at active
      have same : handle.manager.owner = holder.manager.owner := by
        rcases handleOwner : handle.manager.owner with ⟨process, id⟩
        rcases holderOwner : holder.manager.owner with ⟨other, otherId⟩
        have processes := isOn.process.trans held.process.symm
        rw [Database.name, Database.name, handleOwner, holderOwner] at active
        rw [handleOwner, holderOwner] at processes
        exact congrArg₂ Owner.mk processes active
      rw [active, same]
      exact ⟨held.live, held.active, held.marked⟩

/-- Who ends its transaction gives it up, and nobody comes to hold it. -/
theorem hasHolder_finish (held : world.HasHolder path name holder)
    (active : world.active.contains handle.name) :
    (handle.manager.finish.runWith World.perform world).2.HasHolder path name none := by
  obtain ⟨live, only, -⟩ := isOn.marked_of_active held active
  obtain ⟨liveAfter, activeAfter⟩ := handle.manager.memory_finish world
  refine ⟨liveAfter.trans ?_, activeAfter.trans ?_⟩
  · simp [live, World.setMember, Database.name]
  · simp [only, World.setMember, Database.name]

theorem hasHolder_rollback (held : world.HasHolder path name holder) :
    (handle.manager.rollback.runWith World.perform world).2.HasHolder path name
      (if world.active.contains handle.name then none else holder) := by
  split
  · next active =>
      have isActive : world.active.contains handle.manager.owner.handle = true := active
      rw [TransactionManager.runWith_rollback_of_active isActive]
      exact isOn.hasHolder_finish held active
  · next idle =>
      rw [TransactionManager.runWith_rollback_of_idle (Bool.eq_false_iff.2 idle)]
      exact held

variable (plain : Path.IsPlain name)

include plain

theorem workspace_eq : handle.manager.workspace = path.child name := by
  rw [TransactionManager.workspace, isOn.database, isOn.workspaceName,
    Path.join_of_isPlain path plain]

/-- Statements leave it as it is who holds the transaction. -/
theorem hasHolder_statement (held : world.HasHolder path name holder) {active : Bool}
    {operation : Operation} (statement : operation.IsChange = false) :
    (world.run (handle.serveBare active operation)).2.HasHolder path name holder := by
  have uses := handle.uses_serveBare statement active
  have memory := World.memory_run (uses.mono fun concerns => concerns.isQuiet) world
  have process := World.process_run (handle.serveBare active operation) world
  refine held.transport memory.1 memory.2 process fun owner marked => ?_
  cases active with
  | true =>
      have fills : (handle.serveBare true operation).Uses (Action.Fills (path.child name)) := by
        rw [← isOn.workspace_eq plain]
        exact uses.mono fun concerns => concerns.fills
      exact marked.run fills
  | false =>
      have fills : (handle.serveBare false operation).Uses (Action.Fills path) := by
        rw [← isOn.database]
        exact uses.mono fun concerns => concerns.fills
      exact marked.run_beside fills

/-- Who begins a transaction holds it if nobody holds it, and nobody else comes to hold it. -/
theorem hasHolder_begin (held : world.HasHolder path name holder)
    (small : world.process < 2 ^ 32)
    (avoids : path.Avoids (Replacement.temporaryName name (Identifier.token world.nextNumber))) :
    ∃ next, (handle.manager.begin.runWith World.perform world).2.HasHolder path name next ∧
      (next = holder ∨ next = some handle) := by
  have there := isOn.workspace_eq plain
  by_cases free : world.disk.kindAt? handle.manager.workspace = none
  · cases holder with
    | some holder =>
        rw [there, held.marked.kindAt? plain.1] at free
        cases free
    | none =>
        obtain ⟨live, active⟩ := held
        have idle : world.active.contains handle.manager.owner.handle = false := by
          rw [active]
          rfl
        have process := World.process_run handle.manager.begin.run world
        rw [Program.run_eq_runWith, Task.runWith_run] at process
        rcases TransactionManager.begin_cases idle free with
          ⟨-, staged, ran, disk, liveAfter, activeAfter⟩ | ⟨-, liveAfter, activeAfter⟩
        · rw [live] at liveAfter
          rw [active] at activeAfter
          refine ⟨some handle, ⟨liveAfter, activeAfter, isOn.process.trans process.symm, ?_⟩, .inr rfl⟩
          have plainHere : Path.IsPlain handle.manager.workspaceName := isOn.workspaceName ▸ plain
          have plainStaging := TransactionManager.isPlain_hiddenName plainHere world.nextNumber
          rw [there, isOn.database, Path.join_of_isPlain path plainStaging] at ran
          rw [disk]
          refine Workspace.isMarked_of_stage plainStaging plain ?_ ?_ ?_ ?_ ran
          · rw [TransactionManager.hiddenName, isOn.workspaceName]
            exact avoids
          · rw [TransactionManager.utf8ByteSize_hiddenName, isOn.workspaceName,
              Replacement.temporaryExtra]
            omega
          · intro unclean
            rw [← isOn.workspaceName] at unclean
            exact TransactionManager.mem_hiddenName unclean world.nextNumber
          · rw [isOn.process]
            exact small
        · refine ⟨none, ⟨liveAfter.trans ?_, activeAfter.trans active⟩, .inl rfl⟩
          simp [live, World.setMember]
  · rw [TransactionManager.runWith_begin_of_stands _ free]
    exact ⟨holder, held, .inl rfl⟩

theorem hasHolder_commit (held : world.HasHolder path name holder) :
    ∃ next, (handle.manager.commit.runWith World.perform world).2.HasHolder path name next ∧
      (next = holder ∨ next = none) := by
  by_cases active : world.active.contains handle.name
  · have isActive : world.active.contains handle.manager.owner.handle = true := active
    obtain ⟨-, -, marked⟩ := isOn.marked_of_active held active
    rw [← isOn.workspace_eq plain] at marked
    rw [TransactionManager.runWith_commit_of_marked isActive marked]
    let copy := Workspace.copyCollections handle.manager.workspace handle.manager.database
    have fills : copy.run.Uses (Action.Fills path) := by
      refine Workspace.uses_copyFiles trivial fun member => ⟨isOn.database, member⟩
    have quiet : copy.run.Uses Action.IsQuiet := Workspace.uses_copyFiles trivial fun _ => trivial
    have memory := World.memory_run quiet world
    have process := World.process_run copy.run world
    have copied : (world.run copy.run).2.HasHolder path name holder :=
      held.transport memory.1 memory.2 process fun owner marked => marked.run_beside fills
    rw [Program.run_eq_runWith, Task.runWith_run] at copied memory process
    rw [Task.runWith_bind, Task.runWith_mapError]
    rcases ran : copy.runWith World.perform world with ⟨result, after⟩
    rw [ran] at copied memory process
    cases result with
    | error error => exact ⟨holder, copied, .inl rfl⟩
    | ok _ =>
        have isOnAfter : handle.IsOn path name after.process :=
          ⟨isOn.database, isOn.workspaceName, isOn.process.trans process.symm⟩
        have activeAfter : after.active.contains handle.name := by
          rw [show after.active = world.active from memory.2]
          exact active
        exact ⟨none, isOnAfter.hasHolder_finish copied activeAfter, .inr rfl⟩
  · rw [TransactionManager.runWith_commit_of_idle (Bool.eq_false_iff.2 active)]
    exact ⟨holder, held, .inl rfl⟩

/-! ### Whole operations -/

theorem hasHolder_serve (held : world.HasHolder path name holder) (small : world.process < 2 ^ 32)
    (avoids : path.Avoids (Replacement.temporaryName name (Identifier.token world.nextNumber)))
    (operation : Operation) :
    ∃ next, (world.run (handle.serve operation)).2.HasHolder path name next ∧
      (next = holder ∨ next = none ∨ next = some handle) := by
  obtain ⟨-, same⟩ := handle.agreeOn_serve world operation
  let bare := handle.serveBare (world.active.contains handle.name) operation
  suffices reached : ∃ next, (world.run bare).2.HasHolder path name next ∧
      (next = holder ∨ next = none ∨ next = some handle) by
    obtain ⟨next, held, source⟩ := reached
    exact ⟨next, held.congr same, source⟩
  by_cases statement : operation.IsChange = false
  · exact ⟨holder, isOn.hasHolder_statement plain held statement, .inl rfl⟩
  · cases operation with
    | begin =>
        rw [show bare = Reply.changed <$> handle.manager.begin.run from rfl, World.run_map,
          Program.run_eq_runWith]
        obtain ⟨next, held, source⟩ := isOn.hasHolder_begin plain held small avoids
        exact ⟨next, held, source.imp_right .inr⟩
    | commit =>
        rw [show bare = Reply.changed <$> handle.manager.commit.run from rfl, World.run_map,
          Program.run_eq_runWith]
        obtain ⟨next, held, source⟩ := isOn.hasHolder_commit plain held
        exact ⟨next, held, source.imp_right .inl⟩
    | rollback =>
        rw [show bare = Reply.changed <$> handle.manager.rollback.run from rfl, World.run_map,
          Program.run_eq_runWith]
        refine ⟨_, isOn.hasHolder_rollback held, ?_⟩
        split
        · exact .inr (.inl rfl)
        · exact .inl rfl
    | _ => exact absurd rfl statement

section

variable (marked : world.disk.IsMarked (path.child name) owner)

include marked

/-- While a workspace is marked, no transaction can be begun. -/
theorem runWith_begin_of_marked :
    handle.manager.begin.runWith World.perform world = (.error .alreadyActive, world) := by
  refine TransactionManager.runWith_begin_of_stands _ ?_
  rw [isOn.workspace_eq plain, marked.kindAt? plain.1]
  exact Option.some_ne_none _

theorem run_serve_begin_of_marked :
    (world.run (handle.serve .begin)).1 = .changed (.error .alreadyActive) := by
  obtain ⟨same, -⟩ := handle.agreeOn_serve world .begin
  rw [same, serveBare, World.run_map, Program.run_eq_runWith, Task.runWith_run,
    isOn.runWith_begin_of_marked plain marked]

/-- A handle that is not active leaves a marked workspace as it is. -/
theorem shows_serve_of_idle {place : List String} {workspace : Tree}
    (shows : world.disk.Shows path place name workspace)
    (idle : world.active.contains handle.name = false) (operation : Operation) :
    (world.run (handle.serve operation)).2.disk.Shows path place name workspace := by
  obtain ⟨-, same⟩ := handle.agreeOn_serve world operation
  rw [World.disk_congr same, idle]
  by_cases statement : operation.IsChange = false
  · have fills : (handle.serveBare false operation).Uses (Action.Fills path) := by
      rw [← isOn.database]
      exact (handle.uses_serveBare statement false).mono fun concerns => concerns.fills
    exact shows.run fills
  · cases operation with
    | begin =>
        rw [serveBare, World.run_map, Program.run_eq_runWith, Task.runWith_run,
          isOn.runWith_begin_of_marked plain marked]
        exact shows
    | commit =>
        rw [serveBare, World.run_map, Program.run_eq_runWith, Task.runWith_run,
          TransactionManager.runWith_commit_of_idle idle]
        exact shows
    | rollback =>
        rw [serveBare, World.run_map, Program.run_eq_runWith, Task.runWith_run,
          TransactionManager.runWith_rollback_of_idle idle]
        exact shows
    | _ => exact absurd rfl statement

end

end Database.IsOn

theorem Database.run_close (handle : Database) (world : World) :
    (world.run handle.close).2 = (handle.manager.rollback.runWith World.perform world).2 := by
  rw [Program.run_eq_runWith, close, Program.runWith_bind]
  rfl

/-! ## Sessions -/

namespace Session

/-- Whether a process starts without handles, with an allowed name for workspaces.  The numbers that
are drawn later on make no hidden name through which the path of the directory leads. -/
structure IsInitial (path : Path) (name : String) (session : Session) : Prop where
  handles : session.handles = []
  live : session.world.live = []
  active : session.world.active = []
  process : session.world.process < 2 ^ 32
  allowed : Settings.isPlainName name
  fresh : ∀ number, session.world.nextNumber ≤ number →
    Step.down (Replacement.temporaryName name (Identifier.token number)) ∉ path.steps

/-- Whether the transaction is held by one of the handles or by none, and the handles have distinct
ids. -/
structure IsSound (path : Path) (name : String) (session : Session) : Prop where
  plain : Path.IsPlain name
  process : session.world.process < 2 ^ 32
  fresh : ∀ number, session.world.nextNumber ≤ number →
    Step.down (Replacement.temporaryName name (Identifier.token number)) ∉ path.steps
  isOn : ∀ handle ∈ session.handles, handle.IsOn path name session.world.process
  distinct : (session.handles.map Database.name).Nodup
  held : ∃ holder, session.world.HasHolder path name holder ∧
    ∀ handle, holder = some handle → handle ∈ session.handles

variable {session start : Session} {event : Event}

theorem IsInitial.isSound (initial : start.IsInitial path name) : start.IsSound path name := by
  refine ⟨Settings.isPlain_of_isPlainName initial.allowed, initial.process, initial.fresh, ?_, ?_,
    none, ⟨initial.live, initial.active⟩, fun handle equal => by cases equal⟩
  · rw [initial.handles]
    exact fun handle member => absurd member List.not_mem_nil
  · rw [initial.handles]
    exact List.nodup_nil

/-- Handles with the same id are the same. -/
theorem IsSound.eq_of_name (sound : session.IsSound path name) {first second : Database}
    (member : first ∈ session.handles) (memberSecond : second ∈ session.handles)
    (same : first.name = second.name) : first = second :=
  List.inj_on_of_nodup_map sound.distinct member memberSecond same

/-! ### Events -/

theorem hasHolder_open {holder : Option Database} {settings : Settings}
    (held : session.world.HasHolder path settings.workspaceName holder) :
    (session.after path (.open settings)).world.HasHolder path settings.workspaceName holder := by
  rw [world_after_open]
  obtain ⟨live, active⟩ := Database.memory_run_open path settings session.world
  cases holder with
  | none => exact ⟨live.trans held.1, active.trans held.2⟩
  | some holder =>
      have process := World.process_run (Database.open path settings).run session.world
      refine held.transport live active process fun owner marked => ?_
      rw [Database.disk_run_open_of_alive held.marked held.isAlive]
      exact marked

theorem hasHolder_close {holder : Option Database} {handle : Database}
    (isOn : handle.IsOn path name session.world.process)
    (held : session.world.HasHolder path name holder) :
    (session.after path (.close handle)).world.HasHolder path name
      (if session.world.active.contains handle.name then none else holder) := by
  rw [after, Database.run_close]
  exact isOn.hasHolder_rollback held

theorem hasHolder_respond {holder : Option Database}
    (held : session.world.HasHolder path name holder) (source : String) (useIndex : Bool) :
    (session.after path (.respond source useIndex)).world.HasHolder path name holder := by
  have uses := Query.uses_respond path source useIndex
  have memory := World.memory_run (uses.mono fun concerns => concerns.isQuiet) session.world
  have process := World.process_run (Query.respond path source useIndex) session.world
  change (session.world.run (Query.respond path source useIndex)).2.HasHolder path name holder
  exact held.transport memory.1 memory.2 process
    fun owner marked => marked.run_beside (uses.mono fun concerns => concerns.fills)

/-- Every event leaves the transaction with a handle that is open, or with none. -/
theorem IsSound.held_after (sound : session.IsSound path name)
    (admits : session.Admits name event) :
    ∃ holder, (session.after path event).world.HasHolder path name holder ∧
      ∀ handle, holder = some handle → handle ∈ (session.after path event).handles := by
  obtain ⟨holder, held, isOpen⟩ := sound.held
  cases event with
  | «open» settings =>
      obtain ⟨rfl, -⟩ := admits
      refine ⟨holder, hasHolder_open held, fun handle equal => ?_⟩
      have member := isOpen handle equal
      rw [after]
      split
      · exact List.mem_cons_of_mem _ member
      · exact member
  | serve handle operation =>
      obtain ⟨next, heldNext, source⟩ := (sound.isOn handle admits).hasHolder_serve sound.plain held
        sound.process (Path.avoids_of_not_mem (sound.fresh _ (Nat.le_refl _))) operation
      refine ⟨next, heldNext, fun other equal => ?_⟩
      rcases source with rfl | rfl | rfl
      · exact isOpen other equal
      · cases equal
      · cases equal
        exact admits
  | close handle =>
      refine ⟨_, hasHolder_close (sound.isOn handle admits) held, fun other equal => ?_⟩
      split at equal
      · cases equal
      · next idle =>
          subst equal
          have differs : other ≠ handle := by
            rintro rfl
            rw [held.active] at idle
            exact idle (List.contains_iff_mem.2 List.mem_cons_self)
          exact (List.mem_erase_of_ne differs).2 (isOpen other rfl)
  | respond source useIndex => exact ⟨holder, hasHolder_respond held source useIndex, isOpen⟩

theorem IsSound.after (sound : session.IsSound path name) (admits : session.Admits name event) :
    (session.after path event).IsSound path name := by
  obtain ⟨_, program, same⟩ := session.exists_run path event
  have process : (session.after path event).world.process = session.world.process := by
    rw [same, World.process_run]
  have number : session.world.nextNumber ≤ (session.after path event).world.nextNumber := by
    rw [same]
    exact World.nextNumber_le_run program session.world
  refine ⟨sound.plain, process ▸ sound.process,
    fun drawn later => sound.fresh drawn (Nat.le_trans number later), ?_, ?_,
    sound.held_after admits⟩
  · rw [process]
    intro handle member
    cases event with
    | «open» settings =>
        obtain ⟨named, -⟩ := admits
        rw [Session.after] at member
        split at member
        · next opened world ran =>
            rcases List.mem_cons.1 member with rfl | earlier
            · obtain ⟨-, rfl⟩ := Database.open_eq_ok ran
              exact ⟨rfl, named, rfl⟩
            · exact sound.isOn handle earlier
        · exact sound.isOn handle member
    | close closed => exact sound.isOn handle (List.mem_of_mem_erase member)
    | serve | respond => exact sound.isOn handle member
  · cases event with
    | «open» settings =>
        obtain ⟨-, fresh⟩ := admits
        rw [Session.after]
        split
        · next opened world ran =>
            obtain ⟨-, rfl⟩ := Database.open_eq_ok ran
            exact List.nodup_cons.2 ⟨fresh, sound.distinct⟩
        · exact sound.distinct
    | close closed => exact (List.erase_sublist.map Database.name).nodup sound.distinct
    | serve | respond => exact sound.distinct

theorem Reaches.isSound (reaches : Reaches path name start session)
    (sound : start.IsSound path name) : session.IsSound path name := by
  induction reaches with
  | start => exact sound
  | step reaches admits ih => exact ih.after admits

/-- Events that use no active handle leave the workspace of an owner that is alive as it is. -/
theorem IsSound.shows_after {place : List String} {workspace : Tree}
    (sound : session.IsSound path name) (admits : session.Admits name event)
    (shows : session.world.disk.Shows path place name workspace)
    (marked : session.world.disk.IsMarked (path.child name) owner)
    (alive : session.world.isAlive owner)
    (idle : ∀ handle, event.handle? = some handle →
      session.world.active.contains handle.name = false) :
    (session.after path event).world.disk.Shows path place name workspace := by
  cases event with
  | «open» settings =>
      obtain ⟨rfl, -⟩ := admits
      rw [world_after_open, Database.disk_run_open_of_alive marked alive]
      exact shows
  | serve handle operation =>
      exact (sound.isOn handle admits).shows_serve_of_idle sound.plain marked shows
        (idle handle rfl) operation
  | close handle =>
      rw [Session.after, Database.run_close,
        TransactionManager.runWith_rollback_of_idle (idle handle rfl)]
      exact shows
  | respond source useIndex =>
      have uses := Query.uses_respond path source useIndex
      exact shows.run (uses.mono fun concerns => concerns.fills)

theorem Admits.mem {handle : Database} (admits : session.Admits name event)
    (uses : event.handle? = some handle) : handle ∈ session.handles := by
  cases event with
  | serve | close =>
      cases uses
      exact admits
  | «open» | respond => cases uses

/-- The workspace of another process that is running stays as it is all the time. -/
theorem Reaches.shows {place : List String} {workspace : Tree}
    (reaches : Reaches path name start session) (sound : start.IsSound path name)
    (shows : start.world.disk.Shows path place name workspace)
    (marked : start.world.disk.IsMarked (path.child name) owner)
    (foreign : owner.process ≠ start.world.process)
    (running : owner.process ∈ start.world.running) :
    session.world.disk.Shows path place name workspace ∧
      session.world.disk.IsMarked (path.child name) owner ∧
      session.world.process = start.world.process ∧
      session.world.running = start.world.running := by
  induction reaches with
  | start => exact ⟨shows, marked, rfl, rfl⟩
  | @step session event reaches admits ih =>
      obtain ⟨showsHere, markedHere, process, others⟩ := ih
      have soundHere := reaches.isSound sound
      obtain ⟨_, program, same⟩ := session.exists_run path event
      have alive : session.world.isAlive owner := by
        rw [World.isAlive, if_neg (process ▸ foreign), others]
        exact List.contains_iff_mem.2 running
      have idle : ∀ handle, event.handle? = some handle →
          session.world.active.contains handle.name = false := by
        intro handle uses
        by_contra active
        obtain ⟨holder, held, -⟩ := soundHere.held
        have isOn := soundHere.isOn handle (admits.mem uses)
        obtain ⟨-, -, own⟩ := isOn.marked_of_active held (by simpa using active)
        have equal := markedHere.symm.trans own
        rw [Option.some.inj equal] at foreign
        exact foreign (isOn.process.trans process)
      have showsAfter := soundHere.shows_after admits showsHere markedHere alive idle
      obtain ⟨-, -, usable⟩ := markedHere.leadsTo
      have marker := markedHere
      rw [Tree.IsMarked, showsHere.leadsTo_child.readAt_child (by decide) usable, Tree.read,
        Tree.find_append_of_ok showsHere.found] at marker
      refine ⟨showsAfter, showsAfter.isMarked usable marker, ?_, ?_⟩
      · rw [same, World.process_run, process]
      · rw [same, World.running_run, others]

/-- At most one handle has an active transaction, and the live handles are the active ones.  While a
handle is active, its workspace exists and has its marker, every handle is refused to begin, and no
event but those of the handle touches the workspace.  The workspace that another running process
left behind is never touched. -/
theorem exclusive (initial : start.IsInitial path name)
    (reaches : Reaches path name start session) :
    (∀ first ∈ session.handles, ∀ second ∈ session.handles, first.name ∈ session.world.active →
      second.name ∈ session.world.active → first = second) ∧
    (∀ id, id ∈ session.world.live ↔
      ∃ handle ∈ session.handles, handle.name = id ∧ id ∈ session.world.active) ∧
    (∀ holder ∈ session.handles, holder.name ∈ session.world.active →
      session.world.disk.kindAt? holder.manager.workspace = some .directory ∧
      (session.world.run (Owner.read holder.manager.workspace)).1 = some holder.manager.owner ∧
      (∀ other ∈ session.handles,
        (session.world.run (other.serve .begin)).1 = .changed (.error .alreadyActive)) ∧
      ∀ event, session.Admits name event → event.handle? ≠ some holder →
        (session.after path event).world.disk.findAt holder.manager.workspace =
          session.world.disk.findAt holder.manager.workspace) ∧
    ∀ owner, (start.world.run (Owner.read (path.join name))).1 = some owner →
      owner.process ≠ start.world.process → owner.process ∈ start.world.running →
      session.world.disk.findAt (path.join name) = start.world.disk.findAt (path.join name) := by
  have sound := reaches.isSound initial.isSound
  obtain ⟨holder, held, isOpen⟩ := sound.held
  refine ⟨fun first member second memberSecond active activeSecond => ?_, fun id => ?_,
    fun handle member active => ?_, fun owner marked foreign running => ?_⟩
  · cases holder with
    | none =>
        rw [held.2] at active
        cases active
    | some holder =>
        rw [held.active, List.mem_singleton] at active activeSecond
        exact sound.eq_of_name member memberSecond (active.trans activeSecond.symm)
  · cases holder with
    | none =>
        rw [held.1, held.2]
        simp
    | some holder =>
        rw [held.live, held.active, List.mem_singleton]
        refine ⟨fun same => ⟨holder, isOpen holder rfl, same.symm, same⟩, ?_⟩
        rintro ⟨-, -, -, same⟩
        exact same
  · have isOn := sound.isOn handle member
    have isActive : session.world.active.contains handle.name := List.contains_iff_mem.2 active
    obtain ⟨live, only, marked⟩ := isOn.marked_of_active held isActive
    rw [isOn.workspace_eq sound.plain]
    refine ⟨marked.kindAt? sound.plain.1, ?_, fun other memberOther => ?_,
      fun event admits others => ?_⟩
    · rw [Program.run_eq_runWith, Owner.runWith_read]
      exact marked
    · exact (sound.isOn other memberOther).run_serve_begin_of_marked sound.plain marked
    · obtain ⟨place, workspace, shows, -⟩ := marked.shows
      have alive : session.world.isAlive handle.manager.owner := by
        rw [World.isAlive, if_pos isOn.process, live]
        exact List.contains_iff_mem.2 List.mem_cons_self
      have idle : ∀ other, event.handle? = some other →
          session.world.active.contains other.name = false := by
        intro other uses
        by_contra inside
        rw [Bool.not_eq_false, only, List.contains_iff_mem, List.mem_singleton] at inside
        exact others (uses.trans (congrArg some (sound.eq_of_name (admits.mem uses) member inside)))
      have showsAfter := sound.shows_after admits shows marked alive idle
      exact shows.findAt_congr showsAfter sound.plain.1
  · rw [Path.join_of_isPlain path sound.plain] at marked ⊢
    rw [Program.run_eq_runWith, Owner.runWith_read] at marked
    obtain ⟨place, workspace, shows, -⟩ := Tree.IsMarked.shows marked
    obtain ⟨showsAfter, -⟩ := reaches.shows initial.isSound shows marked foreign running
    exact shows.findAt_congr showsAfter sound.plain.1

/-- A process opens two handles on a directory with the workspace of a process that is gone, and the
first one begins a transaction.  The workspace of a process that is running stays. -/
theorem exclusive_of_two :
    let path : Path := .ofText "db"
    let world (leftover : Owner) : World :=
      { disk := .directory [("db", .directory [("transaction_temp", .directory
          [("owner.json", .file (.text leftover.markerText))])])] }
    let start : Session := ⟨world ⟨77, "lost"⟩, []⟩
    let both := (start.after path (.open {})).after path (.open {})
    let first : Database := ⟨path, {}, path, "transaction_temp", 2, Identifier.ofNumber 0⟩
    let second : Database := ⟨path, {}, path, "transaction_temp", 2, Identifier.ofNumber 1⟩
    let session := both.after path (.serve first .begin)
    let foreign : Session := ⟨world ⟨1, "other"⟩, []⟩
    let opened := foreign.after path (.open {})
    start.IsInitial path "transaction_temp" ∧ Reaches path "transaction_temp" start session ∧
      first ∈ session.handles ∧ second ∈ session.handles ∧ first.name ∈ session.world.active ∧
      (session.world.run (second.serve .begin)).1 = .changed (.error .alreadyActive) ∧
      (session.after path (.close second)).world.disk.findAt first.manager.workspace =
        session.world.disk.findAt first.manager.workspace ∧
      foreign.IsInitial path "transaction_temp" ∧
      Reaches path "transaction_temp" foreign opened ∧
      opened.world.disk.findAt (path.join "transaction_temp") =
        foreign.world.disk.findAt (path.join "transaction_temp") := by
  intro path world start both first second session foreign opened
  have fresh : ∀ number, 0 ≤ number → Step.down (Replacement.temporaryName "transaction_temp"
      (Identifier.token number)) ∉ path.steps := by
    intro number _ named
    have steps : path.steps = [.down "db"] := by decide +kernel
    rw [steps, List.mem_singleton] at named
    have size := congrArg String.utf8ByteSize (Step.down.inj named)
    rw [Replacement.utf8ByteSize_temporaryName _ (Identifier.utf8ByteSize_token number)] at size
    revert size
    decide
  have initial : start.IsInitial path "transaction_temp" :=
    ⟨rfl, rfl, rfl, by decide, by decide +kernel, fresh⟩
  have initialForeign : foreign.IsInitial path "transaction_temp" :=
    ⟨rfl, rfl, rfl, by decide, by decide +kernel, fresh⟩
  have opens : Reaches path "transaction_temp" start (start.after path (.open {})) :=
    Reaches.start.step (by decide +kernel)
  have opensBoth : Reaches path "transaction_temp" start both := opens.step (by decide +kernel)
  have reaches : Reaches path "transaction_temp" start session :=
    opensBoth.step (by decide +kernel)
  have reachesForeign : Reaches path "transaction_temp" foreign opened :=
    Reaches.start.step (by decide +kernel)
  have memberFirst : first ∈ session.handles := by decide +kernel
  have memberSecond : second ∈ session.handles := by decide +kernel
  have active : first.name ∈ session.world.active := by decide +kernel
  obtain ⟨-, -, held, -⟩ := exclusive initial reaches
  obtain ⟨-, -, refused, kept⟩ := held first memberFirst active
  obtain ⟨-, -, -, untouched⟩ := exclusive initialForeign reachesForeign
  exact ⟨initial, reaches, memberFirst, memberSecond, active, refused second memberSecond,
    kept (.close second) memberSecond (by decide +kernel), initialForeign, reachesForeign,
    untouched ⟨1, "other"⟩ (by decide +kernel) (by decide) (by decide)⟩

end Session
end GraphStore
