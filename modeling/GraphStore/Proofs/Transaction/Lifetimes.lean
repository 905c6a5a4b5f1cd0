import GraphStore.Proofs.Query.Relocations
import GraphStore.Proofs.Transaction.Abandonment

/-!
# From the beginning of a transaction to its end

A manager rests in a directory in which no workspace stands.  While it works, the directory is what
it was when the transaction began, and the workspace beside it holds a store of its own.  A commit
puts this store in the place of that of the directory, and a rollback forgets it.
-/

namespace GraphStore

variable {place : List String} {manager : TransactionManager} {store committed : Store}
  {world other : World}

/-- The same files and numbers when every file can be replaced. -/
def Store.reliable (store : Store) : Store :=
  { store with outcome := fun _ => .done }

@[simp]
theorem Store.read_reliable (store : Store) : store.reliable.read = store.read := rfl

namespace TransactionManager

/-- Whether a manager can have workspaces as far as names and numbers go. -/
structure IsProper (manager : TransactionManager) : Prop where
  plain : Path.IsPlain manager.workspaceName
  short : manager.workspaceName.utf8ByteSize + Replacement.temporaryExtra ≤ Tree.nameLimit
  apart : manager.workspaceName ∉ Collections.files
  process : manager.owner.process < 2 ^ 32

/-- Whether a manager is idle, and no workspace stands in its directory, which holds a store. -/
structure Rests (manager : TransactionManager) (place : List String) (store : Store)
    (world : World) : Prop where
  holds : world.Holds manager.database place store
  site : world.disk.IsSite manager.database manager.workspaceName store.nextNumber place
  idle : world.active.contains manager.owner.handle = false

/-- Whether a manager is active, and beside the workspace its directory is as in a world in which it
rested.  The workspace holds another store, which has every collection of the directory. -/
structure Works (manager : TransactionManager) (place : List String) (committed store : Store)
    (world : World) : Prop where
  beside : ∃ (rest : World) (workspace : Tree), manager.Rests place committed rest ∧
    workspace.IsWorkspaceOf manager.owner store.read ∧
    world.disk = rest.disk.host place manager.workspaceName workspace
  number : world.nextNumber = store.nextNumber
  later : committed.nextNumber ≤ store.nextNumber
  reliable : store.IsReliable
  covers : Snapshot.Covers store.read committed.read
  fits : manager.database.Fits Workspace.fileRoom
  fitsThere : (manager.database.child manager.workspaceName).Fits Workspace.fileRoom
  active : world.active.contains manager.owner.handle

/-! ## At rest -/

/-- Of a world in which a manager rests only the disk matters, and the numbers that were drawn. -/
theorem Rests.transport (rests : manager.Rests place store world) (disk : other.disk = world.disk)
    (later : store.nextNumber ≤ other.nextNumber)
    (idle : other.active.contains manager.owner.handle = false) :
    manager.Rests place (store.withNumber other.nextNumber) other := by
  refine ⟨rests.holds.transport disk rfl rfl rfl, ?_, idle⟩
  rw [disk]
  exact rests.site.mono later

theorem Rests.congr (rests : manager.Rests place store world)
    (same : other.unlocked = world.unlocked) : manager.Rests place store other := by
  have number := (World.nextNumber_congr same).trans rests.holds.number
  have moved := rests.transport (World.disk_congr same) (Nat.le_of_eq number.symm)
    (World.active_congr same ▸ rests.idle)
  rwa [number, Store.withNumber_nextNumber] at moved

/-- A directory with room for its files can replace them all. -/
theorem Rests.reliable (rests : manager.Rests place store world)
    (fits : manager.database.Fits Workspace.fileRoom) :
    manager.Rests place store.reliable world := by
  refine ⟨⟨rests.holds.leads, rests.holds.read, fun file member => ?_, rests.holds.number⟩,
    rests.site, rests.idle⟩
  rcases rests.holds.leads.replace_cases (Collections.ne_empty_of_mem_files member) (.text "") with
    ⟨-, done, -⟩ | ⟨impossible, -⟩
  · exact done
  · exact absurd (rests.site.canReplace fits member) impossible

/-- One action that concerns the collections of the directory. -/
theorem Rests.perform (rests : manager.Rests place store world) (proper : manager.IsProper)
    {action : Action} (concerns : manager.database.Concerns action) :
    (world.perform action).1 = (store.perform action).1 ∧
      manager.Rests place (store.perform action).2 (world.perform action).2 := by
  obtain ⟨same, holds⟩ := rests.holds.perform concerns
  refine ⟨same, holds, ?_, ?_⟩
  · cases action with
    | replace target file content =>
        obtain ⟨rfl, member⟩ := concerns
        have differs : file ≠ manager.workspaceName := fun equal => proper.apart (equal ▸ member)
        have number : (store.perform (.replace manager.database file content)).2.nextNumber =
            store.nextNumber := by
          rw [Store.perform]
          split <;> rfl
        simp only [number, World.perform, World.onDisk]
        rcases rests.holds.leads.replace_cases (Collections.ne_empty_of_mem_files member) content
          with ⟨possible, -, replaced⟩ | ⟨-, -, unchanged⟩
        · rw [replaced]
          exact rests.site.put member differs content possible
        · rw [unchanged]
          exact rests.site
    | fresh => exact rests.site.mono (Nat.le_succ _)
    | read | acquire | release => exact rests.site
    | _ => cases concerns
  · have idle := rests.idle
    cases action <;>
      first
        | exact concerns.elim
        | simpa only [World.perform, World.onDisk, World.changeRegistry] using idle

/-- Whatever concerns the collections of the directory runs as it runs on the store. -/
theorem Rests.run {α : Type} (rests : manager.Rests place store world) (proper : manager.IsProper)
    {program : Program α} (uses : program.Uses manager.database.Concerns) :
    manager.Rests place (program.runWith Store.perform store).2 (world.run program).2 := by
  rw [Program.run_eq_runWith]
  exact (Program.runWith_simulates (fun world store => manager.Rests place store world)
    (fun rests concerns => rests.perform proper concerns) uses rests).2

/-! ## At work -/

theorem Works.congr (works : manager.Works place committed store world)
    (same : other.unlocked = world.unlocked) : manager.Works place committed store other := by
  obtain ⟨rest, workspace, rests, isWorkspace, disk⟩ := works.beside
  exact ⟨⟨rest, workspace, rests, isWorkspace, (World.disk_congr same).trans disk⟩,
    (World.nextNumber_congr same).trans works.number, works.later, works.reliable, works.covers,
    works.fits, works.fitsThere, World.active_congr same ▸ works.active⟩

/-- One action that concerns the collections of the workspace. -/
theorem Works.perform (works : manager.Works place committed store world)
    (proper : manager.IsProper) {action : Action}
    (concerns : (manager.database.child manager.workspaceName).Concerns action) :
    (world.perform action).1 = (store.perform action).1 ∧
      manager.Works place committed (store.perform action).2 (world.perform action).2 := by
  obtain ⟨rest, workspace, rests, isWorkspace, disk⟩ := works.beside
  have free := rests.site.free
  cases action with
  | read path =>
      obtain ⟨file, member, rfl⟩ := concerns
      refine ⟨?_, works⟩
      simp only [World.perform, Store.perform, Path.entryName_child]
      rw [disk, free.readAt_workspace works.fitsThere isWorkspace.isWorkspace
        (List.mem_cons_of_mem _ member), isWorkspace.copies file member]
  | replace target file content =>
      obtain ⟨rfl, member⟩ := concerns
      obtain ⟨-, replaced⟩ := (free.replace_host_cases proper.plain isWorkspace.isWorkspace
        (show file ∈ Workspace.names from List.mem_cons_of_mem _ member) content).resolve_right
          fun refused => refused.1 works.fitsThere
      rw [← disk] at replaced
      have done := works.reliable file
      simp only [World.perform, World.onDisk, Store.perform, replaced, done, if_true]
      exact ⟨trivial, ⟨rest, _, rests, isWorkspace.put member content, rfl⟩, works.number,
        works.later, works.reliable, Snapshot.Covers.put works.covers file content, works.fits,
        works.fitsThere, works.active⟩
  | fresh =>
      exact ⟨works.number, ⟨rest, workspace, rests, isWorkspace, disk⟩,
        congrArg (· + 1) works.number, Nat.le_succ_of_le works.later, works.reliable, works.covers,
        works.fits, works.fitsThere, works.active⟩
  | acquire | release => exact ⟨rfl, works.congr rfl⟩
  | _ => cases concerns

/-- Whatever concerns the collections of the workspace runs as it runs on its store. -/
theorem Works.run {α : Type} (works : manager.Works place committed store world)
    (proper : manager.IsProper) {program : Program α}
    (uses : program.Uses (manager.database.child manager.workspaceName).Concerns) :
    manager.Works place committed (program.runWith Store.perform store).2
      (world.run program).2 := by
  rw [Program.run_eq_runWith]
  exact (Program.runWith_simulates (fun world store => manager.Works place committed store world)
    (fun works concerns => works.perform proper concerns) uses works).2

/-! ## Changes of the transaction -/

/-- What reading and replacing the collections answers is all that matters of a store. -/
theorem Rests.congrStore (rests : manager.Rests place store world) {same : Store}
    (read : ∀ file ∈ Collections.files, store.read file = same.read file)
    (outcome : store.outcome = same.outcome) (number : store.nextNumber = same.nextNumber) :
    manager.Rests place same world := by
  refine ⟨⟨rests.holds.leads, fun file member => ?_, fun file member => ?_, ?_⟩, ?_, rests.idle⟩
  · exact (rests.holds.read file member).trans (read file member)
  · exact (rests.holds.outcome file member).trans (congrFun outcome file)
  · exact rests.holds.number.trans number
  · exact number ▸ rests.site

theorem Rests.kindAt?_workspace (rests : manager.Rests place store world)
    (proper : manager.IsProper) : world.disk.kindAt? manager.workspace = none := by
  rw [TransactionManager.workspace, Path.join_of_isPlain _ proper.plain]
  refine rests.holds.leads.kindAt?_child_of_none proper.plain.1 ?_
  rw [Tree.kind?, rests.site.free.missing]

/-- A begin fails and leaves the directory as it was, or the workspace comes to stand in it with the
same collections. -/
theorem Rests.begin (rests : manager.Rests place store world) (proper : manager.IsProper) :
    let ended := world.run manager.begin.run
    (ended.1 = .ok () ∧
        manager.Works place store.reliable (store.reliable.withNumber ended.2.nextNumber) ended.2) ∨
      (∃ error, ended.1 = .error error) ∧
        manager.Rests place (store.withNumber ended.2.nextNumber) ended.2 := by
  intro ended
  have free := rests.kindAt?_workspace proper
  have later : store.nextNumber ≤ ended.2.nextNumber :=
    rests.holds.number ▸ World.nextNumber_le_run manager.begin.run world
  let hidden := manager.database.child (manager.hiddenName world.nextNumber)
  have ran : ended = manager.begin.runWith World.perform world := by
    rw [← Task.runWith_run, ← Program.run_eq_runWith]
  have memory := begin_cases rests.idle free
  cases usable : hidden.isUsable with
  | false =>
      obtain ⟨after, refused, disk, active, -⟩ := runWith_begin_of_obstructed rests.holds.leads
        proper.plain rests.idle free fun there => by
          rw [show (manager.database.child (manager.hiddenName world.nextNumber)).isUsable = false
            from usable] at there
          cases there
      rw [ran, refused] at later ⊢
      exact .inr ⟨⟨_, rfl⟩, rests.transport disk later (active ▸ rests.idle)⟩
  | true =>
      have makes := rests.holds.leads.makeDirectoriesAt_trimmed
      rw [Path.Fits.isUsable (Path.isUsable_iff_fits.1 (Path.isUsable_of_child usable)).trimmed]
        at makes
      have unused : world.disk.kindAt? hidden = none := by
        refine rests.holds.leads.kindAt?_child_of_none (isPlain_hiddenName proper.plain _).1 ?_
        rw [Tree.kind?, hiddenName, rests.site.unused _ (Nat.le_of_eq rests.holds.number.symm)]
      rcases begin_of_made proper.plain proper.short rests.idle free unused rests.site.ordered usable
        makes rests.holds.leads (.inl rfl) with
        ⟨begun, marked, regular, workspace, isWorkspace, disk⟩ | ⟨⟨error, failed⟩, disk, -⟩
      · have fits : manager.database.Fits Workspace.fileRoom := by
          refine marked.of_child.mono ?_
          rw [utf8ByteSize_hiddenName]
          exact Nat.le_trans (by decide : Workspace.fileRoom ≤
            Replacement.temporaryExtra + Workspace.markerRoom) (by omega)
        have fitsThere : (manager.database.child manager.workspaceName).Fits
            Workspace.fileRoom := by
          refine marked.child_of_child ?_ fun unclean => mem_hiddenName unclean _
          rw [utf8ByteSize_hiddenName]
          have room : Workspace.fileRoom ≤ Replacement.temporaryExtra + Workspace.markerRoom := by
            decide
          omega
        rw [← ran] at begun disk
        refine .inl ⟨begun, ⟨world, workspace, rests.reliable fits, ?_, disk⟩, rfl, later,
          fun _ => rfl, fun _ _ missing => missing, fits, fitsThere, ?_⟩
        · exact isWorkspace.congr rests.holds.read
        · rcases memory with ⟨-, -, -, -, -, active⟩ | ⟨⟨reason, failed⟩, -⟩
          · rw [ran, active]
            exact World.contains_setMember _ true _
          · rw [← ran, begun] at failed
            cases failed
      · rcases memory with ⟨begun, -⟩ | ⟨-, -, active⟩
        · rw [begun] at failed
          cases failed
        · rw [← ran] at failed disk active
          exact .inr ⟨⟨error, failed⟩, rests.transport disk later (active ▸ rests.idle)⟩

theorem runWith_begin_of_active (active : world.active.contains manager.owner.handle) :
    manager.begin.runWith World.perform world = (.error .alreadyActive, world) := by
  rw [TransactionManager.begin, Task.runWith_bind_of_ok (Task.runWith_lift _ _ _),
    runWith_isActive, active]
  rfl

/-- Who finishes after a transaction rests in the directory beside the workspace. -/
theorem Works.finish (works : manager.Works place committed store world)
    (proper : manager.IsProper) :
    ∃ after, manager.finish.runWith World.perform world = (.ok (), after) ∧
      manager.Rests place (committed.withNumber store.nextNumber) after := by
  obtain ⟨rest, workspace, rests, isWorkspace, disk⟩ := works.beside
  have finished := runWith_finish_of_hosted proper.plain proper.process works.fitsThere
    rests.site.free rests.site.ordered isWorkspace.isWorkspace isWorkspace.marker world
  rw [← disk] at finished
  have moved : ∀ after : World, after.disk = rest.disk → after.nextNumber = world.nextNumber →
      after.active.contains manager.owner.handle = false →
      manager.Rests place (committed.withNumber store.nextNumber) after := by
    intro after same number idle
    rw [← works.number, ← number]
    exact rests.transport same (by rw [number, works.number]; exact works.later) idle
  exact ⟨_, finished, moved _ rfl rfl (World.contains_setMember _ false _)⟩

/-- A rollback brings back the directory in which the transaction was begun. -/
theorem Works.rollback (works : manager.Works place committed store world)
    (proper : manager.IsProper) :
    (world.run manager.rollback.run).1 = .ok () ∧
      manager.Rests place (committed.withNumber store.nextNumber)
        (world.run manager.rollback.run).2 := by
  obtain ⟨after, finished, rests⟩ := works.finish proper
  rw [Program.run_eq_runWith, Task.runWith_run, runWith_rollback_of_active works.active, finished]
  exact ⟨rfl, rests⟩

/-- A commit leaves the directory with the store of the workspace. -/
theorem Works.commit (works : manager.Works place committed store world)
    (proper : manager.IsProper) :
    (world.run manager.commit.run).1 = .ok () ∧
      manager.Rests place store (world.run manager.commit.run).2 := by
  obtain ⟨rest, workspace, rests, isWorkspace, disk⟩ := works.beside
  have there : manager.workspace = manager.database.child manager.workspaceName :=
    Path.join_of_isPlain _ proper.plain
  have marked : world.disk.IsMarked manager.workspace manager.owner := by
    rw [there, Tree.IsMarked, disk, rests.site.free.readAt_workspace works.fitsThere
      isWorkspace.isWorkspace (show Owner.file ∈ Workspace.names from List.mem_cons_self),
      isWorkspace.marker, Owner.ofContent?_markerText proper.process]
  have regular : Snapshot.IsRegular store.read := by
    intro file member
    rw [← isWorkspace.copies file member]
    exact isWorkspace.isWorkspace.read_ne_obstructed (List.mem_cons_of_mem _ member)
  -- The files are replaced in the directory, beside the workspace, which stays as it is.
  obtain ⟨copied, ran, beside⟩ := @Workspace.runWith_copyFiles manager.workspace manager.database
    store.read
    (fun snapshot other => ∃ rest : World,
      manager.Rests place ⟨snapshot, fun _ => .done, committed.nextNumber⟩ rest ∧
      other = { world with disk := rest.disk.host place manager.workspaceName workspace })
    Collections.files regular
    (by
      rintro snapshot other ⟨rest, rests, rfl⟩ file member
      rw [there, rests.site.free.readAt_workspace works.fitsThere isWorkspace.isWorkspace
        (List.mem_cons_of_mem _ member), isWorkspace.copies file member])
    (by
      rintro snapshot other ⟨rest, rests, rfl⟩ file member content -
      have differs : file ≠ manager.workspaceName := fun equal => proper.apart (equal ▸ member)
      have possible := rests.site.canReplace works.fits member
      exact ⟨_, rests.site.replace works.fits member differs workspace content,
        { rest with disk := rest.disk.update (place ++ [file]) (some (.file content)) },
        ⟨rests.holds.replaced member content possible,
          rests.site.put member differs content possible, rests.idle⟩, rfl⟩)
    committed.read world ⟨rest, rests.reliable works.fits, by rw [← disk]⟩
  obtain ⟨rest, rests, rfl⟩ := beside
  have worksThere : manager.Works place _ store
      { world with disk := rest.disk.host place manager.workspaceName workspace } :=
    ⟨⟨rest, workspace, rests, isWorkspace, rfl⟩, works.number, works.later, works.reliable,
      fun file member missing =>
        (Snapshot.overlay_of_covers regular works.covers member).trans missing,
      works.fits, works.fitsThere, works.active⟩
  obtain ⟨after, finished, restsAfter⟩ := worksThere.finish proper
  rw [Program.run_eq_runWith, Task.runWith_run, runWith_commit_of_marked works.active marked,
    Task.runWith_bind, Task.runWith_mapError, Workspace.copyCollections, ran]
  have same : (manager.finish.runWith World.perform { world with
      disk := rest.disk.host place manager.workspaceName workspace }).2 = after :=
    congrArg Prod.snd finished
  have restsLast : manager.Rests place store after := restsAfter.congrStore
    (fun file member => Snapshot.overlay_of_covers regular works.covers member)
    (funext fun file => (works.reliable file).symm) rfl
  exact ⟨congrArg Prod.fst finished, same ▸ restsLast⟩

end TransactionManager

/-! ## Serving -/

namespace Database

variable {database : Database} {operation : Operation}

theorem agreeOn_changeTransaction (database : Database) (world : World)
    (change : Task TransactionError Unit) :
    (database.changeTransaction change).run.AgreeOn world change.run :=
  ((Program.serves_unlocked change.run world).changeTransaction (Program.isEssential_unlocked _)
    (Program.isEssential_unlocked _) database).agreeOn

/-- What a statement makes of the store of the directory in which it is executed. -/
def storeAfter (database : Database) (operation : Operation) (store : Store) : Store :=
  ((database.serveBare false operation).runWith Store.perform store).2

/-- A text makes of the store of the workspace what it would make of it in the directory. -/
theorem store_serveBare_execute (database : Database) (source : String) (useIndex : Bool)
    (store : Store) :
    ((database.serveBare true (.execute source useIndex)).runWith Store.perform store).2 =
      database.storeAfter (.execute source useIndex) store := by
  rw [storeAfter, serveBare, serveBare, Program.runWith_map, Program.runWith_map]
  exact Query.Executor.store_execute_relocate
    (.ofSettings (database.manager.targetIf false) database.name database.settings)
    (database.manager.targetIf true) source useIndex store

/-- While a transaction is active, no other one is begun. -/
theorem works_begin (works : database.manager.Works place committed store world) :
    (∃ error, (world.run database.begin.run).1 = .error error) ∧
      database.manager.Works place committed store (world.run database.begin.run).2 := by
  obtain ⟨same, unlocked⟩ := database.agreeOn_changeTransaction world database.manager.begin
  rw [Program.run_eq_runWith world database.manager.begin.run, Task.runWith_run,
    TransactionManager.runWith_begin_of_active works.active] at same unlocked
  exact ⟨⟨_, same⟩, works.congr unlocked⟩

/-- While no transaction is active, none is ended. -/
theorem rests_commit (rests : database.manager.Rests place store world) :
    (∃ error, (world.run database.commit.run).1 = .error error) ∧
      database.manager.Rests place store (world.run database.commit.run).2 := by
  obtain ⟨same, unlocked⟩ := database.agreeOn_changeTransaction world database.manager.commit
  rw [Program.run_eq_runWith world database.manager.commit.run, Task.runWith_run,
    TransactionManager.runWith_commit_of_idle rests.idle] at same unlocked
  exact ⟨⟨_, same⟩, rests.congr unlocked⟩

theorem rests_rollback (rests : database.manager.Rests place store world) :
    (∃ error, (world.run database.rollback.run).1 = .error error) ∧
      database.manager.Rests place store (world.run database.rollback.run).2 := by
  obtain ⟨same, unlocked⟩ := database.agreeOn_changeTransaction world database.manager.rollback
  rw [Program.run_eq_runWith world database.manager.rollback.run, Task.runWith_run,
    TransactionManager.runWith_rollback_of_idle rests.idle] at same unlocked
  exact ⟨⟨_, same⟩, rests.congr unlocked⟩

section

variable (proper : database.manager.IsProper)

include proper

/-- A statement is executed in the directory while no transaction is active. -/
theorem rests_serve (rests : database.manager.Rests place store world)
    (statement : operation.IsChange = false) :
    database.manager.Rests place (database.storeAfter operation store)
      (world.run (database.serve operation)).2 := by
  have idle : world.active.contains database.name = false := rests.idle
  have same := (database.agreeOn_serve world operation).2
  rw [idle] at same
  exact (rests.run proper (database.uses_serveBare statement false)).congr same

/-- A text is executed in the workspace while a transaction is active. -/
theorem works_execute (works : database.manager.Works place committed store world)
    (source : String) (useIndex : Bool) :
    database.manager.Works place committed
      (database.storeAfter (.execute source useIndex) store)
      (world.run (database.serve (.execute source useIndex))).2 := by
  have active : world.active.contains database.name = true := works.active
  have same := (database.agreeOn_serve world (.execute source useIndex)).2
  have uses := @uses_serveBare database (.execute source useIndex) rfl true
  rw [TransactionManager.targetIf, if_pos rfl, TransactionManager.workspace,
    Path.join_of_isPlain _ proper.plain] at uses
  rw [active] at same
  rw [← database.store_serveBare_execute source useIndex store]
  exact (works.run proper uses).congr same

/-- Listing the indexes changes nothing. -/
theorem works_listIndexes (works : database.manager.Works place committed store world) :
    database.manager.Works place committed store (world.run database.listIndexes).2 := by
  have active : world.active.contains database.name = true := works.active
  have same := (database.agreeOn_serve world .listIndexes).2
  have uses := @uses_serveBare database .listIndexes rfl true
  rw [TransactionManager.targetIf, if_pos rfl, TransactionManager.workspace,
    Path.join_of_isPlain _ proper.plain] at uses
  rw [active, serve, World.run_map] at same
  have ran := (works.run proper uses).congr same
  rwa [serveBare, Program.runWith_map, Collections.runWith_listIndexes] at ran

theorem rests_listIndexes (rests : database.manager.Rests place store world) :
    database.manager.Rests place store (world.run database.listIndexes).2 := by
  have ran := rests_serve proper rests (show Operation.listIndexes.IsChange = false from rfl)
  rwa [storeAfter, serveBare, Program.runWith_map, Collections.runWith_listIndexes, serve,
    World.run_map] at ran

/-- While no transaction is active, one is begun or the directory stays as it is. -/
theorem rests_begin (rests : database.manager.Rests place store world) :
    let ended := world.run database.begin.run
    (ended.1 = .ok () ∧ database.manager.Works place store.reliable
        (store.reliable.withNumber ended.2.nextNumber) ended.2) ∨
      (∃ error, ended.1 = .error error) ∧
        database.manager.Rests place (store.withNumber ended.2.nextNumber) ended.2 := by
  intro ended
  obtain ⟨same, unlocked⟩ := database.agreeOn_changeTransaction world database.manager.begin
  have number := World.nextNumber_congr unlocked
  rcases rests.begin proper with ⟨begun, works⟩ | ⟨⟨error, failed⟩, restsAfter⟩
  · rw [← number] at works
    exact .inl ⟨same.trans begun, works.congr unlocked⟩
  · rw [← number] at restsAfter
    exact .inr ⟨⟨error, same.trans failed⟩, restsAfter.congr unlocked⟩

/-- A commit publishes the store of the workspace. -/
theorem works_commit (works : database.manager.Works place committed store world) :
    (world.run database.commit.run).1 = .ok () ∧
      database.manager.Rests place store (world.run database.commit.run).2 := by
  obtain ⟨same, unlocked⟩ := database.agreeOn_changeTransaction world database.manager.commit
  obtain ⟨succeeds, rests⟩ := works.commit proper
  exact ⟨same.trans succeeds, rests.congr unlocked⟩

/-- A rollback forgets the store of the workspace. -/
theorem works_rollback (works : database.manager.Works place committed store world) :
    (world.run database.rollback.run).1 = .ok () ∧
      database.manager.Rests place (committed.withNumber store.nextNumber)
        (world.run database.rollback.run).2 := by
  obtain ⟨same, unlocked⟩ := database.agreeOn_changeTransaction world database.manager.rollback
  obtain ⟨succeeds, rests⟩ := works.rollback proper
  exact ⟨same.trans succeeds, rests.congr unlocked⟩

end

end Database
end GraphStore
