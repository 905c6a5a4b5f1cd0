import GraphStore.Proofs.Disk.Descents
import GraphStore.Proofs.Query.Saves

/-!
# Statements that fail

A statement loads the collections that it extends before it saves any of them.  A collection that
loads can be saved, unless its directory is missing and cannot be made, and indexes that cannot be
read are not extended.  So a statement that fails has not saved anything, and the disk is as it was.
-/

namespace GraphStore

/-! ## Tasks on a disk -/

namespace Task

variable {ε ε' α β : Type} {disk after : Tree}

/-- Whether a task succeeds on a disk, whatever else a world holds. -/
def SucceedsOn (disk : Tree) (task : Task ε α) : Prop :=
  ∀ world : World, world.disk = disk → ∃ value, (task.runWith World.perform world).1 = .ok value

/-- Whether a task that fails on a disk leaves it as it is, whatever else a world holds. -/
def IsAtomicOn (disk : Tree) (task : Task ε α) : Prop :=
  ∀ world : World, world.disk = disk → ∀ error,
    (task.runWith World.perform world).1 = .error error →
      (task.runWith World.perform world).2.disk = disk

theorem SucceedsOn.isAtomicOn {task : Task ε α} (succeeds : task.SucceedsOn disk) :
    task.IsAtomicOn disk := by
  intro world same error fails
  obtain ⟨value, ended⟩ := succeeds world same
  rw [ended] at fails
  cases fails

theorem disk_runWith_of_silent {program : Program α} (silent : program.Uses Action.IsSilent)
    (world : World) : (program.runWith World.perform world).2.disk = world.disk := by
  induction program generalizing world with
  | done value => rfl
  | act action next ih => exact (ih _ (silent.2 _) _).trans (silent.1.disk_perform world)

theorem isAtomicOn_of_silent {task : Task ε α} (silent : task.run.Uses Action.IsSilent) :
    task.IsAtomicOn disk :=
  fun world same _ _ => (disk_runWith_of_silent silent world).trans same

theorem succeedsOn_pure (value : α) : (pure value : Task ε α).SucceedsOn disk :=
  fun _ _ => ⟨value, rfl⟩

/-- What comes after a silent part runs on the same disk. -/
theorem isAtomicOn_bind {task : Task ε α} {next : α → Task ε β}
    (silent : task.run.Uses Action.IsSilent)
    (later : ∀ world : World, world.disk = disk → ∀ value,
      (task.runWith World.perform world).1 = .ok value → (next value).IsAtomicOn disk) :
    (task >>= next).IsAtomicOn disk := by
  intro world same error
  have kept : (task.runWith World.perform world).2.disk = disk :=
    (disk_runWith_of_silent silent world).trans same
  have goesOn := later world same
  cases ran : task.runWith World.perform world with
  | mk result between =>
      rw [ran] at kept goesOn
      cases result with
      | error reason => exact fun _ => runWith_bind_of_error ran next ▸ kept
      | ok value =>
          rw [runWith_bind_of_ok ran]
          exact goesOn value rfl between kept error

theorem succeedsOn_lift_bind {program : Program α} {next : α → Task ε β}
    (silent : program.Uses Action.IsSilent)
    (later : ∀ world : World, world.disk = disk →
      (next (program.runWith World.perform world).1).SucceedsOn disk) :
    (ExceptT.lift program >>= next : Task ε β).SucceedsOn disk := by
  intro world same
  rw [runWith_bind_of_ok (runWith_lift _ _ _)]
  exact later world same _ ((disk_runWith_of_silent silent world).trans same)

theorem succeedsOn_replace_bind {directory : Path} {name : String} {content : Content}
    {next : Unit → Task StorageError β}
    (replaced : disk.replace directory name content = (.done, after))
    (later : (next ()).SucceedsOn after) :
    (Document.replace directory name content >>= next).SucceedsOn disk := by
  intro world same
  have writes : (Document.replace directory name content).runWith World.perform world =
      (.ok (), { world with disk := after }) := by
    rw [Document.replace, runWith_bind_of_ok (runWith_perform _ _ _)]
    simp only [World.perform, World.onDisk, same, replaced, runWith_pure]
  rw [runWith_bind_of_ok writes]
  exact later _ rfl

/-- Replacing a file is atomic if it is done or changes nothing. -/
theorem isAtomicOn_replace {directory : Path} {name : String} {content : Content}
    (ends : (∃ after, disk.replace directory name content = (.done, after)) ∨
      ∃ reason, disk.replace directory name content = (reason, disk)) :
    (Document.replace directory name content).IsAtomicOn disk := by
  rcases ends with ⟨after, replaced⟩ | ⟨reason, kept⟩
  · rw [← bind_pure (Document.replace directory name content)]
    exact (succeedsOn_replace_bind replaced (succeedsOn_pure ())).isAtomicOn
  · intro world same error fails
    rw [Document.replace, runWith_bind_of_ok (runWith_perform _ _ _)]
    simp only [World.perform, World.onDisk, same, kept]
    cases reason <;> rfl

theorem isAtomicOn_mapError {task : Task ε α} (wrap : ε → ε') (atomic : task.IsAtomicOn disk) :
    (task.mapError wrap).IsAtomicOn disk := by
  intro world same error fails
  rw [runWith_mapError] at fails ⊢
  cases ended : (task.runWith World.perform world).1 with
  | ok value =>
      rw [ended] at fails
      cases fails
  | error reason => exact atomic world same reason ended

theorem IsAtomicOn.bind_pure {task : Task ε α} (atomic : task.IsAtomicOn disk) (change : α → β) :
    (task >>= fun value => pure (change value)).IsAtomicOn disk := by
  intro world same error fails
  have spared := atomic world same
  cases ran : task.runWith World.perform world with
  | mk result between =>
      rw [ran] at spared
      cases result with
      | error reason => exact runWith_bind_of_error ran _ ▸ spared reason rfl
      | ok value =>
          rw [runWith_bind_of_ok ran] at fails
          cases fails

theorem SucceedsOn.bind_pure {task : Task ε α} (succeeds : task.SucceedsOn disk) (change : α → β) :
    (task >>= fun value => pure (change value)).SucceedsOn disk := by
  intro world same
  obtain ⟨value, ended⟩ := succeeds world same
  cases ran : task.runWith World.perform world with
  | mk result between =>
      rw [ran] at ended
      cases ended
      exact ⟨change value, by rw [runWith_bind_of_ok ran, runWith_pure]⟩

end Task

theorem Query.Executor.isAtomicOn_holding {ε α : Type} {disk : Tree} {registry : String}
    {resources : List String} {task : Task ε α} (atomic : task.IsAtomicOn disk) :
    (holding registry resources task).IsAtomicOn disk := by
  have acquires : ((LockRegistry.collectionOrder resources).forM fun resource =>
      Program.perform (.acquire registry resource)).Uses Action.IsSilent :=
    Program.uses_forM fun _ => Program.uses_perform trivial
  have releases : ((LockRegistry.collectionOrder resources).forM fun resource =>
      Program.perform (.release registry resource)).Uses Action.IsSilent :=
    Program.uses_forM fun _ => Program.uses_perform trivial
  refine Task.isAtomicOn_bind (Program.uses_lift acquires) fun _ _ _ _ world same error fails => ?_
  rw [Task.runWith_ensuring] at fails ⊢
  exact (Task.disk_runWith_of_silent releases _).trans (atomic world same error fails)

/-! ## Loading -/

namespace Document

/-- What can be loaded is no obstruction. -/
theorem ne_obstructed_of_itemsOfContent {α : Type} {decode : Json → Option α} {path : Path}
    {content : Except Fault Content} {values : List α}
    (loaded : itemsOfContent decode path content = .ok values) :
    content ≠ .error .obstructed := by
  rintro rfl
  cases loaded

end Document

theorem IndexCatalog.lacksSome_empty (nodes : List Node) : empty.lacksSome nodes = false := by
  induction nodes with
  | nil => rfl
  | cons node rest ih => exact ih

/-- Indexes that lack something have been read. -/
theorem Store.ne_obstructed_of_lacksSome {store : Store} {directory : Path} {nodes : List Node}
    (lacks : (store.catalog directory).lacksSome nodes) :
    store.read Collections.indexesFile ≠ .error .obstructed := by
  intro obstructed
  have unread : store.catalog directory = .empty := by
    simp [catalog, indexDocument, obstructed, Document.ofContent]
  rw [unread, IndexCatalog.lacksSome_empty] at lacks
  cases lacks

/-- What a program that loads files of a directory answers is what it answers on the store there. -/
theorem Program.Loads.run_storeAt {α : Type} {directory : Path} {files : List String}
    {program : Program α} (loads : program.Loads directory files) (world : World) :
    (world.run program).1 =
      (program.runWith Store.perform (world.storeAt directory)).1 :=
  loads.run fun _ _ => rfl

namespace World

variable {world : World} {directory : Path}

theorem runWith_loadNodes (world : World) (directory : Path) :
    ((Collections.loadNodes directory).runWith World.perform world).1 =
      (world.storeAt directory).nodes directory := by
  have loads := (@Collections.loads_loadNodes directory).run_storeAt world
  rw [Program.run_eq_runWith] at loads
  exact loads.trans (congrArg Prod.fst (Collections.runWith_loadNodes _ _))

theorem nodes_eq_storeAt (world : World) (directory : Path) :
    world.nodes directory = (world.storeAt directory).nodes directory := by
  rw [nodes, Program.run_eq_runWith]
  exact runWith_loadNodes world directory

theorem runWith_loadRelationships (world : World) (directory : Path) :
    ((Collections.loadRelationships directory).runWith World.perform world).1 =
      (world.storeAt directory).relationships directory := by
  have loads := (@Collections.loads_loadRelationships directory).run_storeAt world
  rw [Program.run_eq_runWith] at loads
  exact loads.trans (congrArg Prod.fst (Collections.runWith_loadRelationships _ _))

theorem runWith_loadIndexes (world : World) (directory : Path) :
    ((Collections.loadIndexes directory).runWith World.perform world).1 =
      (world.storeAt directory).catalog directory := by
  have loads := (@Collections.loads_loadIndexes directory).run_storeAt world
  rw [Program.run_eq_runWith] at loads
  exact loads.trans (congrArg Prod.fst (Collections.runWith_loadIndexes _ _))

end World

/-! ## Statements -/

namespace Query
namespace Executor

variable {executor : Executor} {disk : Tree}

/-- Whether the directory of an executor is one in which the collections can be saved, as far as its
path is concerned. -/
structure IsPlacedIn (executor : Executor) (disk : Tree) : Prop where
  fits : executor.directory.Fits Workspace.fileRoom
  receives : disk.Receives executor.directory

/-- A collection that can be read or is missing is saved.  The directory stands then, and what could
be read can be read. -/
theorem IsPlacedIn.save (placed : executor.IsPlacedIn disk) {file : String}
    (member : file ∈ Workspace.names)
    (readable : disk.readAt (executor.directory.child file) ≠ .error .obstructed)
    (content : Content) :
    ∃ after, disk.replace executor.directory file content = (.done, after) ∧
      executor.IsPlacedIn after ∧ ∀ other ∈ Workspace.names,
        disk.readAt (executor.directory.child other) ≠ .error .obstructed →
          after.readAt (executor.directory.child other) ≠ .error .obstructed := by
  obtain ⟨after, replaced, stands, reads⟩ :=
    placed.receives.replace placed.fits member readable content
  exact ⟨after, replaced, ⟨placed.fits, .inl stands⟩, reads⟩

/-- Indexes that are extended have been read. -/
theorem succeedsOn_maintain (placed : executor.IsPlacedIn disk) (created : List Node) :
    (executor.maintain created).SucceedsOn disk := by
  unfold maintain Collections.indexNodes
  split
  · split
    · exact Task.succeedsOn_pure ()
    · refine Task.succeedsOn_lift_bind Collections.loads_loadIndexes.uses fun world same => ?_
      rw [World.runWith_loadIndexes]
      split
      · next lacks =>
          have readable := Store.ne_obstructed_of_lacksSome lacks
          obtain ⟨after, replaced, -⟩ := placed.save (by decide)
            (show disk.readAt (executor.directory.child Collections.indexesFile) ≠ _ from
              same ▸ readable)
            (.text (((world.storeAt executor.directory).catalog executor.directory).addNodes
              created |>.toJson.write executor.style))
          rw [Collections.saveIndexes, Document.write, ← bind_pure (Document.replace _ _ _)]
          exact Task.succeedsOn_replace_bind replaced (Task.succeedsOn_pure ())
      · exact Task.succeedsOn_pure ()
  · exact Task.succeedsOn_pure ()

/-- New nodes are saved where the nodes were loaded. -/
theorem isAtomicOn_createNodes (placed : executor.IsPlacedIn disk) (patterns : List NewNode) :
    (executor.createNodes patterns).IsAtomicOn disk := by
  refine isAtomicOn_holding ?_
  refine Task.isAtomicOn_bind Collections.loads_loadNodes.uses fun world same nodes loaded => ?_
  rw [World.runWith_loadNodes] at loaded
  have readable := Document.ne_obstructed_of_itemsOfContent loaded
  simp only [World.storeAt, same] at readable
  refine Task.isAtomicOn_bind (Program.uses_lift (uses_findOrCreateAll trivial _ _))
    fun _ _ growth _ => Task.SucceedsOn.isAtomicOn ?_
  split
  · obtain ⟨after, replaced, placedAfter, -⟩ := placed.save (by decide) readable
      (.text ((Json.array (growth.nodes.map Node.toJson)).write executor.style))
    exact Task.succeedsOn_replace_bind replaced
      ((succeedsOn_maintain placedAfter growth.created).bind_pure _)
  · exact Task.succeedsOn_pure _

/-- A new relationship is saved where the nodes and the relationships were loaded. -/
theorem isAtomicOn_createRelationship (placed : executor.IsPlacedIn disk) (start : NewNode)
    (type : String) (properties : Properties) (target : NewNode) :
    (executor.createRelationship start type properties target).IsAtomicOn disk := by
  refine isAtomicOn_holding ?_
  refine Task.isAtomicOn_bind Collections.loads_loadNodes.uses fun world same nodes loaded => ?_
  rw [World.runWith_loadNodes] at loaded
  have readableNodes := Document.ne_obstructed_of_itemsOfContent loaded
  simp only [World.storeAt, same] at readableNodes
  refine Task.isAtomicOn_bind Collections.loads_loadRelationships.uses
    fun world same relationships loaded => ?_
  rw [World.runWith_loadRelationships] at loaded
  have readable := Document.ne_obstructed_of_itemsOfContent loaded
  simp only [World.storeAt, same] at readable
  refine Task.isAtomicOn_bind (Program.uses_lift (uses_findOrCreate trivial _ _))
    fun _ _ first _ => ?_
  refine Task.isAtomicOn_bind (Program.uses_lift (uses_findOrCreate trivial _ _))
    fun _ _ second _ => ?_
  refine Task.isAtomicOn_bind (Program.uses_lift (Program.uses_perform trivial))
    fun _ _ number _ => Task.SucceedsOn.isAtomicOn ?_
  -- The relationships can still be read after the nodes were saved, if they were.
  have saves : ∀ {disk : Tree}, executor.IsPlacedIn disk →
      disk.readAt (executor.directory.child Collections.relationshipsFile) ≠ .error .obstructed →
      ∀ (all : List Relationship) (answer : Answer), (do
        Collections.saveRelationships executor.directory executor.style all
        executor.maintain second.2.created
        pure answer : Task StorageError Answer).SucceedsOn disk := by
    intro disk placed readable all answer
    obtain ⟨after, replaced, placedAfter, -⟩ := placed.save (by decide) readable
      (.text ((Json.array (all.map Relationship.toJson)).write executor.style))
    exact Task.succeedsOn_replace_bind replaced
      ((succeedsOn_maintain placedAfter second.2.created).bind_pure _)
  split
  · obtain ⟨after, replaced, placedAfter, reads⟩ := placed.save (by decide) readableNodes
      (.text ((Json.array (second.2.nodes.map Node.toJson)).write executor.style))
    exact Task.succeedsOn_replace_bind replaced
      (saves placedAfter (reads _ (by decide) readable) _ _)
  · exact saves placed readable _ _

/-- An index is saved in a directory in which the nodes were loaded, or is not. -/
theorem isAtomicOn_createIndex (placed : executor.IsPlacedIn disk) (label property : String) :
    (executor.createIndex label property).IsAtomicOn disk := by
  refine isAtomicOn_holding ?_
  refine Task.isAtomicOn_bind Collections.loads_loadNodes.uses fun world same nodes loaded => ?_
  rw [World.runWith_loadNodes] at loaded
  have readable := Document.ne_obstructed_of_itemsOfContent loaded
  simp only [World.storeAt, same] at readable
  refine Task.isAtomicOn_bind (Program.uses_lift Collections.loads_loadIndexes.uses)
    fun _ _ catalog _ => ?_
  refine Task.IsAtomicOn.bind_pure ?_ _
  exact Task.isAtomicOn_replace (placed.receives.replace_cases placed.fits (by decide) readable
    (by decide) _)

/-- A statement that fails leaves the disk as it is. -/
theorem isAtomicOn_executeStatement (placed : executor.IsPlacedIn disk) (statement : Statement)
    (useIndex : Bool) : (executor.executeStatement statement useIndex).IsAtomicOn disk := by
  cases statement with
  | createNodes patterns =>
      exact Task.isAtomicOn_mapError _ (isAtomicOn_createNodes placed patterns)
  | createRelationship start type properties target =>
      exact Task.isAtomicOn_mapError _
        (isAtomicOn_createRelationship placed start type properties target)
  | createIndex label property =>
      exact (Task.isAtomicOn_mapError _ (isAtomicOn_createIndex placed label property)).bind_pure _
  | matching query =>
      exact Task.isAtomicOn_of_silent (executor.loads_executeMatch query useIndex).uses

/-- A text that is executed leaves the disk as it is if it is a match, in any directory; and if it
fails, in a directory that stands or whose path does not go up, provided that the paths and names are
not too long. -/
theorem execute_keeps_disk (executor : Executor) (source : String) (useIndex : Bool)
    (world : World) :
    let ended := world.run (executor.execute source useIndex).run
    ((∃ query, parse source = .ok (.matching query)) → ended.2.disk = world.disk) ∧
      (executor.IsPlacedIn world.disk →
        (∃ error, ended.1 = .error error) → ended.2.disk = world.disk) := by
  simp only [Program.run_eq_runWith, Task.runWith_run]
  constructor
  · rintro ⟨query, parsed⟩
    rw [execute, parsed]
    exact Task.disk_runWith_of_silent (executor.loads_executeMatch query useIndex).uses world
  · rintro placed ⟨error, fails⟩
    rw [execute] at fails ⊢
    cases parsed : parse source with
    | error reason => rfl
    | ok statement =>
        rw [parsed] at fails
        exact isAtomicOn_executeStatement placed statement useIndex world rfl error fails

/-- The relationships cannot be read, which a creation finds out when it has found its nodes missing,
and a match when it has scanned the nodes. -/
theorem execute_keeps_disk_of_obstructed :
    let world : World := { disk := .directory [("db", .directory
      [("relationships.json", .emptyDirectory)])] }
    let executor : Executor := ⟨Path.ofText "db/.", "locks", .compact, true⟩
    let creation := world.run (executor.execute "CREATE (a:A)-[:T]->(b:B)" false).run
    let scan := world.run (executor.execute "MATCH (n) RETURN n" false).run
    (∃ error, creation.1 = .error error) ∧ creation.2.disk = world.disk ∧
      (∃ error, scan.1 = .error error) ∧ scan.2.disk = world.disk := by
  intro world executor creation scan
  have placed : executor.IsPlacedIn world.disk :=
    ⟨⟨by decide +kernel, by decide +kernel⟩, .inl ⟨["db"], by decide +kernel, _, rfl⟩⟩
  have creationFails : ∃ error, creation.1 = .error error :=
    ⟨.storage (.io "db/./relationships.json"), by decide +kernel⟩
  have scanFails : ∃ error, scan.1 = .error error :=
    ⟨.storage (.io "db/./relationships.json"), by decide +kernel⟩
  have isMatch : ∃ query, parse "MATCH (n) RETURN n" = .ok (.matching query) :=
    ⟨⟨⟨⟨some "n", none, .empty⟩, none⟩, none, ["n"]⟩, by decide +kernel⟩
  exact ⟨creationFails, (execute_keeps_disk _ _ _ _).2 placed creationFails,
    scanFails, (execute_keeps_disk _ _ _ _).1 isMatch⟩

/-- Where a path goes up from a directory that is missing and on to a file, nothing is loaded and
nothing can be saved; but the missing directory is made. -/
theorem execute_fails_with_trace :
    let world : World := { disk := .directory [("f", .file (.text "x"))] }
    let executor : Executor := ⟨Path.ofText "m/../f", "locks", .indented, true⟩
    let ended := world.run (executor.execute "CREATE (a:A)" false).run
    (∃ error, ended.1 = .error error) ∧ ended.2.disk ≠ world.disk := by
  intro world executor ended
  have before : world.disk.kind? ["m"] = none := rfl
  have after : ended.2.disk.kind? ["m"] = some .directory := by decide +kernel
  refine ⟨⟨.storage (.io "m/../f"), by decide +kernel⟩, fun same => ?_⟩
  rw [same, before] at after
  cases after

end Executor
end Query
end GraphStore
