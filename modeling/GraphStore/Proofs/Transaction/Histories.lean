import GraphStore.Proofs.Store.Creations
import GraphStore.Proofs.Transaction.Definitions
import GraphStore.Proofs.Transaction.Refinement

/-!
# Histories of handles

A history starts from a new database and goes on with whatever one handle after the other does with
it, as long as the handles maintain indexes.  Everything that a history reaches has the indexes that
were created, each as it would be built from the stored nodes.
-/

namespace GraphStore
namespace Database

/-! ## Histories -/

/-- Whether a path leads to a new database: an empty directory, or one that was created and holds
nothing else than what it was created with. -/
inductive IsNew (path : Path) (world : World) : Prop where
  | empty (lists : world.disk.listAt path = .ok [])
  | created {catalog : DatabaseCatalog} {name digest : String} {before : World}
      {names : List String}
      (ran : before.run (catalog.create name digest).run = (.ok path, world))
      (lists : world.disk.listAt path = .ok names)
      (only : names ⊆ (DatabaseCatalog.initialFiles digest).map Prod.fst)

/-- The worlds that one handle after the other may bring about from a new database, with the handle
that is open and the indexes that were created. -/
inductive History (path : Path) : World → Option Database → Definitions → Prop where
  /-- The database is new. -/
  | start {world : World} (new : IsNew path world) (process : world.process < 2 ^ 32) :
      History path world none {}
  /-- While no handle is open, nothing happens on the disk. -/
  | idle {world other : World} {definitions : Definitions}
      (history : History path world none definitions) (disk : other.disk = world.disk)
      (process : other.process < 2 ^ 32) : History path other none definitions
  /-- A handle that maintains indexes is opened under a fresh id.  The name of its workspace is not
  that of a collection, and all paths below the directory are short enough. -/
  | opened {world after : World} {definitions : Definitions} {settings : Settings}
      {database : Database} (history : History path world none definitions)
      (maintains : settings.maintainIndexes)
      (apart : settings.workspaceName ∉ Collections.files)
      (room : path.Fits database.manager.pathRoom)
      (fresh : Identifier.ofNumber world.nextNumber ∉ world.active)
      (ran : world.run (Database.open path settings).run = (.ok database, after)) :
      History path after (some database) definitions
  /-- A handle cannot be opened. -/
  | refused {world after : World} {definitions : Definitions} {settings : Settings}
      {error : DatabaseError} (history : History path world none definitions)
      (ran : world.run (Database.open path settings).run = (.error error, after)) :
      History path after none definitions
  /-- The handle serves an operation.  The doubles of its answer are read back from their written
  form. -/
  | served {world after : World} {definitions : Definitions} {database : Database}
      {operation : Operation} {reply : Reply}
      (history : History path world (some database) definitions)
      (ran : world.run (database.serve operation) = (reply, after))
      (readsBack : ∀ answer, reply = .executed (.ok answer) → Json.ReadsBack answer.doubles) :
      History path after (some database) (definitions.after operation reply)
  /-- The handle is given up. -/
  | closed {world after : World} {definitions : Definitions} {database : Database}
      (history : History path world (some database) definitions)
      (ran : world.run database.close = ((), after)) :
      History path after none { definitions with working := none }

/-! ## Invariants -/

/-- Whether the directory at a place holds a database while no handle is open. -/
structure Rests (path : Path) (place : List String) (definitions : Definitions) (world : World) :
    Prop where
  leads : world.disk.LeadsTo path place
  noDirectory : ∀ name, world.disk.kind? (place ++ [name]) ≠ some .directory
  others : ∀ name, name ∉ Collections.files → name ≠ DatabaseCatalog.digestFile →
    world.disk.kind? (place ++ [name]) = none
  indexed : Snapshot.IsIndexed (fun name => world.disk.read (place ++ [name]))
    definitions.committed
  working : definitions.working = none
  process : world.process < 2 ^ 32

/-- Whether a world shows versions with the defined indexes to an open handle. -/
structure Runs (path : Path) (place : List String) (base : Tree) (database : Database)
    (definitions : Definitions) (versions : Versions) (world : World) : Prop where
  ground : database.manager.Ground base place
  same : database.manager.database = path
  maintains : database.settings.maintainIndexes
  noDirectory : ∀ name, base.kind? (place ++ [name]) ≠ some .directory
  others : ∀ name, name ∉ Collections.files → name ≠ DatabaseCatalog.digestFile →
    base.kind? (place ++ [name]) = none
  layout : database.manager.Layout base place versions world
  describe : definitions.Describe versions
  process : world.process < 2 ^ 32

variable {path : Path} {place : List String} {world after : World} {definitions : Definitions}
  {database : Database} {settings : Settings} {base : Tree} {versions : Versions}

/-! ## New databases -/

/-- An empty directory holds no indexes. -/
theorem isIndexed_of_missing {snapshot : Snapshot}
    (missing : ∀ name ∈ Collections.files, snapshot name = .error .missing) :
    snapshot.IsIndexed [] := by
  have nodes := missing Collections.nodesFile (by decide)
  have indexes := missing Collections.indexesFile (by decide)
  refine @Snapshot.isIndexed_of_empty snapshot (.ofText "") ?_ fun document read => ?_
  · rw [nodes]
    rfl
  · rw [indexes] at read
    cases read

/-- The initial files hold no indexes. -/
theorem isIndexed_of_initial {snapshot : Snapshot} {digest : String}
    (initial : ∀ file ∈ DatabaseCatalog.initialFiles digest,
      snapshot file.1 = .ok (.text file.2)) : snapshot.IsIndexed [] := by
  have nodes := initial (Collections.nodesFile, "[]") (by simp [DatabaseCatalog.initialFiles])
  have indexes := initial (Collections.indexesFile, "{}")
    (by simp [DatabaseCatalog.initialFiles])
  refine @Snapshot.isIndexed_of_empty snapshot (.ofText "") ?_ fun document read => ?_
  · rw [nodes]
    decide +kernel
  · rw [indexes, DatabaseCatalog.ofContent_initial_indexes] at read
    cases read
    rfl

/-- A database that was created below an existing root is new. -/
theorem IsNew.of_create {catalog : DatabaseCatalog} {name digest : String} {before : World}
    (root : before.disk.LeadsTo catalog.root place)
    (ran : before.run (catalog.create name digest).run = (.ok path, world)) :
    IsNew path world := by
  obtain ⟨names, lists, only⟩ := DatabaseCatalog.listAt_of_run_create root ran
  exact .created ran lists only

theorem IsNew.rests (new : IsNew path world) (process : world.process < 2 ^ 32) :
    ∃ place, Rests path place {} world := by
  cases new with
  | empty lists =>
      obtain ⟨place, leads, listed⟩ := Tree.LeadsTo.of_listAt lists
      have free : ∀ name, world.disk.kind? (place ++ [name]) = none :=
        fun name => leads.2.kind?_of_not_mem listed List.not_mem_nil
      refine ⟨place, leads, fun name => ?_, fun name _ _ => free name,
        isIndexed_of_missing fun name member => ?_, rfl, process⟩
      · rw [free name]
        rintro ⟨⟩
      · have missing := leads.2.find_of_kind?_none
          (Tree.fits_of_mem_names (List.mem_cons_of_mem _ member)) (free name)
        rw [Tree.read, missing]
  | @created catalog _ digest before names ran lists only =>
      obtain ⟨place, leads, written⟩ := DatabaseCatalog.read_of_run_create ran
      obtain ⟨other, leadsThere, listed⟩ := Tree.LeadsTo.of_listAt lists
      cases leads.unique leadsThere
      have free : ∀ name, name ∉ (DatabaseCatalog.initialFiles digest).map Prod.fst →
          world.disk.kind? (place ++ [name]) = none :=
        fun name absent => leads.2.kind?_of_not_mem listed fun member => absent (only member)
      refine ⟨place, leads, fun name stands => ?_, fun name notFile notDigest => free name ?_,
        isIndexed_of_initial written, rfl, process⟩
      · by_cases initial : name ∈ (DatabaseCatalog.initialFiles digest).map Prod.fst
        · obtain ⟨file, member, rfl⟩ := List.mem_map.1 initial
          obtain ⟨entries, found⟩ := Tree.kind?_eq_some_directory.1 stands
          have read := written file member
          rw [Tree.read, found] at read
          cases read
        · rw [free name initial] at stands
          cases stands
      · intro initial
        simp only [DatabaseCatalog.initialFiles, List.map_cons, List.map_nil, List.mem_cons,
          List.not_mem_nil, or_false] at initial
        rcases initial with rfl | rfl | rfl | rfl
        · exact notFile (by decide)
        · exact notFile (by decide)
        · exact notFile (by decide)
        · exact notDigest rfl

/-! ## Opening -/

theorem Rests.kindAt?_workspace_ne (rests : Rests path place definitions world)
    (valid : settings.isValid) :
    world.disk.kindAt? (path.join settings.workspaceName) ≠ some .directory := by
  have plain := Settings.isPlain_of_isPlainName valid
  rw [Path.join_of_isPlain path plain]
  cases usable : (path.child settings.workspaceName).isUsable with
  | true =>
      rw [rests.leads.kindAt?_child plain.1 usable]
      exact rests.noDirectory settings.workspaceName
  | false =>
      rw [Tree.kindAt?, Tree.findAt, rests.leads.locate_child plain.1, usable]
      rintro ⟨⟩

theorem Rests.refused (rests : Rests path place definitions world)
    {result : Except DatabaseError Database}
    (ran : world.run (Database.open path settings).run = (result, after)) :
    Rests path place definitions after := by
  have disk := disk_runWith_open rests.leads (@Rests.kindAt?_workspace_ne _ _ _ _ settings rests)
  have process := World.process_run (Database.open path settings).run world
  rw [← Task.runWith_run, ← Program.run_eq_runWith] at disk
  rw [ran] at disk process
  simp only at disk process
  obtain ⟨leads, noDirectory, others, indexed, working, small⟩ := rests
  rw [← disk] at leads noDirectory others indexed
  rw [← process] at small
  exact ⟨leads, noDirectory, others, indexed, working, small⟩

theorem Rests.isReady (rests : Rests path place definitions world)
    (apart : settings.workspaceName ∉ Collections.files)
    (room : path.Fits (next path settings world).manager.pathRoom)
    (fresh : Identifier.ofNumber world.nextNumber ∉ world.active)
    (free : world.disk.kindAt? (path.join settings.workspaceName) = none)
    (plain : Path.IsPlain settings.workspaceName) :
    (next path settings world).IsReady place
      { world with nextNumber := world.nextNumber + 1 } := by
  have freePlace : world.disk.kind? (place ++ [settings.workspaceName]) = none := by
    by_cases digest : settings.workspaceName = DatabaseCatalog.digestFile
    · rw [Path.join_of_isPlain path plain] at free
      rw [digest] at free ⊢
      have usable : (path.child DatabaseCatalog.digestFile).isUsable := by
        have short : DatabaseCatalog.digestFile.utf8ByteSize + 1 + 0 ≤ Workspace.fileRoom := by
          decide
        refine Path.Fits.isUsable (Path.Fits.child (room.mono (Nat.le_trans short ?_)) (by decide) :
          (path.child DatabaseCatalog.digestFile).Fits 0)
        exact Nat.le_add_left _ _
      rwa [rests.leads.kindAt?_child (by decide) usable] at free
    · exact rests.others settings.workspaceName apart digest
  exact ⟨rests.leads, fun name _ => rests.noDirectory name, apart, freePlace,
    fun number => rests.others _ (TransactionManager.hiddenName_not_mem_files number)
      (TransactionManager.hiddenName_ne (by decide)), room, fresh, rests.process⟩

theorem Rests.opened (rests : Rests path place definitions world)
    (maintains : settings.maintainIndexes) (apart : settings.workspaceName ∉ Collections.files)
    (room : path.Fits database.manager.pathRoom)
    (fresh : Identifier.ofNumber world.nextNumber ∉ world.active)
    (ran : world.run (Database.open path settings).run = (.ok database, after)) :
    Runs path place after.disk database definitions (database.initialVersions after) after := by
  obtain ⟨valid, rfl⟩ := open_eq_ok ran
  have plain := Settings.isPlain_of_isPlainName valid
  have usable : path.isUsable := (room.mono (Nat.zero_le _)).isUsable
  rw [Program.run_eq_runWith, Task.runWith_run] at ran
  have free := free_of_runWith_open rests.leads usable fresh (rests.kindAt?_workspace_ne valid) ran
  rw [runWith_open_of_free valid usable rests.leads free fresh] at ran
  cases ran
  have ready := rests.isReady apart room fresh free plain
  have ground := ready.ground rfl rfl valid
  have layout := ready.layout ground rfl rfl
  refine ⟨ground, rfl, maintains, rests.noDirectory, rests.others, layout, ⟨?_, ?_⟩, rests.process⟩
  · exact rests.indexed.congr fun name member => (layout.committed name member).symm
  · rw [rests.working]
    exact .none

/-! ## Serving and closing -/

theorem Runs.served (runs : Runs path place base database definitions versions world)
    {operation : Operation} {reply : Reply}
    (ran : world.run (database.serve operation) = (reply, after))
    (readsBack : ∀ answer, reply = .executed (.ok answer) → Json.ReadsBack answer.doubles) :
    Runs path place base database (definitions.after operation reply)
      (versions.serve database operation).2 after := by
  obtain ⟨same, layout⟩ := runs.ground.serve versions operation world runs.layout
  have process := World.process_run (database.serve operation) world
  rw [← Program.run_eq_runWith] at same layout
  rw [ran] at same layout process
  simp only at same layout process
  subst same
  refine ⟨runs.ground, runs.same, runs.maintains, runs.noDirectory, runs.others, layout,
    runs.describe.serve runs.maintains operation readsBack, ?_⟩
  rw [process]
  exact runs.process

/-- A handle that is given up leaves what is committed. -/
theorem Runs.closed (runs : Runs path place base database definitions versions world)
    (ran : world.run database.close = ((), after)) :
    Rests path place { definitions with working := none } after := by
  have process := World.process_run database.close world
  have layout := (runs.layout.rollback runs.ground).2
  have closed : (database.manager.rollback.runWith World.perform world).2 = after := by
    rw [Program.run_eq_runWith, close, Program.runWith_bind, Task.runWith_run] at ran
    exact congrArg Prod.snd ran
  rw [ran] at process
  rw [closed] at layout
  simp only at process
  have idle : versions.rollback.2.working = none := by
    unfold Versions.rollback
    cases works : versions.working with
    | none => exact works
    | some working => rfl
  have committed : versions.rollback.2.committed = versions.committed := by
    unfold Versions.rollback
    cases versions.working <;> rfl
  have free := layout.workspace.idle idle
  have leads := layout.leads runs.ground
  refine ⟨runs.same ▸ leads, fun name stands => ?_, fun name notFile notDigest => ?_, ?_, rfl, ?_⟩
  · by_cases file : name ∈ Collections.files
    · obtain ⟨entries, found⟩ := Tree.kind?_eq_some_directory.1 stands
      have read := layout.committed name file
      rw [Tree.read, found] at read
      exact layout.regular name file read.symm
    · by_cases workspace : name = database.manager.workspaceName
      · rw [workspace, free] at stands
        cases stands
      · rw [layout.others name file workspace] at stands
        exact runs.noDirectory name stands
  · by_cases workspace : name = database.manager.workspaceName
    · rw [workspace]
      exact free
    · rw [layout.others name notFile workspace]
      exact runs.others name notFile notDigest
  · refine runs.describe.committed.congr fun name member => ?_
    rw [layout.committed name member, committed]
  · rw [process]
    exact runs.process

/-! ## Reached worlds -/

/-- What holds of a world that a history reaches, with or without an open handle. -/
def Reaches (path : Path) (world : World) (definitions : Definitions) : Option Database → Prop
  | none => ∃ place, Rests path place definitions world
  | some database => ∃ place base versions, Runs path place base database definitions versions world

theorem History.reaches {database : Option Database}
    (history : History path world database definitions) : Reaches path world definitions database := by
  induction history with
  | start new process => exact new.rests process
  | idle history disk process ih =>
      obtain ⟨place, rests⟩ := ih
      refine ⟨place, ?_, ?_, ?_, ?_, rests.working, process⟩
      · rw [disk]
        exact rests.leads
      · rw [disk]
        exact rests.noDirectory
      · rw [disk]
        exact rests.others
      · rw [disk]
        exact rests.indexed
  | opened history maintains apart room fresh ran ih =>
      obtain ⟨place, rests⟩ := ih
      exact ⟨place, _, _, rests.opened maintains apart room fresh ran⟩
  | refused history ran ih =>
      obtain ⟨place, rests⟩ := ih
      exact ⟨place, rests.refused ran⟩
  | served history ran readsBack ih =>
      obtain ⟨place, base, versions, runs⟩ := ih
      exact ⟨place, base, _, runs.served ran readsBack⟩
  | closed history ran ih =>
      obtain ⟨place, base, versions, runs⟩ := ih
      exact ⟨place, runs.closed ran⟩

end Database
end GraphStore
