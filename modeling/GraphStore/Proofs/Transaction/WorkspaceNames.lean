import GraphStore.Proofs.Command.Shells
import GraphStore.Proofs.Store.Databases

/-!
# Names of workspaces

A workspace has its place among the files of its database.  So every allowed name serves but those of
these files, and those for which the hidden name is too long.  A database that was created and filled
by statements holds nothing else, so nothing is in the way of any other name.
-/

namespace GraphStore

/-! ## Directories with a database -/

/-- The names of the files of a database. -/
def DatabaseCatalog.fileNames : List String :=
  Collections.files ++ [digestFile]

/-- Whether a path leads to a directory that holds the files of a database and nothing else. -/
structure Tree.IsDatabase (tree : Tree) (directory : Path) (place : List String) : Prop where
  leads : tree.LeadsTo directory place
  ordered : tree.IsOrdered
  files : ∀ name ∈ DatabaseCatalog.fileNames, tree.kind? (place ++ [name]) = some .file
  only : ∀ name ∉ DatabaseCatalog.fileNames, tree.kind? (place ++ [name]) = none

theorem Tree.kind?_of_read {tree : Tree} {place : List String} {content : Content}
    (read : tree.read place = .ok content) : tree.kind? place = some .file := by
  rw [Tree.read] at read
  split at read
  · next stored found => rw [kind?, found]; rfl
  · cases read
  · cases read

namespace Tree.IsDatabase

variable {tree : Tree} {directory : Path} {place : List String}

/-- A collection is replaced, or nothing is changed. -/
theorem replace (isDatabase : tree.IsDatabase directory place) {file : String}
    (member : file ∈ Collections.files) (content : Content) :
    (tree.replace directory file content).2.IsDatabase directory place := by
  obtain ⟨leads, ordered, files, only⟩ := isDatabase
  rcases leads.replace_cases (Collections.ne_empty_of_mem_files member) content with
    ⟨possible, -, replaced⟩ | ⟨-, -, unchanged⟩
  · obtain ⟨leadsAfter, finds⟩ := leads.replaced content possible
    rw [replaced]
    refine ⟨leadsAfter, ordered.update _ (isOrdered_file content), fun name known => ?_,
      fun name unknown => ?_⟩
    · by_cases same : name = file
      · rw [kind?, finds, if_pos same]
        rfl
      · rw [kind?, finds, if_neg same]
        exact files name known
    · have differs : name ≠ file := fun same =>
        unknown (List.mem_append_left _ (same ▸ member))
      rw [kind?, finds, if_neg differs]
      exact only name unknown
  · rw [unchanged]
    exact ⟨leads, ordered, files, only⟩

end Tree.IsDatabase

namespace DatabaseCatalog

theorem map_fst_initialFiles (digest : String) :
    (initialFiles digest).map Prod.fst = fileNames := rfl

/-- A database that was created below a root that stood or did not go up is in a directory of its
own. -/
theorem isDatabase_of_run_create {catalog : DatabaseCatalog} {name digest : String} {path : Path}
    {before after : World} (ordered : before.disk.IsOrdered)
    (receives : before.disk.Receives catalog.root)
    (ran : before.run (catalog.create name digest).run = (.ok path, after)) :
    ∃ place, after.disk.IsDatabase path place := by
  obtain ⟨allowed, rfl, free, disk, made, wrote⟩ := run_create_eq_ok ran
  have plain := isPlain_of_isName allowed
  rw [pathFor, Path.join_of_isPlain catalog.root plain] at free made wrote ⊢
  obtain ⟨place, leads, empty⟩ := receives.of_makeDirectoriesAt_child plain.1 free made
  obtain ⟨leadsAfter, written, kept, -⟩ := runWith_writeFiles_eq_ok
    (ne_empty_of_mem_initialFiles digest) (nodup_initialFiles digest) leads wrote
  have orderedMade : disk.IsOrdered := by
    have orderedAfter := ordered.makeDirectoriesAt (catalog.root.child name)
    rwa [made] at orderedAfter
  have orderedAfter := writeFiles_keeps Tree.IsOrdered
    (fun content _ ordered => ordered.update _ (Tree.isOrdered_file content))
    (ne_empty_of_mem_initialFiles digest) leads wrote orderedMade
  refine ⟨place, leadsAfter, orderedAfter, fun name known => ?_, fun name unknown => ?_⟩
  · rw [← map_fst_initialFiles digest] at known
    obtain ⟨file, member, rfl⟩ := List.mem_map.1 known
    exact Tree.kind?_of_read (written file member)
  · rw [Tree.kind?, kept name (map_fst_initialFiles digest ▸ unknown), ← Tree.kind?]
    exact leads.2.kind?_of_not_mem empty List.not_mem_nil

end DatabaseCatalog

/-! ## Statements -/

/-- The worlds to which statements lead that act on one directory, through any handles or without
one.  Between them anything may happen that leaves the disk as it is, such as the opening of handles
without anything to recover. -/
inductive Database.Filled (path : Path) (start : World) : World → Prop where
  /-- Nothing has happened. -/
  | start : Filled path start start
  /-- Something happens, but not on the disk. -/
  | elsewhere {world other : World} (filled : Filled path start world)
      (disk : other.disk = world.disk) : Filled path start other
  /-- A handle serves an operation that is no change of its transaction. -/
  | served {world : World} {handle : Database} {operation : Operation}
      (filled : Filled path start world) (acts : (world.run handle.manager.target).1 = path)
      (statement : operation.IsChange = false) :
      Filled path start (world.run (handle.serve operation)).2
  /-- A text is executed without a handle. -/
  | responded {world : World} (filled : Filled path start world) (source : String)
      (useIndex : Bool) : Filled path start (world.run (Query.respond path source useIndex)).2

variable {path : Path} {place : List String} {start world : World}

theorem Tree.IsDatabase.run {α : Type} {program : Program α}
    (isDatabase : world.disk.IsDatabase path place) (uses : program.Uses path.Concerns) :
    (world.run program).2.disk.IsDatabase path place :=
  World.disk_run_of_fills (fun disk => disk.IsDatabase path place)
    (uses.mono fun concerns => concerns.fills)
    (fun member content isDatabase => isDatabase.replace member content) isDatabase

/-- Statements leave the files of a database and add no others. -/
theorem Database.Filled.isDatabase (filled : Database.Filled path start world)
    (created : start.disk.IsDatabase path place) : world.disk.IsDatabase path place := by
  induction filled with
  | start => exact created
  | elsewhere filled disk ih => exact disk ▸ ih
  | @served world handle operation filled acts statement ih =>
      obtain ⟨-, unlocked⟩ := handle.agreeOn_serve world operation
      rw [run_target_eq] at acts
      subst acts
      rw [World.disk_congr unlocked]
      exact ih.run (handle.uses_serveBare statement _)
  | @responded world filled source useIndex ih =>
      exact ih.run (Query.uses_respond path source useIndex)

/-! ## Transactions -/

namespace TransactionManager

variable {manager : TransactionManager}

/-- The hidden name of a workspace is longer than that of any file. -/
theorem hiddenName_not_mem_fileNames (number : Nat) :
    manager.hiddenName number ∉ DatabaseCatalog.fileNames := by
  intro member
  have short : ∀ name ∈ DatabaseCatalog.fileNames,
      name.utf8ByteSize < Replacement.temporaryExtra := by
    decide
  exact hiddenName_ne (short _ member) rfl

/-- Nothing is in the way of a workspace that is not named like a file of the database. -/
theorem isVacant_of_isDatabase (isDatabase : world.disk.IsDatabase manager.database place)
    (usable : manager.database.isUsable) (apart : manager.workspaceName ∉ DatabaseCatalog.fileNames)
    (idle : manager.owner.handle ∉ world.active) : manager.IsVacant place world where
  usable := usable
  leads := isDatabase.leads
  ordered := isDatabase.ordered
  regular file member := by
    rw [isDatabase.files file (List.mem_append_left _ member)]
    rintro ⟨⟩
  free := isDatabase.only _ apart
  unused number _ := isDatabase.only _ (hiddenName_not_mem_fileNames number)
  idle := idle

theorem usable_workspace (clean : '\x00' ∉ manager.workspaceName.toList)
    (room : manager.database.Fits manager.pathRoom) :
    (manager.database.child manager.workspaceName).isUsable := by
  have fits : (manager.database.child manager.workspaceName).Fits Workspace.fileRoom :=
    Path.Fits.child (room.mono (by unfold pathRoom; omega)) clean
  exact (fits.mono (Nat.zero_le _)).isUsable

/-- In a vacant directory with room for all paths below it a transaction can be begun. -/
theorem IsVacant.begin_eq_ok (vacant : manager.IsVacant place world) (proper : manager.IsProper)
    (valid : Settings.isPlainName manager.workspaceName)
    (clean : '\x00' ∉ manager.workspaceName.toList)
    (room : manager.database.Fits manager.pathRoom) : (world.run manager.begin.run).1 = .ok () := by
  have rests := vacant.rests proper
  have unused : world.disk.kindAt?
      (manager.database.child (manager.hiddenName world.nextNumber)) = none :=
    vacant.leads.kindAt?_child_of_none (isPlain_hiddenName proper.plain _).1
      (vacant.unused _ (Nat.le_refl _))
  have may : manager.MayBegin world :=
    ⟨valid, proper.short, room, .inl ⟨place, vacant.leads⟩, unused⟩
  rw [Program.run_eq_runWith, Task.runWith_run]
  refine begin_of_regular may rests.idle (rests.kindAt?_workspace proper) vacant.ordered clean
    fun file member => ?_
  have named := Collections.ne_empty_of_mem_files member
  have inWorkspace : file ∈ Workspace.names := List.mem_cons_of_mem _ member
  rw [vacant.leads.readAt_child named
    (Workspace.isUsable_child (room.mono (by unfold pathRoom; omega)) inWorkspace)]
  exact vacant.leads.2.read_ne_obstructed (Tree.fits_of_mem_names inWorkspace)
    (vacant.regular file member)

end TransactionManager

namespace Database

variable {database : Database} {committed store : Store} {texts kept : List String}

/-- The world after queries that a handle answers one after the other. -/
def respondAll (database : Database) (world : World) (texts : List String) : World :=
  texts.foldl (fun world text =>
    (world.run (database.respond text database.settings.useIndexes)).2) world

/-- Queries in a transaction make of the workspace what they would make of the directory. -/
theorem works_respondAll (proper : database.manager.IsProper)
    (works : database.manager.Works place committed store world)
    (yields : database.Yields place start kept store) (texts : List String) :
    ∃ after, database.manager.Works place committed after (database.respondAll world texts) ∧
      database.Yields place start (kept ++ texts) after := by
  induction texts generalizing world store kept with
  | nil => exact ⟨store, works, by rwa [List.append_nil]⟩
  | cons text rest ih =>
      have worksNext := works_execute proper works text database.settings.useIndexes
      rw [← run_respond_eq] at worksNext
      obtain ⟨after, worksAfter, yieldsAfter⟩ := ih worksNext (yields.concat proper text)
      rw [List.append_assoc] at yieldsAfter
      exact ⟨after, worksAfter, yieldsAfter⟩

/-- In a vacant directory a transaction is begun and committed, and publishes what its queries make
of the directory. -/
theorem commit_publishes_queries (proper : database.manager.IsProper)
    (vacant : database.manager.IsVacant place world)
    (valid : Settings.isPlainName database.manager.workspaceName)
    (clean : '\x00' ∉ database.manager.workspaceName.toList)
    (room : database.manager.database.Fits database.manager.pathRoom) (texts : List String) :
    let begun := world.run database.begin.run
    let ended := (database.respondAll begun.2 texts).run database.commit.run
    begun.1 = .ok () ∧ ended.1 = .ok () ∧ ∃ store,
      database.manager.Rests place store ended.2 ∧ database.Yields place world texts store := by
  intro begun ended
  have rests := vacant.rests proper
  have begins : begun.1 = .ok () :=
    (database.agreeOn_changeTransaction world database.manager.begin).1.trans
      (vacant.begin_eq_ok proper valid clean room)
  rcases rests_begin proper rests with ⟨-, works⟩ | ⟨⟨error, failed⟩, -⟩
  · have yields := (Yields.of_rests rests).reliable works.fits
    obtain ⟨store, worksAfter, yieldsAfter⟩ :=
      works_respondAll proper works (yields.withNumber works.later) texts
    obtain ⟨commits, restsAfter⟩ := works_commit proper worksAfter
    exact ⟨begins, commits, store, restsAfter, yieldsAfter⟩
  · rw [begins] at failed
    cases failed

variable {catalog : DatabaseCatalog} {name digest : String} {before created : World}
  {settings : Settings}

/-- In a database that was created and filled by statements, every allowed name of a workspace
serves: the workspace is an entry of the directory, a handle is opened and changes no file, and
every transaction publishes what its queries make of the directory.  The name must not be that of a
file of the database, and the names and paths of the hidden workspace must not be too long. -/
theorem transacts_under_any_name (ordered : before.disk.IsOrdered)
    (receives : before.disk.Receives catalog.root)
    (creates : before.run (catalog.create name digest).run = (.ok path, created))
    (filled : Filled path created world) (valid : settings.isValid)
    (apart : settings.workspaceName ∉ DatabaseCatalog.fileNames)
    (short : settings.workspaceName.utf8ByteSize + Replacement.temporaryExtra ≤ Tree.nameLimit)
    (clean : '\x00' ∉ settings.workspaceName.toList)
    (room : path.Fits (next path settings world).manager.pathRoom)
    (fresh : Identifier.ofNumber world.nextNumber ∉ world.active)
    (process : world.process < 2 ^ 32) :
    let database := next path settings world
    let opened : World := { world with nextNumber := world.nextNumber + 1 }
    (∃ place, world.disk.LeadsTo path place ∧
        database.manager.workspace = path.child settings.workspaceName ∧
        world.disk.locate database.manager.workspace = .ok (place ++ [settings.workspaceName])) ∧
      world.run (Database.open path settings).run = (.ok database, opened) ∧
      ∀ texts,
        let begun := opened.run database.begin.run
        let ended := (database.respondAll begun.2 texts).run database.commit.run
        begun.1 = .ok () ∧ ended.1 = .ok () ∧
          ended.2.disk.kindAt? (path.child settings.workspaceName) = none ∧
          ∃ last, database.Executes opened texts last ∧ ∀ file ∈ Collections.files,
            ended.2.disk.readAt (path.child file) = last.disk.readAt (path.child file) := by
  intro database opened
  have proper : database.manager.IsProper := ⟨Settings.isPlain_of_isPlainName valid, short,
    fun member => apart (List.mem_append_left _ member), process⟩
  have usable : path.isUsable := (room.mono (Nat.zero_le _)).isUsable
  obtain ⟨place, createdThere⟩ := DatabaseCatalog.isDatabase_of_run_create ordered receives creates
  have isDatabase : world.disk.IsDatabase path place := filled.isDatabase createdThere
  have vacant : database.manager.IsVacant place world :=
    TransactionManager.isVacant_of_isDatabase isDatabase usable apart fresh
  have inside : database.manager.workspace = path.child settings.workspaceName :=
    Path.join_of_isPlain path proper.plain
  have free : world.disk.kindAt? (path.join settings.workspaceName) = none :=
    (vacant.rests proper).kindAt?_workspace proper
  have usableInside : (path.child settings.workspaceName).isUsable :=
    @TransactionManager.usable_workspace database.manager clean room
  have located : world.disk.locate database.manager.workspace =
      .ok (place ++ [settings.workspaceName]) := by
    rw [inside, isDatabase.leads.locate_child (Settings.isPlain_of_isPlainName valid).1,
      if_pos usableInside]
  refine ⟨⟨place, isDatabase.leads, inside, located⟩, ?_, fun texts => ?_⟩
  · rw [Program.run_eq_runWith, Task.runWith_run]
    exact runWith_open_of_free valid usable isDatabase.leads free fresh
  · obtain ⟨begins, commits, store, rests, last, executes, -, restsThere⟩ :=
      commit_publishes_queries proper (vacant.drawn (Nat.le_succ _)) valid clean room texts
    refine ⟨begins, commits, ?_, last, executes, fun file member => ?_⟩
    · rw [← inside]
      exact rests.kindAt?_workspace proper
    · exact (rests.holds.read file member).trans (restsThere.holds.read file member).symm

/-- A new database in a new catalog, in which a node was created.  The workspace is named like a file,
apart from a blank. -/
theorem transacts_under_any_name_of_blank :
    let catalog : DatabaseCatalog := ⟨.ofText "catalog"⟩
    let path := catalog.pathFor "friends"
    let settings : Settings := { workspaceName := " nodes.json" }
    ∃ created world, World.run { disk := .emptyDirectory } (catalog.create "friends" "00").run =
        (.ok path, created) ∧
      Filled path created world ∧ (world.nodes path).map (List.map Node.labels) = .ok [["A"]] ∧
      let database := next path settings world
      let opened : World := { world with nextNumber := world.nextNumber + 1 }
      world.run (Database.open path settings).run = (.ok database, opened) ∧
        ∀ texts,
          let begun := opened.run database.begin.run
          let ended := (database.respondAll begun.2 texts).run database.commit.run
          begun.1 = .ok () ∧ ended.1 = .ok () ∧
            ∃ last, database.Executes opened texts last ∧ ∀ file ∈ Collections.files,
              ended.2.disk.readAt (path.child file) = last.disk.readAt (path.child file) := by
  intro catalog path settings
  obtain ⟨created, world, creates, filled, nodes, fresh, process⟩ : ∃ created world,
      World.run { disk := .emptyDirectory } (catalog.create "friends" "00").run =
        (.ok path, created) ∧
      Filled path created world ∧ (world.nodes path).map (List.map Node.labels) = .ok [["A"]] ∧
      Identifier.ofNumber world.nextNumber ∉ world.active ∧ world.process < 2 ^ 32 :=
    ⟨_, _, World.eq_of_answer _ _ (by decide +kernel), .responded .start "CREATE (a:A)" true,
      by decide +kernel⟩
  have room : path.Fits (settings.workspaceName.utf8ByteSize + Replacement.temporaryExtra + 1 +
      Workspace.fileRoom) := ⟨by decide +kernel, by decide +kernel⟩
  obtain ⟨-, opens, transacts⟩ := transacts_under_any_name Tree.isOrdered_emptyDirectory
    (.inr (by decide +kernel)) creates filled (by decide +kernel : settings.isValid) (by decide)
    (by decide) (by decide) room fresh process
  refine ⟨created, world, creates, filled, nodes, opens, fun texts => ?_⟩
  obtain ⟨begins, commits, -, publishes⟩ := transacts texts
  exact ⟨begins, commits, publishes⟩

/-- A handle is not opened if the workspace is named like a file of the database. -/
theorem open_refused_by_name_of_file (isDatabase : world.disk.IsDatabase path place)
    (valid : settings.isValid) (usable : (path.child settings.workspaceName).isUsable)
    (taken : settings.workspaceName ∈ DatabaseCatalog.fileNames)
    (fresh : Identifier.ofNumber world.nextNumber ∉ world.active) :
    (world.run (Database.open path settings).run).1 =
      .error (.transaction (.storage (.io (path.join settings.workspaceName).text))) := by
  have plain := Settings.isPlain_of_isPlainName valid
  have file : world.disk.kindAt? (path.join settings.workspaceName) = some .file := by
    rw [Path.join_of_isPlain path plain, isDatabase.leads.kindAt?_child plain.1 usable]
    exact isDatabase.files _ taken
  rw [Program.run_eq_runWith, Task.runWith_run, runWith_open_of_file valid
    (Path.isUsable_of_child usable) isDatabase.leads file fresh]

end Database
end GraphStore
