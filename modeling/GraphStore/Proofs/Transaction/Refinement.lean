import GraphStore.Proofs.Transaction.Openings

/-!
# Handles refine snapshots

A handle that is opened on a directory where nothing is in its way, and that nobody disturbs,
answers every operation as if there were nothing but two snapshots of the collections: the committed
one, and that of the transaction while one is active.
-/

namespace GraphStore
namespace Database

variable {path : Path} {settings : Settings} {database : Database} {world opened : World}

/-- Whether nothing is in the way of a handle in the directory at a place: the collections are files
or missing, there is no entry with the name of the workspace or one of its hidden names, all paths
below the directory are short enough, and the handle is not active yet. -/
structure IsReady (database : Database) (place : List String) (world : World) : Prop where
  leads : world.disk.LeadsTo database.path place
  regular : ∀ name ∈ Collections.files, world.disk.kind? (place ++ [name]) ≠ some .directory
  apart : database.settings.workspaceName ∉ Collections.files
  free : world.disk.kind? (place ++ [database.settings.workspaceName]) = none
  hidden : ∀ number, world.disk.kind? (place ++ [database.manager.hiddenName number]) = none
  room : database.path.Fits database.manager.pathRoom
  idle : database.manager.owner.handle ∉ world.active
  process : database.manager.owner.process < 2 ^ 32

/-- The versions that a handle finds when it is opened. -/
def initialVersions (database : Database) (world : World) : Versions where
  committed name := world.disk.readAt (database.path.child name)
  nextNumber := world.nextNumber

/-- Whether a world shows versions to a handle: the collections of its directory are the committed
ones, and its workspace exists with the working ones if and only if a transaction is active. -/
structure Shows (database : Database) (versions : Versions) (world : World) : Prop where
  committed : ∀ name ∈ Collections.files,
    world.disk.readAt (database.path.child name) = versions.committed name
  working : ∀ working, versions.working = some working → ∀ name ∈ Collections.files,
    world.disk.readAt (database.manager.workspace.child name) = working name
  workspace : world.disk.kindAt? database.manager.workspace =
    versions.working.map fun _ => .directory
  active : (world.run database.inTransaction).1 = versions.working.isSome

variable {place : List String} {versions : Versions}

theorem shows_of_layout {base : Tree} (ground : database.manager.Ground base place)
    (same : database.manager.database = database.path)
    (layout : database.manager.Layout base place versions world) :
    database.Shows versions world := by
  refine ⟨fun name member => ?_, fun working works name member => ?_,
    layout.kindAt?_workspace ground, ?_⟩
  · rw [← same]
    exact layout.read_committed ground member
  · obtain ⟨workspace, isWorkspace, reads⟩ :=
      layout.read_working ground works (List.mem_cons_of_mem _ member)
    exact reads.trans (isWorkspace.copies name member)
  · rw [Database.inTransaction, Program.run_eq_runWith, layout.runWith_isActive]

theorem IsReady.ground (ready : database.IsReady place world)
    (same : database.manager.database = database.path)
    (sameName : database.manager.workspaceName = database.settings.workspaceName)
    (valid : database.settings.isValid) : database.manager.Ground world.disk place := by
  refine ⟨?_, ?_, ?_, ?_, ?_, ready.hidden,
    fun name member stands => ready.regular name member (Tree.kind?_eq_some_directory.2 stands),
    ready.process⟩
  · rw [same]
    exact ready.leads
  · rw [same]
    exact ready.room
  · rw [sameName]
    exact Settings.isPlain_of_isPlainName valid
  · rw [sameName]
    exact ready.apart
  · rw [sameName]
    exact ready.free

theorem IsReady.layout (ready : database.IsReady place world)
    (ground : database.manager.Ground world.disk place)
    (same : database.manager.database = database.path)
    (sameName : database.manager.workspaceName = database.settings.workspaceName) :
    database.manager.Layout world.disk place (database.initialVersions world) world := by
  have reads : ∀ name ∈ Collections.files,
      world.disk.readAt (database.path.child name) = world.disk.read (place ++ [name]) := by
    intro name member
    have usable := ground.usable_child (List.mem_cons_of_mem _ member)
    rw [same] at usable
    exact ready.leads.readAt_child (Collections.ne_empty_of_mem_files member) usable
  refine ⟨.refl _, fun name member => (reads name member).symm, fun name member => ?_,
    ⟨fun _ => ?_, fun working works => (nomatch works)⟩, fun _ _ _ => rfl, ?_, rfl⟩
  · have short := Tree.fits_of_mem_names (List.mem_cons_of_mem _ member)
    have regular := ready.leads.2.read_ne_obstructed short (ready.regular name member)
    rw [← reads name member] at regular
    exact regular
  · rw [sameName]
    exact ready.free
  · exact Bool.eq_false_iff.2 fun inside => ready.idle (List.contains_iff_mem.1 inside)

/-- A handle that was opened where nothing is in its way serves any operations like the abstract
machine, and shows its versions afterwards. -/
theorem serveAll_eq_versions
    (ran : world.run (Database.open path settings).run = (.ok database, opened))
    (ready : database.IsReady place opened) (operations : List Operation) :
    (opened.run (database.serveAll operations)).1 =
        ((database.initialVersions opened).serveAll database operations).1 ∧
      database.Shows ((database.initialVersions opened).serveAll database operations).2
        (opened.run (database.serveAll operations)).2 := by
  obtain ⟨valid, rfl⟩ := open_eq_ok ran
  have ground := ready.ground rfl rfl valid
  obtain ⟨same, layout⟩ :=
    ground.serveAll (initialVersions _ opened) operations opened (ready.layout ground rfl rfl)
  rw [Program.run_eq_runWith]
  exact ⟨same, shows_of_layout ground rfl layout⟩

theorem kind?_of_list_nil {tree : Tree} (empty : tree.list place = .ok []) (name : String) :
    tree.kind? (place ++ [name]) = none := by
  rw [Tree.list] at empty
  split at empty
  · next entries found =>
      have none : entries = [] := by simpa using empty
      rw [Tree.kind?, Tree.find_append_of_ok found, none, Tree.find_singleton]
      cases Tree.fits name <;> rfl
  · cases empty
  · cases empty

/-- A handle on a new directory begins a transaction, creates a node in it and commits it. -/
theorem serveAll_eq_versions_of_new_directory : ∃ database opened,
    ({} : World).run (Database.open (.ofText "db") {}).run = (.ok database, opened) ∧
      database.IsReady ["db"] opened ∧
      (opened.run (database.serveAll [.begin, .execute "CREATE (n:L)" true, .commit])).1 =
        ((database.initialVersions opened).serveAll database
          [.begin, .execute "CREATE (n:L)" true, .commit]).1 := by
  have ran : ({} : World).run (Database.open (.ofText "db") {}).run =
      (.ok ⟨.ofText "db", {}, .ofText "db", "transaction_temp", 2, Identifier.ofNumber 0⟩,
        (({} : World).run (Database.open (.ofText "db") {}).run).2) :=
    Prod.ext (by decide +kernel) rfl
  have empty : ((({} : World).run (Database.open (.ofText "db") {}).run).2).disk.list ["db"] =
      .ok [] := by decide +kernel
  have ready : IsReady ⟨.ofText "db", {}, .ofText "db", "transaction_temp", 2,
      Identifier.ofNumber 0⟩ ["db"] (({} : World).run (Database.open (.ofText "db") {}).run).2 := by
    refine ⟨⟨by decide +kernel, Tree.kind?_eq_some_directory.1 (by decide +kernel)⟩,
      fun name _ => ?_, by decide +kernel, kind?_of_list_nil empty _,
      fun number => kind?_of_list_nil empty _, ⟨by decide +kernel, by decide +kernel⟩,
      by decide +kernel, by decide⟩
    have free := kind?_of_list_nil empty name
    rw [List.cons_append, List.nil_append] at free ⊢
    rw [free]
    exact fun same => (nomatch same)
  exact ⟨_, _, ran, ready, (serveAll_eq_versions ran ready _).1⟩

/-! ## Handles that cannot begin -/

/-- A handle on an empty directory cannot begin a transaction if a hidden name of its workspace is
obstructed. -/
theorem begin_of_obstructed (valid : settings.isValid) (usable : path.isUsable)
    (leads : world.disk.LeadsTo path place) (empty : world.disk.list place = .ok [])
    (idle : world.active = [])
    (obstructed : ∀ number,
      (path.child (Replacement.temporaryName settings.workspaceName
        (Identifier.token number))).isUsable →
      world.disk.find (place ++ [Replacement.temporaryName settings.workspaceName
        (Identifier.token number)]) = .error .obstructed) :
    ∃ database opened error, world.run (Database.open path settings).run = (.ok database, opened) ∧
      opened.disk = world.disk ∧ database.settings = settings ∧
      (opened.run database.begin.run).1 = .error (.storage error) := by
  have fresh : Identifier.ofNumber world.nextNumber ∉ world.active := by
    rw [idle]
    exact List.not_mem_nil
  have plain := Settings.isPlain_of_isPlainName valid
  have free : world.disk.kindAt? (path.join settings.workspaceName) = none := by
    rw [Path.join_of_isPlain _ plain]
    exact leads.kindAt?_child_of_none plain.1 (kind?_of_list_nil empty _)
  have ran := runWith_open_of_free valid usable leads free fresh
  let database : Database := next path settings world
  have refused : database.manager.begin.run.Serves
      (fun other => other.disk = world.disk ∧ other.active = [] ∧
        other.nextNumber = world.nextNumber + 1)
      (.error (.storage (.io (path.join (database.manager.hiddenName
        (world.nextNumber + 1))).text))) fun _ => True := by
    rintro other ⟨disk, active, number⟩
    rw [← disk] at leads free
    have idleThere : other.active.contains database.manager.owner.handle = false := by
      rw [active]
      rfl
    obtain ⟨after, refused, -⟩ := @TransactionManager.runWith_begin_of_obstructed
      database.manager place other leads plain idleThere free (by
        rw [disk]
        exact obstructed _)
    rw [Task.runWith_run, refused, number]
    exact ⟨rfl, trivial⟩
  obtain ⟨result, -⟩ := (refused.changeTransaction
    (fun holds same => ⟨(World.disk_congr same).trans holds.1,
      (World.active_congr same).trans holds.2.1, (World.nextNumber_congr same).trans holds.2.2⟩)
    (fun _ _ => trivial) database) { world with nextNumber := world.nextNumber + 1 }
      ⟨rfl, idle, rfl⟩
  rw [← Task.runWith_run, ← Program.run_eq_runWith] at ran
  rw [← Program.run_eq_runWith] at result
  exact ⟨database, _, _, ran, rfl, rfl, result⟩

/-- On a path that is nearly too long no transaction can be begun with the default settings. -/
theorem begin_refused_of_long_path {text : String} (size : text.utf8ByteSize = 4052)
    (clean : '\x00' ∉ text.toList) (steps : Path.stepsOfText text = [.down "db"]) :
    ∃ database opened error,
      ({ disk := .directory [("db", .emptyDirectory)] } : World).run
        (Database.open (.ofText text) {}).run = (.ok database, opened) ∧
      opened.disk = .directory [("db", .emptyDirectory)] ∧ database.settings = {} ∧
      (opened.run database.begin.run).1 = .error (.storage error) := by
  have fits : (Path.ofText text).Fits 0 := ⟨by rw [Path.ofText, size]; decide, clean⟩
  have leads : (Tree.directory [("db", .emptyDirectory)]).LeadsTo (.ofText text) ["db"] := by
    refine ⟨?_, Tree.kind?_eq_some_directory.1 (by decide)⟩
    rw [Path.ofText, steps]
    rfl
  refine begin_of_obstructed (by decide +kernel) fits.isUsable leads (by decide) rfl
    fun number usable => ?_
  have long := Path.utf8ByteSize_le_child (.ofText text)
    (Replacement.temporaryName ({} : Settings).workspaceName (Identifier.token number))
  have short := (Path.isUsable_iff_fits.1 usable).1
  have name : ({} : Settings).workspaceName.utf8ByteSize = 16 := by decide
  have same : (Path.ofText text).text = text := rfl
  rw [Replacement.utf8ByteSize_temporaryName _ (Identifier.utf8ByteSize_token number), name, same,
    size, Replacement.temporaryExtra] at long
  rw [Path.lengthLimit] at short
  omega

/-- On a directory no transaction can be begun if the name of the workspace is nearly too long. -/
theorem begin_refused_of_long_name {name : String} (size : name.utf8ByteSize = 240)
    (valid : Settings.isPlainName name) :
    ∃ database opened error,
      ({ disk := .directory [("db", .emptyDirectory)] } : World).run
        (Database.open (.ofText "db") { workspaceName := name }).run = (.ok database, opened) ∧
      opened.disk = .directory [("db", .emptyDirectory)] ∧
      database.settings = { workspaceName := name } ∧
      (opened.run database.begin.run).1 = .error (.storage error) := by
  have stands : (Tree.directory [("db", .emptyDirectory)]).HasDirectory ["db"] :=
    Tree.kind?_eq_some_directory.1 (by decide)
  refine begin_of_obstructed valid (by decide +kernel) ⟨by decide +kernel, stands⟩ (by decide) rfl
    fun number usable => stands.find_of_not_fits ?_
  rw [Tree.fits, Replacement.utf8ByteSize_temporaryName _ (Identifier.utf8ByteSize_token number),
    size]
  decide

/-- A transaction is not begun if the hidden name of its workspace is too long, or the path of the
directory. -/
theorem begin_refused_by_lengths :
    (∃ database opened error,
      ({ disk := .directory [("db", .emptyDirectory)] } : World).run (Database.open (.ofText "db")
        { workspaceName := String.ofList (List.replicate 240 'a') }).run = (.ok database, opened) ∧
      opened.disk = .directory [("db", .emptyDirectory)] ∧
      database.settings.workspaceName ∉ Collections.files ∧
      (opened.run database.begin.run).1 = .error (.storage error)) ∧
    ∃ database opened error,
      ({ disk := .directory [("db", .emptyDirectory)] } : World).run (Database.open
        (.ofText (String.ofList (List.replicate 4050 '/' ++ ['d', 'b']))) {}).run =
          (.ok database, opened) ∧
      opened.disk = .directory [("db", .emptyDirectory)] ∧
      database.settings.workspaceName ∉ Collections.files ∧
      (opened.run database.begin.run).1 = .error (.storage error) := by
  constructor
  · have letters : (String.ofList (List.replicate 240 'a')).toList = List.replicate 240 'a' :=
      String.toList_ofList
    have size : (String.ofList (List.replicate 240 'a')).utf8ByteSize = 240 := by
      rw [utf8ByteSize_eq_sum, letters, List.map_replicate, List.sum_replicate_nat]
      rfl
    have valid : Settings.isPlainName (String.ofList (List.replicate 240 'a')) := by
      simp only [Settings.isPlainName, letters]
      decide +kernel
    obtain ⟨database, opened, error, ran, disk, settings, refused⟩ :=
      begin_refused_of_long_name size valid
    refine ⟨database, opened, error, ran, disk, ?_, refused⟩
    rw [settings]
    intro member
    have short : ∀ name ∈ Collections.files, name.utf8ByteSize ≠ 240 := by decide
    exact short _ member size
  · have letters : (String.ofList (List.replicate 4050 '/' ++ ['d', 'b'])).toList =
        List.replicate 4050 '/' ++ ['d', 'b'] := String.toList_ofList
    have size : (String.ofList (List.replicate 4050 '/' ++ ['d', 'b'])).utf8ByteSize = 4052 := by
      rw [utf8ByteSize_eq_sum, letters, List.map_append, List.sum_append, List.map_replicate,
        List.sum_replicate_nat]
      rfl
    have clean : '\x00' ∉ (String.ofList (List.replicate 4050 '/' ++ ['d', 'b'])).toList := by
      rw [letters, List.mem_append, List.mem_replicate]
      decide
    have steps : Path.stepsOfText (String.ofList (List.replicate 4050 '/' ++ ['d', 'b'])) =
        [.down "db"] := by
      rw [Path.stepsOfText_slashes]
      decide +kernel
    obtain ⟨database, opened, error, ran, disk, settings, refused⟩ :=
      begin_refused_of_long_path size clean steps
    refine ⟨database, opened, error, ran, disk, ?_, refused⟩
    rw [settings]
    decide

end Database
end GraphStore
