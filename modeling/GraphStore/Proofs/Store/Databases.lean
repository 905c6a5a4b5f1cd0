import GraphStore.Proofs.Disk.Names
import GraphStore.Proofs.Disk.Renames
import GraphStore.Proofs.Store.Creations
import GraphStore.Proofs.Store.Holdings

/-!
# Catalogs as maps

A catalog that was used only to create databases is a map from names to password digests.  The
first request for an allowed name adds the name, every other request is refused and changes nothing.
Listing, finding and reading the digest of a database answer what the map says, and the databases
are different directories directly below the root.
-/

namespace GraphStore
namespace DatabaseCatalog

/-! ## The map -/

/-- The digest in the first request for a name, if the name is allowed. -/
def created (requests : List (String × String)) (name : String) : Option String :=
  if isName name then requests.lookup name else none

theorem isSome_created (requests : List (String × String)) (name : String) :
    (created requests name).isSome ↔ isName name ∧ name ∈ requests.map Prod.fst := by
  have isSome_lookup : (requests.lookup name).isSome ↔ name ∈ requests.map Prod.fst := by
    induction requests with
    | nil => simp
    | cons request rest ih =>
        rw [SortedMap.lookup_cons_eq, List.map_cons, List.mem_cons]
        by_cases same : name = request.1 <;> simp [same, ih]
  unfold created
  cases isName name <;> simp [isSome_lookup]

theorem created_append (requests : List (String × String)) (name digest other : String) :
    created (requests ++ [(name, digest)]) other =
      (created requests other).or (if isName name ∧ other = name then some digest else none) := by
  unfold created
  rw [List.lookup_append, SortedMap.lookup_cons_eq, List.lookup_nil]
  by_cases same : other = name
  · subst same
    cases isName other <;> simp
  · cases isName other <;> simp [same]

/-! ## Writing the files of a database -/

/-- What replacing a file of the directory keeps is kept by writing files. -/
theorem writeFiles_keeps (property : Tree → Prop) {directory : Path} {place : List String}
    (kept : ∀ {disk : Tree} {name : String} (content : Content),
      disk.CanReplace directory place name → property disk →
      property (disk.update (place ++ [name]) (some (.file content))))
    {files : List (String × String)} (named : ∀ file ∈ files, file.1 ≠ "") {world after : World}
    (leads : world.disk.LeadsTo directory place)
    (ran : (writeFiles directory files).runWith World.perform world = (.ok (), after))
    (start : property world.disk) : property after.disk := by
  induction files generalizing world with
  | nil =>
      cases ran
      exact start
  | cons file rest ih =>
      rw [writeFiles] at ran
      obtain ⟨⟨⟩, between, wrote, ran⟩ := Task.of_runWith_bind_eq_ok ran
      obtain ⟨possible, disk⟩ := Document.runWith_replace_eq_ok leads
        (named file List.mem_cons_self) wrote
      refine ih (fun other member => named other (List.mem_cons_of_mem file member)) ?_ ran ?_
      · rw [disk]
        exact (leads.replaced _ possible).1
      · rw [disk]
        exact kept _ possible start

/-- Files that can all be replaced are written. -/
theorem exists_runWith_writeFiles {directory : Path} {place : List String}
    {files : List (String × String)} (named : ∀ file ∈ files, file.1 ≠ "") {world : World}
    (leads : world.disk.LeadsTo directory place)
    (possible : ∀ file ∈ files, world.disk.CanReplace directory place file.1) :
    ∃ after, (writeFiles directory files).runWith World.perform world = (.ok (), after) := by
  induction files generalizing world with
  | nil => exact ⟨world, rfl⟩
  | cons file rest ih =>
      obtain ⟨first, later⟩ := List.forall_mem_cons.1 possible
      obtain ⟨namedFirst, namedLater⟩ := List.forall_mem_cons.1 named
      let between : World :=
        { world with disk := world.disk.update (place ++ [file.1]) (some (.file (.text file.2))) }
      have wrote : (Document.replace directory file.1 (.text file.2)).runWith World.perform world =
          (.ok (), between) := by
        rw [Document.replace, Task.runWith_bind_of_ok (Task.runWith_perform _ _ _)]
        simp only [World.perform, World.onDisk]
        rcases leads.replace_cases namedFirst (.text file.2) with
          ⟨-, -, replaced⟩ | ⟨impossible, -⟩
        · rw [replaced]
          rfl
        · exact absurd first impossible
      rw [writeFiles, Task.runWith_bind_of_ok wrote]
      refine ih namedLater (leads.replaced _ first).1 fun other member => ?_
      obtain ⟨usable, usableChild, temporary, accepts⟩ := later other member
      exact ⟨usable, usableChild, temporary,
        (leads.acceptsFile_replaced _ first other.1).trans accepts⟩

/-! ## Databases below a root -/

/-- Whether the file system has room for a database of a name: the name and the paths of the files
in the database are not too long. -/
def HasRoom (catalog : DatabaseCatalog) (name : String) : Prop :=
  Tree.fits name ∧ (catalog.pathFor name).Fits
    (Collections.relationshipsFile.utf8ByteSize + Replacement.temporaryExtra + 1)

/-- Whether the root of a catalog, at a place, holds the databases of a map and nothing else. -/
structure Holds (catalog : DatabaseCatalog) (databases : String → Option String)
    (place : List String) (disk : Tree) : Prop where
  leads : disk.LeadsTo catalog.root place
  lists : disk.Lists place fun name => (databases name).isSome
  allowed : ∀ name, (databases name).isSome → isName name ∧ catalog.HasRoom name
  files : ∀ name digest, databases name = some digest → ∀ file ∈ initialFiles digest,
    disk.read (place ++ [name] ++ [file.1]) = .ok (.text file.2)

variable {catalog : DatabaseCatalog} {databases : String → Option String} {place : List String}
  {disk made : Tree} {name digest : String}

theorem Holds.hasDirectory (holds : catalog.Holds databases place disk)
    (found : databases name = some digest) : disk.HasDirectory (place ++ [name]) := by
  have stored := holds.files name digest found (Collections.nodesFile, "[]") (by simp [initialFiles])
  rw [Tree.read, Tree.find_append] at stored
  cases above : disk.find (place ++ [name]) with
  | error fault => simp [above] at stored
  | ok entry =>
      cases entry with
      | directory entries => exact ⟨entries, above⟩
      | file content => simp [above, Tree.find] at stored

theorem Holds.kind?_eq_none (holds : catalog.Holds databases place disk)
    (absent : databases name = none) : disk.kind? (place ++ [name]) = none := by
  obtain ⟨names, listed, -, members⟩ := holds.lists
  refine holds.leads.2.kind?_of_not_mem listed fun member => ?_
  rw [members, absent] at member
  cases member

/-- The bounds on the names of the files of a database. -/
theorem room_of_mem_initialFiles (digest : String) : ∀ file ∈ initialFiles digest,
    '\x00' ∉ file.1.toList ∧
      file.1.utf8ByteSize + Replacement.temporaryExtra ≤ Tree.nameLimit ∧
      file.1.utf8ByteSize + Replacement.temporaryExtra + 1 ≤
        Collections.relationshipsFile.utf8ByteSize + Replacement.temporaryExtra + 1 := by
  have names : ∀ name ∈ (initialFiles "").map Prod.fst, '\x00' ∉ name.toList ∧
      name.utf8ByteSize + Replacement.temporaryExtra ≤ Tree.nameLimit ∧
      name.utf8ByteSize + Replacement.temporaryExtra + 1 ≤
        Collections.relationshipsFile.utf8ByteSize + Replacement.temporaryExtra + 1 := by decide
  have same : (initialFiles digest).map Prod.fst = (initialFiles "").map Prod.fst := rfl
  exact fun file member => names file.1 (same ▸ List.mem_map_of_mem member)

/-- The steps of a creation that succeeds. -/
theorem runWith_create_of_free {world after : World} (allowed : isName name)
    (free : world.disk.kindAt? (catalog.pathFor name) = none)
    (makes : world.disk.makeDirectoriesAt (catalog.pathFor name) = (true, disk))
    (wrote : (writeFiles (catalog.pathFor name) (initialFiles digest)).runWith World.perform
      { world with disk } = (.ok (), after)) :
    (catalog.create name digest).runWith World.perform world =
      (.ok (catalog.pathFor name), after) := by
  rw [create]
  simp only [allowed, Bool.not_true, Bool.false_eq_true, if_false]
  rw [Task.runWith_bind_of_ok (Task.runWith_perform _ _ _)]
  simp only [World.perform, free, Option.isSome_none, Bool.false_eq_true, if_false]
  rw [Task.runWith_bind_of_ok (Task.runWith_perform _ _ _)]
  simp only [World.perform, World.onDisk]
  simp only [makes, Bool.not_true, Bool.false_eq_true, if_false]
  rw [Task.runWith_bind, Task.runWith_mapError, wrote]
  rfl

/-- A database that is created where nothing stands below the root. -/
theorem Holds.create {world : World} (holds : catalog.Holds databases place made)
    (allowed : isName name) (absent : databases name = none) (room : catalog.HasRoom name)
    (free : world.disk.kindAt? (catalog.root.child name) = none)
    (makes : world.disk.makeDirectoriesAt (catalog.root.child name) =
      made.makeDirectoriesAt (catalog.root.child name)) (digest : String) :
    ∃ after, (catalog.create name digest).runWith World.perform world =
        (.ok (catalog.pathFor name), after) ∧
      catalog.Holds (fun other => (databases other).or
        (if other = name then some digest else none)) place after.disk := by
  have plain := isPlain_of_isName allowed
  have path : catalog.pathFor name = catalog.root.child name :=
    Path.join_of_isPlain catalog.root plain
  have fits := room.2
  have short := room.1
  rw [path] at fits
  have missing := holds.leads.2.find_of_kind?_none short (holds.kind?_eq_none absent)
  have usable := (fits.mono (Nat.zero_le _)).isUsable
  rw [holds.leads.makeDirectoriesAt_child usable missing] at makes
  have fresh : (made.update (place ++ [name]) (some Tree.emptyDirectory)).find (place ++ [name]) =
      .ok Tree.emptyDirectory := holds.leads.2.find_update_self short _
  have keeps : made.KeepsDirectories
      (made.update (place ++ [name]) (some Tree.emptyDirectory)) :=
    Tree.keepsDirectories_update
      (Tree.not_hasDirectory_of_kind? (holds.kind?_eq_none absent)) _
  have leadsRoot := holds.leads.keep keeps
  have leads := leadsRoot.child ⟨[], fresh⟩
  let start : World :=
    { world with disk := made.update (place ++ [name]) (some Tree.emptyDirectory) }
  have possible : ∀ file ∈ initialFiles digest,
      start.disk.CanReplace (catalog.root.child name) (place ++ [name]) file.1 := by
    intro file member
    obtain ⟨clean, shortFile, bound⟩ := room_of_mem_initialFiles digest file member
    refine (fits.mono bound).canReplace clean shortFile (leads.2.acceptsFile_of_read ?_)
    have shortName : Tree.fits file.1 := decide_eq_true (by omega)
    rw [Tree.read, Tree.find_append_of_ok fresh, Tree.emptyDirectory, Tree.find_singleton,
      if_pos shortName]
    rintro ⟨⟩
  obtain ⟨after, wrote⟩ := @exists_runWith_writeFiles _ _ _
    (ne_empty_of_mem_initialFiles digest) start leads possible
  refine ⟨after, ?_, ?_⟩
  · rw [← path] at free makes wrote
    exact runWith_create_of_free allowed free makes wrote
  · -- Writing files below the new name changes neither the names below the root nor what stands
    -- under the others.
    obtain ⟨leadsAfter, listsAfter, same⟩ := writeFiles_keeps
      (fun disk => disk.LeadsTo catalog.root place ∧
        (disk.Lists place fun other => (databases other).isSome ∨ other = name) ∧
        ∀ other, other ≠ name → ∀ more,
          disk.find (place ++ other :: more) = made.find (place ++ other :: more))
      (fun {disk file} content possible kept => by
        obtain ⟨leads, lists, same⟩ := kept
        refine ⟨leads.keep (Tree.keepsDirectories_update
          (Tree.not_hasDirectory_of_acceptsFile possible.2.2.2) _), ?_, fun other differs more => ?_⟩
        · rw [List.append_assoc]
          exact (lists.update [file] (.file content)).congr (by simp)
        · rw [List.append_assoc, ← same other differs more]
          exact leads.2.find_update_of_ne differs [file] more _)
      (ne_empty_of_mem_initialFiles digest) leads wrote
      ⟨leadsRoot, (holds.lists.update [] Tree.emptyDirectory).congr (by simp),
        fun other differs more => holds.leads.2.find_update_of_ne differs [] more _⟩
    obtain ⟨-, written, -⟩ := runWith_writeFiles_eq_ok (ne_empty_of_mem_initialFiles digest)
      (nodup_initialFiles digest) leads wrote
    refine ⟨leadsAfter, listsAfter.congr fun other => ?_, fun other stands => ?_,
      fun other stored found => ?_⟩
    · by_cases equal : other = name <;> simp [equal]
    · by_cases equal : other = name
      · exact equal ▸ ⟨allowed, room⟩
      · refine holds.allowed other ?_
        rwa [if_neg equal, Option.or_none] at stands
    · by_cases equal : other = name
      · subst equal
        rw [absent, if_pos rfl] at found
        cases found
        exact written
      · rw [if_neg equal, Option.or_none] at found
        intro file member
        have unchanged := same other equal [file.1]
        rw [List.append_cons] at unchanged
        rw [← holds.files other stored found file member, Tree.read, unchanged, Tree.read]

/-! ## The root -/

/-- Whether a catalog is new: its root is missing or empty, and once the directories on the way to
it are made, it is an empty directory.  (The blank path never leads to one.) -/
def IsNew (catalog : DatabaseCatalog) (disk : Tree) : Prop :=
  (disk.listAt catalog.root = .error .missing ∨ disk.listAt catalog.root = .ok []) ∧
    ∃ made, disk.makeDirectoriesAt catalog.root = (true, made) ∧
      made.listAt catalog.root = .ok []

/-- Whether a catalog stands for a map: the root holds its databases, or the map is empty and the
root is still to be made. -/
structure StandsFor (catalog : DatabaseCatalog) (databases : String → Option String)
    (place : List String) (disk : Tree) : Prop where
  usable : catalog.root.isUsable
  named : catalog.root.text ≠ ""
  root : catalog.Holds databases place disk ∨
    (∀ name, databases name = none) ∧ disk.listAt catalog.root = .error .missing ∧
      disk.HasDirectory [] ∧ ∃ made, disk.makeDirectoriesAt catalog.root = (true, made) ∧
        catalog.Holds databases place made

theorem holds_nothing (leads : disk.LeadsTo catalog.root place) (lists : disk.list place = .ok []) :
    catalog.Holds (fun _ => none) place disk := by
  refine ⟨leads, ⟨[], lists, List.Pairwise.nil, by simp⟩, by simp, by simp⟩

/-- A new catalog stands for the empty map. -/
theorem IsNew.standsFor (new : catalog.IsNew disk) :
    ∃ place, catalog.StandsFor (created []) place disk := by
  have nothing : created [] = fun _ => none := by
    funext name
    simp [created]
  rw [nothing]
  obtain ⟨missing | empty, made, makes, lists⟩ := new
  · obtain ⟨place, leads, listed⟩ := Tree.LeadsTo.of_listAt lists
    obtain ⟨usable, named⟩ := Tree.isUsable_of_listAt lists
    exact ⟨place, usable, named, Or.inr ⟨fun _ => rfl, missing,
      Tree.hasDirectory_of_makeDirectoriesAt makes lists, made, makes,
      holds_nothing leads listed⟩⟩
  · obtain ⟨place, leads, listed⟩ := Tree.LeadsTo.of_listAt empty
    obtain ⟨usable, named⟩ := Tree.isUsable_of_listAt empty
    exact ⟨place, usable, named, Or.inl (holds_nothing leads listed)⟩

namespace StandsFor

theorem allowed (stands : catalog.StandsFor databases place disk)
    (found : (databases name).isSome) : isName name ∧ catalog.HasRoom name := by
  rcases stands.root with holds | ⟨empty, -⟩
  · exact holds.allowed name found
  · rw [empty name] at found
    cases found

theorem holds (stands : catalog.StandsFor databases place disk)
    (found : (databases name).isSome) : catalog.Holds databases place disk := by
  rcases stands.root with holds | ⟨empty, -⟩
  · exact holds
  · rw [empty name] at found
    cases found

/-- A database of the map is a directory of its name directly below the root. -/
theorem leadsTo_pathFor (stands : catalog.StandsFor databases place disk)
    (found : (databases name).isSome) :
    disk.LeadsTo (catalog.pathFor name) (place ++ [name]) := by
  have holds := stands.holds found
  obtain ⟨digest, stored⟩ := Option.isSome_iff_exists.1 found
  rw [pathFor, Path.join_of_isPlain catalog.root (isPlain_of_isName (stands.allowed found).1)]
  exact holds.leads.child (holds.hasDirectory stored)

/-- What stands under an allowed name is what the map says. -/
theorem kindAt?_pathFor (stands : catalog.StandsFor databases place disk)
    (allowedName : isName name) :
    disk.kindAt? (catalog.pathFor name) =
      if (databases name).isSome then some .directory else none := by
  have plain := isPlain_of_isName allowedName
  rw [pathFor, Path.join_of_isPlain catalog.root plain]
  cases found : databases name with
  | some digest =>
      have isSome : (databases name).isSome := by rw [found, Option.isSome_some]
      have holds := stands.holds isSome
      have fits := (stands.allowed isSome).2.2
      rw [pathFor, Path.join_of_isPlain catalog.root plain] at fits
      rw [holds.leads.kindAt?_child plain.1 (fits.mono (Nat.zero_le _)).isUsable]
      exact Tree.kind?_eq_some_directory.2 (holds.hasDirectory found)
  | none =>
      rcases stands.root with holds | ⟨-, missing, -⟩
      · exact holds.leads.kindAt?_child_of_none plain.1 (holds.kind?_eq_none found)
      · exact Tree.kindAt?_child_of_missing stands.named missing name

/-! ## Creating -/

/-- One request: a name that is not allowed and one that is taken are refused and change nothing,
any other is added to the map. -/
theorem create {world : World} (stands : catalog.StandsFor databases place world.disk)
    (room : isName name → catalog.HasRoom name) (digest : String) :
    let ended := (catalog.create name digest).runWith World.perform world
    (isName name = false → ended = (.error (.invalidName name), world)) ∧
      (isName name → (databases name).isSome → ended = (.error (.alreadyExists name), world)) ∧
      (isName name → databases name = none → ended.1 = .ok (catalog.pathFor name) ∧
        catalog.StandsFor (fun other => (databases other).or
          (if other = name then some digest else none)) place ended.2.disk) := by
  intro ended
  refine ⟨fun refused => ?_, fun allowedName taken => ?_, fun allowedName absent => ?_⟩
  · simp only [ended, DatabaseCatalog.create, refused, Bool.not_false, if_true]
    rfl
  · simp only [ended, DatabaseCatalog.create, allowedName, Bool.not_true, Bool.false_eq_true,
      if_false]
    rw [Task.runWith_bind_of_ok (Task.runWith_perform _ _ _)]
    simp only [World.perform, stands.kindAt?_pathFor allowedName, taken, if_true, Option.isSome_some]
    rfl
  · have free := stands.kindAt?_pathFor allowedName
    have usable := ((room allowedName).2.mono (Nat.zero_le _)).isUsable
    rw [pathFor, Path.join_of_isPlain catalog.root (isPlain_of_isName allowedName)] at free usable
    rw [absent, Option.isSome_none, if_neg Bool.false_ne_true] at free
    have made : ∃ made, catalog.Holds databases place made ∧
        world.disk.makeDirectoriesAt (catalog.root.child name) =
          made.makeDirectoriesAt (catalog.root.child name) := by
      rcases stands.root with holds | ⟨-, -, top, made, makes, holds⟩
      · exact ⟨world.disk, holds, rfl⟩
      · refine ⟨made, holds, ?_⟩
        rw [Tree.makeDirectoriesAt, if_pos stands.usable] at makes
        rw [Tree.makeDirectoriesAt, Tree.makeDirectoriesAt, if_pos usable, if_pos usable]
        exact Tree.makeAlong_concat top makes name
    obtain ⟨made, holds, makes⟩ := made
    obtain ⟨after, ran, holdsAfter⟩ :=
      holds.create allowedName absent (room allowedName) free makes digest
    rw [show ended = (.ok (catalog.pathFor name), after) from ran]
    exact ⟨rfl, stands.usable, stands.named, Or.inl holdsAfter⟩

/-! ## Asking -/

variable {world : World}

/-- A database is found if and only if it is in the map. -/
theorem run_open (stands : catalog.StandsFor databases place world.disk) (name : String) :
    (catalog.open name).runWith World.perform world =
      (if (databases name).isSome then .ok (catalog.pathFor name)
        else .error (if isName name then .notFound name else .invalidName name), world) := by
  cases allowedName : isName name with
  | false =>
      have absent : (databases name).isSome = false := by
        rw [Bool.eq_false_iff]
        intro found
        rw [(stands.allowed found).1] at allowedName
        cases allowedName
      rw [absent]
      simp only [DatabaseCatalog.open, allowedName, Bool.not_false, if_true]
      rfl
  | true =>
      simp only [DatabaseCatalog.open, allowedName, Bool.not_true, Bool.false_eq_true, if_false]
      rw [Task.runWith_bind_of_ok (Task.runWith_perform _ _ _)]
      simp only [World.perform, stands.kindAt?_pathFor allowedName]
      cases (databases name).isSome <;> rfl

/-- The file of a database that was created. -/
theorem readAt_file (stands : catalog.StandsFor databases place world.disk)
    (found : databases name = some digest) {file : String × String}
    (member : file ∈ initialFiles digest) :
    world.disk.readAt ((catalog.pathFor name).child file.1) = .ok (.text file.2) := by
  have isSome : (databases name).isSome := by rw [found, Option.isSome_some]
  obtain ⟨clean, -, bound⟩ := room_of_mem_initialFiles digest file member
  have fits := (stands.allowed isSome).2.2
  have usable : ((catalog.pathFor name).child file.1).isUsable := by
    refine Path.Fits.isUsable (Path.Fits.child (fits.mono ?_) clean :
      ((catalog.pathFor name).child file.1).Fits 0)
    omega
  rw [(stands.leadsTo_pathFor isSome).readAt_child (ne_empty_of_mem_initialFiles digest file member)
    usable]
  exact (stands.holds isSome).files name digest found file member

/-- The digest of a database of the map, without the blanks around it. -/
theorem run_digest (stands : catalog.StandsFor databases place world.disk)
    (found : databases name = some digest) :
    (catalog.digest name).runWith World.perform world =
      (.ok (Text.trimString digest), world) := by
  have opened := stands.run_open name
  rw [found, Option.isSome_some, if_pos rfl] at opened
  rw [DatabaseCatalog.digest, Task.runWith_bind_of_ok opened,
    Task.runWith_bind_of_ok (Task.runWith_perform _ _ _)]
  have listed : (digestFile, digest) ∈ initialFiles digest := by simp [initialFiles]
  have stored := stands.readAt_file found listed
  simp only [World.perform, stored]
  rfl

/-- The collections of a database of the map are empty. -/
theorem collections_eq (stands : catalog.StandsFor databases place world.disk)
    (found : databases name = some digest) :
    world.nodes (catalog.pathFor name) = .ok [] ∧
      world.relationships (catalog.pathFor name) = .ok [] ∧
      world.indexes (catalog.pathFor name) = .empty := by
  have isSome : (databases name).isSome := by rw [found, Option.isSome_some]
  have holds := World.holds_storeAt (stands.leadsTo_pathFor isSome)
  have reads : ∀ file ∈ initialFiles digest,
      (world.storeAt (catalog.pathFor name)).read file.1 = .ok (.text file.2) :=
    fun file member => stands.readAt_file found member
  have nodes := reads (Collections.nodesFile, "[]") (by simp [initialFiles])
  have relationships := reads (Collections.relationshipsFile, "[]") (by simp [initialFiles])
  have indexes := reads (Collections.indexesFile, "{}") (by simp [initialFiles])
  refine ⟨?_, ?_, ?_⟩
  · have none : Document.itemsOfContent Node.ofJson? (.ofText "") (.ok (.text "[]")) = .ok [] := by
      decide +kernel
    rw [holds.nodes_eq, Store.nodes, nodes]
    exact Document.itemsOfContent_path _ none
  · have none : Document.itemsOfContent Relationship.ofJson? (.ofText "") (.ok (.text "[]")) =
        .ok [] := by decide +kernel
    rw [holds.relationships_eq, Store.relationships, relationships]
    exact Document.itemsOfContent_path _ none
  · rw [holds.indexes_eq, Store.catalog, Store.indexDocument, indexes, ofContent_initial_indexes]
    rfl

theorem runWith_directories (root : Path) (names : List String) :
    (directories root names).runWith World.perform world =
      (names.filter fun name => world.disk.kindAt? (root.child name) = some .directory, world) := by
  induction names with
  | nil => rfl
  | cons name rest ih =>
      rw [directories, Program.runWith_bind, Program.runWith_perform, Program.runWith_bind]
      simp only [World.perform, ih, Program.runWith_pure, List.filter_cons, decide_eq_true_eq]

/-- The names of a catalog are those of the map, in order. -/
theorem run_list (stands : catalog.StandsFor databases place world.disk) :
    ∃ names, catalog.list.runWith World.perform world = (.ok names, world) ∧
      names.Pairwise (· < ·) ∧ ∀ name, name ∈ names ↔ (databases name).isSome := by
  rcases stands.root with holds | ⟨empty, missing, -⟩
  · obtain ⟨names, listed, sorted, members⟩ := holds.lists
    obtain ⟨others, lists, same⟩ := holds.leads.listAt stands.usable stands.named
    cases same.symm.trans listed
    have every : names.filter (fun name =>
        world.disk.kindAt? (catalog.root.child name) = some .directory) = names := by
      refine List.filter_eq_self.2 fun name member => ?_
      have found := (members name).1 member
      have allowedName := (stands.allowed found).1
      have stood := stands.kindAt?_pathFor allowedName
      rw [found, if_pos rfl, pathFor,
        Path.join_of_isPlain catalog.root (isPlain_of_isName allowedName)] at stood
      exact decide_eq_true stood
    have inOrder : names.mergeSort (fun left right => left ≤ right) = names :=
      List.mergeSort_of_pairwise (sorted.imp fun less => decide_eq_true (le_of_lt less))
    refine ⟨names, ?_, sorted, members⟩
    rw [DatabaseCatalog.list, Task.runWith_bind_of_ok (Task.runWith_perform _ _ _)]
    simp only [World.perform, lists]
    rw [Task.runWith_bind_of_ok (Task.runWith_lift _ _ _), runWith_directories]
    simp only [every, inOrder, Task.runWith_pure]
  · refine ⟨[], ?_, List.Pairwise.nil, fun name => by simp [empty name]⟩
    rw [DatabaseCatalog.list, Task.runWith_bind_of_ok (Task.runWith_perform _ _ _)]
    simp only [World.perform, missing]
    rfl

end StandsFor

/-! ## Requests one after the other -/

/-- The world after requests for databases, each with a name and a digest. -/
def createAll (catalog : DatabaseCatalog) (world : World) (requests : List (String × String)) :
    World :=
  requests.foldl (fun world request =>
    (world.run (catalog.create request.1 request.2).run).2) world

theorem createAll_concat (catalog : DatabaseCatalog) (world : World)
    (requests : List (String × String)) (name digest : String) :
    catalog.createAll world (requests ++ [(name, digest)]) =
      ((catalog.createAll world requests).run (catalog.create name digest).run).2 := by
  rw [createAll, List.foldl_append]
  rfl

/-- A new catalog stands for the requested databases after every sequence of requests. -/
theorem StandsFor.createAll {world : World}
    (start : catalog.StandsFor (created []) place world.disk) (requests : List (String × String))
    (room : ∀ request ∈ requests, isName request.1 → catalog.HasRoom request.1) :
    catalog.StandsFor (created requests) place (catalog.createAll world requests).disk := by
  induction requests using List.reverseRecOn with
  | nil => exact start
  | append_singleton requests request ih =>
      obtain ⟨name, digest⟩ := request
      have before := ih fun other member => room other (List.mem_append_left _ member)
      obtain ⟨refused, taken, added⟩ :=
        before.create (room (name, digest) (by simp)) digest
      rw [createAll_concat, Program.run_eq_runWith, Task.runWith_run]
      have same : created (requests ++ [(name, digest)]) = fun other =>
          (created requests other).or (if isName name ∧ other = name then some digest else none) :=
        funext fun other => created_append requests name digest other
      rw [same]
      cases allowedName : isName name with
      | false =>
          rw [refused allowedName]
          simpa using before
      | true =>
          cases found : created requests name with
          | some stored =>
              rw [taken allowedName (by rw [found, Option.isSome_some])]
              have kept : (fun other => (created requests other).or
                  (if true = true ∧ other = name then some digest else none)) =
                    created requests := by
                funext other
                by_cases equal : other = name
                · rw [equal, found]
                  rfl
                · rw [if_neg (by simp [equal]), Option.or_none]
              rw [kept]
              exact before
          | none => simpa using (added allowedName found).2

/-- A catalog whose root is missing or empty is a map after every sequence of requests for names for
which the file system has room.  A request fails exactly if its name is not allowed or was requested
before, and then it changes nothing.  The list of the databases is the list of the requested names
that are allowed, in order and without repetitions; exactly these are found, each in a directory of
its own directly below the root, with the digest of the first request for it and without nodes,
relationships and indexes. -/
theorem createAll_is_map {world : World} (new : catalog.IsNew world.disk)
    {requests : List (String × String)}
    (room : ∀ request ∈ requests, isName request.1 → catalog.HasRoom request.1) :
    let after := catalog.createAll world requests
    (∀ earlier name digest later, requests = earlier ++ (name, digest) :: later →
      let before := catalog.createAll world earlier
      let ended := before.run (catalog.create name digest).run
      (isName name = false → ended = (.error (.invalidName name), before)) ∧
        (isName name → name ∈ earlier.map Prod.fst →
          ended = (.error (.alreadyExists name), before)) ∧
        (isName name → name ∉ earlier.map Prod.fst → ended.1 = .ok (catalog.pathFor name))) ∧
    (∃ names, (after.run catalog.list.run).1 = .ok names ∧ names.Pairwise (· < ·) ∧
      ∀ name, name ∈ names ↔ isName name ∧ name ∈ requests.map Prod.fst) ∧
    (∀ name, (after.run (catalog.open name).run).1 =
      if isName name ∧ name ∈ requests.map Prod.fst then .ok (catalog.pathFor name)
      else .error (if isName name then .notFound name else .invalidName name)) ∧
    (∀ name digest, isName name → requests.lookup name = some digest →
      (after.run (catalog.digest name).run).1 = .ok (Text.trimString digest) ∧
        after.nodes (catalog.pathFor name) = .ok [] ∧
        after.relationships (catalog.pathFor name) = .ok [] ∧
        after.indexes (catalog.pathFor name) = .empty) ∧
    (∃ place, ∀ name, isName name → name ∈ requests.map Prod.fst →
      after.disk.LeadsTo catalog.root place ∧
        after.disk.LeadsTo (catalog.pathFor name) (place ++ [name])) ∧
    ∀ name other directory, isName name → name ∈ requests.map Prod.fst → isName other →
      other ∈ requests.map Prod.fst → after.disk.LeadsTo (catalog.pathFor name) directory →
      after.disk.LeadsTo (catalog.pathFor other) directory → name = other := by
  intro after
  obtain ⟨place, start⟩ := new.standsFor
  have stands := start.createAll requests room
  have found : ∀ {name}, isName name → name ∈ requests.map Prod.fst →
      (created requests name).isSome := fun allowed requested =>
    (isSome_created requests _).2 ⟨allowed, requested⟩
  refine ⟨?_, ?_, fun name => ?_, fun name digest allowed first => ?_,
    ⟨place, fun name allowed requested => ?_⟩, ?_⟩
  · intro earlier name digest later whole before ended
    subst whole
    have standsBefore := start.createAll earlier fun request member =>
      room request (List.mem_append_left _ member)
    obtain ⟨refused, taken, added⟩ := standsBefore.create (room (name, digest) (by simp)) digest
    have same : ended = (catalog.create name digest).runWith World.perform before := by
      rw [← Task.runWith_run, ← Program.run_eq_runWith]
    rw [same]
    refine ⟨refused, fun allowed earlierRequest => ?_, fun allowed notRequested => ?_⟩
    · exact taken allowed ((isSome_created earlier name).2 ⟨allowed, earlierRequest⟩)
    · refine (added allowed (Option.not_isSome_iff_eq_none.1 fun stood => ?_)).1
      exact notRequested ((isSome_created earlier name).1 stood).2
  · obtain ⟨names, listed, sorted, members⟩ := stands.run_list
    refine ⟨names, ?_, sorted, fun name => (members name).trans (isSome_created requests name)⟩
    rw [Program.run_eq_runWith, Task.runWith_run, listed]
  · rw [Program.run_eq_runWith, Task.runWith_run, stands.run_open name]
    simp only [isSome_created]
  · have stored : created requests name = some digest := by rw [created, if_pos allowed, first]
    refine ⟨?_, stands.collections_eq stored⟩
    rw [Program.run_eq_runWith, Task.runWith_run, stands.run_digest stored]
  · exact ⟨(stands.holds (found allowed requested)).leads,
      stands.leadsTo_pathFor (found allowed requested)⟩
  · intro name other directory allowed requested allowedOther requestedOther leads leadsOther
    have here := (stands.leadsTo_pathFor (found allowed requested)).unique leads
    have there := (stands.leadsTo_pathFor (found allowedOther requestedOther)).unique leadsOther
    exact List.singleton_inj.1 (List.append_cancel_left (here.trans there.symm))

/-- The root and the directory above it are missing; two of the names are not allowed, and one is
requested twice. -/
theorem createAll_is_map_of_missing_root :
    let catalog : DatabaseCatalog := ⟨.ofText "data/root"⟩
    let requests := [("b", " 1\n"), ("..", "2"), (" ü.d ", ""), ("b", "3"), ("x/y", "4")]
    let after := catalog.createAll {} requests
    (∃ names, (after.run catalog.list.run).1 = .ok names ∧ names.Pairwise (· < ·) ∧
      "b" ∈ names ∧ " ü.d " ∈ names ∧ ".." ∉ names ∧ "x/y" ∉ names) ∧
    (after.run (catalog.digest "b").run).1 = .ok "1" ∧
    (after.run (catalog.open "data").run).1 = .error (.notFound "data") ∧
    ((catalog.createAll {} (requests.take 3)).run (catalog.create "b" "3").run).1 =
      .error (.alreadyExists "b") ∧
    after.nodes (catalog.pathFor " ü.d ") = .ok [] := by
  intro catalog requests after
  have new : catalog.IsNew (World.disk {}) :=
    ⟨Or.inl (by decide +kernel), _, Prod.ext (by decide +kernel) rfl, by decide +kernel⟩
  have room : ∀ request ∈ requests, isName request.1 → catalog.HasRoom request.1 := by
    unfold HasRoom Path.Fits
    decide +kernel
  obtain ⟨each, ⟨names, listed, sorted, members⟩, opened, stored, -⟩ := createAll_is_map new room
  obtain ⟨digestB, -⟩ := stored "b" " 1\n" (by decide +kernel) (by decide +kernel)
  obtain ⟨-, nodes, -⟩ := stored " ü.d " "" (by decide +kernel) (by decide +kernel)
  refine ⟨⟨names, listed, sorted, ?_, ?_, ?_, ?_⟩, ?_, ?_, ?_, nodes⟩
  · exact (members _).2 (by decide +kernel)
  · exact (members _).2 (by decide +kernel)
  · exact fun member => absurd ((members _).1 member) (by decide +kernel)
  · exact fun member => absurd ((members _).1 member) (by decide +kernel)
  · rw [digestB]
    decide +kernel
  · rw [opened "data", if_neg (by decide +kernel)]
    decide +kernel
  · exact congrArg Prod.fst ((each (requests.take 3) "b" "3" [("x/y", "4")] (by decide +kernel)).2.1
      (by decide +kernel) (by decide +kernel))

end DatabaseCatalog
end GraphStore
