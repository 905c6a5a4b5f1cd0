import GraphStore.DatabaseCatalog
import GraphStore.Proofs.Disk.Entries
import GraphStore.Proofs.Disk.Lengths
import GraphStore.Proofs.Index.Catalogs
import GraphStore.Proofs.Program.Runs
import GraphStore.Proofs.Store.Documents

/-!
# New databases

A database that was created is a directory with the files that it was created with.
-/

namespace GraphStore

/-- A file that was replaced successfully could be replaced. -/
theorem Document.runWith_replace_eq_ok {world after : World} {directory : Path}
    {place : List String} (leads : world.disk.LeadsTo directory place) {name : String}
    (named : name ≠ "") {content : Content}
    (ran : (replace directory name content).runWith World.perform world = (.ok (), after)) :
    world.disk.CanReplace directory place name ∧
      after.disk = world.disk.update (place ++ [name]) (some (.file content)) := by
  rw [replace, Task.runWith_bind_of_ok (Task.runWith_perform _ _ _)] at ran
  simp only [World.perform, World.onDisk] at ran
  rcases leads.replace_cases named content with
    ⟨possible, -, replaced⟩ | ⟨-, refused, unchanged⟩
  · rw [replaced] at ran
    cases ran
    exact ⟨possible, rfl⟩
  · rw [unchanged] at ran
    simp only at ran
    split at ran
    · next done => exact absurd done refused
    · cases ran
    · cases ran

namespace DatabaseCatalog

theorem isPlain_of_isName {name : String} (allowed : isName name) : Path.IsPlain name := by
  simp only [isName, Bool.and_eq_true, bne_iff_ne, ne_eq, Bool.not_eq_true',
    List.contains_eq_mem, decide_eq_false_iff_not] at allowed
  obtain ⟨⟨⟨⟨⟨visible, notDot⟩, notDots⟩, noSlash⟩, -⟩, -⟩ := allowed
  refine ⟨?_, notDot, notDots, noSlash⟩
  rintro rfl
  exact visible (by decide)

/-- Files that were written one after the other are there, the other entries are kept, and no others
are added. -/
theorem runWith_writeFiles_eq_ok {directory : Path} {place : List String}
    {files : List (String × String)} (named : ∀ file ∈ files, file.1 ≠ "")
    (distinct : (files.map Prod.fst).Nodup) {world after : World}
    (leads : world.disk.LeadsTo directory place)
    (ran : (writeFiles directory files).runWith World.perform world = (.ok (), after)) :
    after.disk.LeadsTo directory place ∧
      (∀ file ∈ files, after.disk.read (place ++ [file.1]) = .ok (.text file.2)) ∧
      (∀ other ∉ files.map Prod.fst,
        after.disk.find (place ++ [other]) = world.disk.find (place ++ [other])) ∧
      ∀ names namesAfter, world.disk.list place = .ok names →
        after.disk.list place = .ok namesAfter → namesAfter ⊆ files.map Prod.fst ++ names := by
  induction files generalizing world with
  | nil =>
      cases ran
      refine ⟨leads, by simp, by simp, fun names namesAfter lists listsAfter => ?_⟩
      cases lists.symm.trans listsAfter
      exact fun name member => member
  | cons file rest ih =>
      obtain ⟨name, text⟩ := file
      obtain ⟨fresh, distinctRest⟩ := List.nodup_cons.1 distinct
      rw [writeFiles, Task.runWith_bind] at ran
      split at ran
      · next between wrote =>
          obtain ⟨possible, disk⟩ := Document.runWith_replace_eq_ok leads
            (named (name, text) List.mem_cons_self) wrote
          obtain ⟨leadsBetween, finds⟩ := leads.replaced (.text text) possible
          rw [← disk] at leadsBetween finds
          obtain ⟨leadsAfter, written, kept, added⟩ := ih
            (fun other member => named other (List.mem_cons_of_mem _ member)) distinctRest
            leadsBetween ran
          refine ⟨leadsAfter, List.forall_mem_cons.2 ⟨?_, written⟩, fun other absent => ?_,
            fun names namesAfter lists listsAfter => ?_⟩
          · rw [Tree.read, kept name fresh, finds name, if_pos rfl]
          · simp only [List.map_cons, List.mem_cons, not_or] at absent
            rw [kept other absent.2, finds other, if_neg absent.1]
          · obtain ⟨namesBetween, listsBetween, new⟩ :=
              leads.2.list_update lists name (.file (.text text))
            rw [← disk] at listsBetween
            intro other member
            rcases List.mem_append.1 (added namesBetween namesAfter listsBetween listsAfter member)
              with written | old
            · exact List.mem_append_left _ (List.mem_cons_of_mem name written)
            · rcases List.mem_cons.1 (new old) with rfl | old
              · exact List.mem_append_left _ List.mem_cons_self
              · exact List.mem_append_right _ old
      · cases ran

theorem ne_empty_of_mem_initialFiles (digest : String) :
    ∀ file ∈ initialFiles digest, file.1 ≠ "" := by
  simp [initialFiles, Collections.nodesFile, Collections.relationshipsFile,
    Collections.indexesFile, digestFile]

theorem nodup_initialFiles (digest : String) : ((initialFiles digest).map Prod.fst).Nodup := by
  simp [initialFiles, Collections.nodesFile, Collections.relationshipsFile,
    Collections.indexesFile, digestFile]

/-- The initial file of the indexes holds the catalog without indexes. -/
theorem ofContent_initial_indexes (path : Path) :
    Document.ofContent path (.ok (.text "{}")) = .ok (some IndexCatalog.empty.toJson) := by
  have written := @Document.ofContent_write path .compact IndexCatalog.empty.toJson rfl
    (fun number member => absurd member List.not_mem_nil) (by decide)
  rwa [IndexCatalog.reread_toJson] at written

/-- Creating a database makes its directory and writes its files. -/
theorem run_create_eq_ok {catalog : DatabaseCatalog} {name digest : String} {path : Path}
    {before after : World}
    (ran : before.run (catalog.create name digest).run = (.ok path, after)) :
    isName name ∧ path = catalog.pathFor name ∧ before.disk.kindAt? path = none ∧ ∃ disk,
      before.disk.makeDirectoriesAt path = (true, disk) ∧
      (writeFiles path (initialFiles digest)).runWith World.perform { before with disk } =
        (.ok (), after) := by
  rw [Program.run_eq_runWith, Task.runWith_run, create] at ran
  cases allowed : isName name with
  | false =>
      rw [allowed] at ran
      cases ran
  | true =>
      simp only [allowed, Bool.not_true, Bool.false_eq_true, if_false] at ran
      rw [Task.runWith_bind_of_ok (Task.runWith_perform _ _ _)] at ran
      simp only [World.perform] at ran
      cases stands : (before.disk.kindAt? (catalog.pathFor name)).isSome with
      | true =>
          simp only [stands, if_true] at ran
          cases ran
      | false =>
          simp only [stands, Bool.false_eq_true, if_false] at ran
          rw [Task.runWith_bind_of_ok (Task.runWith_perform _ _ _)] at ran
          simp only [World.perform, World.onDisk] at ran
          rcases made : before.disk.makeDirectoriesAt (catalog.pathFor name) with ⟨_ | _, disk⟩
          · simp only [made, Bool.not_false, if_true] at ran
            cases ran
          · simp only [made, Bool.not_true, Bool.false_eq_true, if_false] at ran
            rw [Task.runWith_bind, Task.runWith_mapError] at ran
            rcases wrote : (writeFiles (catalog.pathFor name) (initialFiles digest)).runWith
              World.perform { before with disk } with ⟨error | done, written⟩
            · rw [wrote] at ran
              cases ran
            · rw [wrote] at ran
              cases ran
              exact ⟨rfl, rfl, Option.isNone_iff_eq_none.1 (by simpa using stands), disk, made, wrote⟩

/-- A database that was created is in a directory that holds its files. -/
theorem read_of_run_create {catalog : DatabaseCatalog} {name digest : String} {path : Path}
    {before after : World}
    (ran : before.run (catalog.create name digest).run = (.ok path, after)) :
    ∃ place, after.disk.LeadsTo path place ∧ ∀ file ∈ initialFiles digest,
      after.disk.read (place ++ [file.1]) = .ok (.text file.2) := by
  obtain ⟨allowed, rfl, -, disk, made, wrote⟩ := run_create_eq_ok ran
  rw [pathFor, Path.join_of_isPlain catalog.root (isPlain_of_isName allowed)] at made wrote ⊢
  obtain ⟨place, leads⟩ := Tree.LeadsTo.of_makeDirectoriesAt made
  obtain ⟨leadsAfter, written, -⟩ := runWith_writeFiles_eq_ok (ne_empty_of_mem_initialFiles digest)
    (nodup_initialFiles digest) leads wrote
  exact ⟨place, leadsAfter, written⟩

/-- Below an existing root, a database that was created holds nothing else than its files. -/
theorem listAt_of_run_create {catalog : DatabaseCatalog} {name digest : String} {path : Path}
    {before after : World} {place : List String} (root : before.disk.LeadsTo catalog.root place)
    (ran : before.run (catalog.create name digest).run = (.ok path, after)) :
    ∃ names, after.disk.listAt path = .ok names ∧ names ⊆ (initialFiles digest).map Prod.fst := by
  obtain ⟨allowed, rfl, free, disk, made, wrote⟩ := run_create_eq_ok ran
  have plain := isPlain_of_isName allowed
  rw [pathFor, Path.join_of_isPlain catalog.root plain] at free made wrote ⊢
  obtain ⟨usable, leads, empty⟩ := root.of_makeDirectoriesAt_child plain.1 free made
  obtain ⟨leadsAfter, -, -, added⟩ := runWith_writeFiles_eq_ok (ne_empty_of_mem_initialFiles digest)
    (nodup_initialFiles digest) leads wrote
  obtain ⟨names, lists, listed⟩ :=
    leadsAfter.listAt usable (Tree.child_text_ne_empty catalog.root plain.1)
  have only := added [] names empty listed
  rw [List.append_nil] at only
  exact ⟨names, lists, only⟩

end DatabaseCatalog
end GraphStore
