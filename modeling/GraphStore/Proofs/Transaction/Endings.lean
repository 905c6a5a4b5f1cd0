import GraphStore.Proofs.Transaction.Contents

/-!
# What the end of a transaction does to the files

A commit gives the database an initial segment of the collections of the workspace, and a rollback
nothing.  A transaction that is still active after its commit has the workspace that it had.
-/

namespace GraphStore

variable {place : List String} {world : World}

theorem Tree.LeadsTo.contents_eq {tree : Tree} {path : Path} (leads : tree.LeadsTo path place)
    {file : String} (named : file ≠ "") :
    tree.contents path file =
      if (path.child file).isUsable then (tree.snapshot place file).toOption else none := by
  rw [contents]
  split
  · next usable => rw [leads.readAt_child named usable, snapshot]
  · next unusable =>
      rw [leads.readAt_child_of_not_usable named (Bool.eq_false_iff.2 unusable)]
      rfl

namespace TransactionManager

variable {manager : TransactionManager}

/-- What a commit publishes of the workspace. -/
def publishes (manager : TransactionManager) (tree : Tree) (file : String) : Option Content :=
  if file ∈ Collections.files.takeWhile (manager.canPublish tree) then
    (tree.contents manager.workspace file).or (tree.contents manager.database file)
  else tree.contents manager.database file

theorem Copied.contents {start tree : Tree} {names : List String}
    (copied : manager.Copied place start
      ((start.snapshot place).overlay (manager.working start) names) tree)
    (leads : start.LeadsTo manager.database place)
    (possible : ∀ file ∈ names, manager.canPublish start file)
    {file : String} (named : file ≠ "") :
    tree.contents manager.database file =
      if file ∈ names then
        (start.contents manager.workspace file).or (start.contents manager.database file)
      else start.contents manager.database file := by
  rw [copied.leads.contents_eq named, leads.contents_eq named, copied.shows_,
    Snapshot.overlay_apply]
  split
  · next usable =>
      split
      · change _ = Option.or (manager.working start file).toOption _
        cases manager.working start file <;> rfl
      · rfl
  · next unusable =>
      split
      · next member =>
          -- What can be published can be replaced, and its path can be used.
          cases holds : start.contents manager.workspace file with
          | none => rfl
          | some content =>
              have can := possible file member
              rw [canPublish_of_ok (Tree.readAt_of_contents holds), beq_iff_eq] at can
              rcases leads.replace_cases named content with ⟨replaces, -, -⟩ | ⟨-, refused, -⟩
              · exact absurd replaces.2.1 unusable
              · exact absurd can refused
      · rfl

/-- The workspace is removed, the rest of the directory stays, and no file comes to stand in the
place of the workspace. -/
theorem passes_finish_spares (plain : Path.IsPlain manager.workspaceName)
    (leads : world.disk.LeadsTo manager.database place)
    (avoids : manager.database.Avoids manager.workspaceName)
    (noFile : world.disk.HasNoFile (place ++ [manager.workspaceName])) :
    manager.finish.run.Passes
      (fun stopped => Tree.Spares manager.database place [manager.workspaceName] world.disk
          stopped.disk ∧ stopped.disk.HasNoFile (place ++ [manager.workspaceName]))
      (fun _ after => Tree.Spares manager.database place [manager.workspaceName] world.disk
          after.disk ∧ after.disk.HasNoFile (place ++ [manager.workspaceName])) world := by
  have uses := manager.uses_finish
  rw [workspace, Path.join_of_isPlain _ plain] at uses
  have spares := Program.passes_cleans uses (Tree.Spares.refl leads [manager.workspaceName])
    List.mem_cons_self avoids
  exact spares.and (Program.passes_of_uses
    (fun stopped => stopped.disk.HasNoFile (place ++ [manager.workspaceName])) uses
    (fun none cleans => none.cleaned cleans) noFile)

/-- The end of a transaction leaves the collections of the database as they are. -/
theorem contents_finish (plain : Path.IsPlain manager.workspaceName)
    (leads : world.disk.LeadsTo manager.database place)
    (avoids : manager.database.Avoids manager.workspaceName)
    (noFile : world.disk.HasNoFile (place ++ [manager.workspaceName])) :
    let after := (manager.finish.runWith World.perform world).2
    after.disk.LeadsTo manager.database place ∧ ∀ file, file ≠ "" →
      after.disk.contents manager.database file = world.disk.contents manager.database file := by
  obtain ⟨spares, none⟩ := (passes_finish_spares plain leads avoids noFile).run
  rw [Program.run_eq_runWith] at spares none
  refine ⟨spares.leads, fun file named => spares.contents leads named fun inside => ?_⟩
  rw [List.mem_singleton.1 inside]
  exact ⟨noFile, none⟩

theorem hasNoFile_of_isMarked {owner : Owner} (plain : Path.IsPlain manager.workspaceName)
    (leads : world.disk.LeadsTo manager.database place)
    (marked : world.disk.IsMarked manager.workspace owner) :
    world.disk.HasNoFile (place ++ [manager.workspaceName]) := by
  rw [workspace, Path.join_of_isPlain _ plain] at marked
  obtain ⟨there, _, shows, -⟩ := marked.shows
  rw [leads.unique shows.leads]
  exact shows.hasDirectory.hasNoFile

/-- A commit publishes collections up to the first that cannot be published.  If there is one, the
transaction stays active with its workspace, else it ends. -/
theorem contents_commit (plain : Path.IsPlain manager.workspaceName)
    (leads : world.disk.LeadsTo manager.database place)
    (avoids : manager.database.Avoids manager.workspaceName)
    (active : world.active.contains manager.owner.handle)
    (marked : world.disk.IsMarked manager.workspace manager.owner) :
    let after := (manager.commit.runWith World.perform world).2
    after.disk.LeadsTo manager.database place ∧
      (∀ file, file ≠ "" →
        after.disk.contents manager.database file = manager.publishes world.disk file) ∧
      (after.active.contains manager.owner.handle = false ∧
          Collections.files.takeWhile (manager.canPublish world.disk) = Collections.files ∨
        after.active.contains manager.owner.handle ∧
          Collections.files.takeWhile (manager.canPublish world.disk) ≠ Collections.files ∧
          ∀ file ∈ Collections.files,
            manager.working after.disk file = manager.working world.disk file) := by
  have start : manager.Copied place world.disk (world.disk.snapshot place) world.disk :=
    ⟨leads, rfl, fun _ _ => rfl, fun _ _ => rfl⟩
  let copy := Workspace.copyFiles manager.workspace manager.database Collections.files
  have fills : copy.run.Uses (Action.Fills manager.database) :=
    Workspace.uses_copyFiles trivial fun member => ⟨rfl, member⟩
  have quiet : copy.run.Uses Action.IsQuiet := Workspace.uses_copyFiles trivial fun _ => trivial
  have memory := (World.memory_run quiet world).2
  have passes := start.passes plain fun _ member => member
  obtain ⟨copied, succeeds⟩ := passes.run
  have markedAfter : (world.run copy.run).2.disk.IsMarked manager.workspace manager.owner := by
    rw [workspace, Path.join_of_isPlain _ plain] at marked ⊢
    exact marked.run_beside fills
  have published : ∀ file, file ≠ "" → (world.run copy.run).2.disk.contents manager.database file =
      manager.publishes world.disk file := fun file named =>
    copied.contents leads (fun _ member => List.mem_takeWhile_imp member) named
  rw [runWith_commit_of_marked active marked, Workspace.copyCollections]
  rw [Program.run_eq_runWith, Task.runWith_run] at copied succeeds markedAfter published memory
  rcases ran : copy.runWith World.perform world with ⟨result, mid⟩
  rw [ran] at copied succeeds markedAfter published memory
  cases result with
  | error error =>
      rw [Task.runWith_bind_of_error (by rw [Task.runWith_mapError, ran]; rfl)]
      refine ⟨copied.leads, published, .inr ⟨?_, fun all => ?_, copied.reads⟩⟩
      · rw [memory]
        exact active
      · cases succeeds.2 all
  | ok _ =>
      rw [Task.runWith_bind_of_ok (by rw [Task.runWith_mapError, ran]; rfl)]
      obtain ⟨leadsAfter, same⟩ := contents_finish plain copied.leads avoids
        (hasNoFile_of_isMarked plain copied.leads markedAfter)
      refine ⟨leadsAfter, fun file named => (same file named).trans (published file named),
        .inl ⟨?_, succeeds.1 rfl⟩⟩
      rw [(manager.memory_finish mid).2]
      exact World.contains_setMember _ false _

/-- A rollback leaves the collections of the database as they are, and nobody is active after it. -/
theorem contents_rollback (plain : Path.IsPlain manager.workspaceName)
    (leads : world.disk.LeadsTo manager.database place)
    (avoids : manager.database.Avoids manager.workspaceName)
    (active : world.active.contains manager.owner.handle)
    (marked : world.disk.IsMarked manager.workspace manager.owner) :
    let after := (manager.rollback.runWith World.perform world).2
    after.disk.LeadsTo manager.database place ∧
      (∀ file, file ≠ "" → after.disk.contents manager.database file =
        world.disk.contents manager.database file) ∧
      after.active.contains manager.owner.handle = false := by
  intro after
  have noFile := hasNoFile_of_isMarked plain leads marked
  have same : after = (manager.finish.runWith World.perform world).2 :=
    congrArg Prod.snd (runWith_rollback_of_active active)
  obtain ⟨leadsAfter, kept⟩ := contents_finish plain leads avoids noFile
  refine ⟨same ▸ leadsAfter, fun file named => same ▸ kept file named, ?_⟩
  rw [same, (manager.memory_finish world).2]
  exact World.contains_setMember _ false _

end TransactionManager

/-! ## Opening -/

theorem Tree.LeadsTo.makeDirectoriesAt_snd {tree : Tree} {path : Path}
    (leads : tree.LeadsTo path place) :
    (tree.makeDirectoriesAt path).2 = tree := by
  rw [Tree.makeDirectoriesAt, makeAlong_of_follow leads.1 leads.2]
  split <;> rfl

/-- Opening a handle leaves the collections of the database as they are. -/
theorem Database.contents_open {path : Path} {settings : Settings}
    (leads : world.disk.LeadsTo path place) (avoids : path.Avoids settings.workspaceName) :
    let after := (world.run (Database.open path settings).run).2
    after.disk.LeadsTo path place ∧
      ∀ file, file ≠ "" → after.disk.contents path file = world.disk.contents path file := by
  let name := settings.workspaceName
  by_cases isDirectory : settings.isValid ∧
      world.disk.kindAt? (path.join name) = some .directory
  · obtain ⟨valid, stands⟩ := isDirectory
    have plain := Settings.isPlain_of_isPlainName valid
    have noFile : world.disk.HasNoFile (place ++ [name]) := by
      rw [Path.join_of_isPlain path plain] at stands
      cases usable : (path.child name).isUsable with
      | true =>
          rw [leads.kindAt?_child plain.1 usable] at stands
          exact (Tree.kind?_eq_some_directory.1 stands).hasNoFile
      | false =>
          rw [Tree.kindAt?, Tree.findAt, leads.locate_child plain.1, usable] at stands
          cases stands
    have uses : (Database.open path settings).run.Uses fun action : Action =>
        action = .makeDirectories path ∨ action.Cleans (path.child name) := by
      refine uses_open path settings (fun asks => .inr asks.cleans) fun _ => ?_
      rw [Path.join_of_isPlain path plain]
      exact ⟨.inr trivial, .inl rfl, fun removes => .inr removes.cleans⟩
    obtain ⟨alters, none⟩ := (Program.passes_of_uses (fun stopped : World =>
      Tree.AltersOnly place name world.disk stopped.disk ∧ stopped.disk.HasNoFile (place ++ [name]))
      uses (by
        rintro stopped action ⟨alters, none⟩ (rfl | cleans)
        · simp only [World.perform, World.onDisk]
          rw [(alters.leadsTo leads avoids).makeDirectoriesAt_snd]
          exact ⟨alters, none⟩
        · exact ⟨alters.cleaned leads cleans, none.cleaned cleans⟩)
      ⟨.refl leads.2 name, noFile⟩).run
    have spares := (Tree.Spares.refl leads [name]).alter alters List.mem_cons_self avoids
    refine ⟨spares.leads, fun file named => spares.contents leads named fun inside => ?_⟩
    rw [List.mem_singleton.1 inside]
    exact ⟨noFile, none⟩
  · intro after
    have same : after.disk = world.disk := by
      have kept := disk_runWith_open leads fun valid stands => isDirectory ⟨valid, stands⟩
      rwa [← Task.runWith_run, ← Program.run_eq_runWith] at kept
    rw [same]
    exact ⟨leads, fun _ _ => rfl⟩

end GraphStore
