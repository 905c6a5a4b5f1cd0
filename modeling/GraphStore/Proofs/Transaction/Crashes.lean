import GraphStore.Proofs.Transaction.Passages
import GraphStore.Proofs.Transaction.References

/-!
# References wherever a handle is stopped

One handle works on a directory, and nobody else writes to it.  Wherever it is stopped, in the
middle of any operation, the collections of the directory load and no reference dangles.  This rests
on the order in which files are replaced, and on the workspace: it loads as well, and it has all
nodes that the database has, so that the relationships of the database have their nodes also after a
commit has published the nodes only.
-/

namespace GraphStore

open Collections

variable {path : Path} {place : List String} {name : String} {world : World}

theorem mem_files_of_mem_pair {file : String} (member : file ∈ [nodesFile, relationshipsFile]) :
    file ∈ files := by
  rcases List.mem_pair.1 member with rfl | rfl
  · exact List.mem_cons_self
  · exact List.mem_cons_of_mem _ List.mem_cons_self

/-! ## Directories that load -/

namespace Tree

/-- Whether the nodes and the relationships in a directory can be read and load, and no reference
dangles. -/
structure IsWhole (tree : Tree) (path : Path) (place : List String) : Prop where
  leads : tree.LeadsTo path place
  readable : ∀ file ∈ [nodesFile, relationshipsFile],
    tree.readAt (path.child file) ≠ .error .obstructed
  intact : Intact (tree.contents path nodesFile) (tree.contents path relationshipsFile)

variable {before after tree : Tree}

/-- What spares the files of the nodes and of the relationships leaves a directory that loads. -/
theorem IsWhole.spared {names : List String} (whole : before.IsWhole path place)
    (spares : Spares path place names before after)
    (apart : ∀ file ∈ [nodesFile, relationshipsFile], file ∉ names) :
    after.IsWhole path place := by
  have same : ∀ file ∈ [nodesFile, relationshipsFile],
      after.readAt (path.child file) = before.readAt (path.child file) := fun file member =>
    spares.readAt whole.leads (ne_empty_of_mem_files (mem_files_of_mem_pair member)) (apart file member)
  refine ⟨spares.leads, fun file member => ?_, ?_⟩
  · rw [same file member]
    exact whole.readable file member
  · rw [contents, contents, same _ (by decide), same _ (by decide)]
    exact whole.intact

/-- What loads from a directory. -/
theorem IsWhole.loads {stopped : World} (whole : stopped.disk.IsWhole path place) :
    ∃ nodes relationships, stopped.nodes path = .ok nodes ∧
      stopped.relationships path = .ok relationships ∧
      ∀ relationship ∈ relationships, relationship.startNode ∈ nodes.map Node.id ∧
        relationship.endNode ∈ nodes.map Node.id := by
  have holds := World.holds_storeAt whole.leads
  obtain ⟨nodes, nodesLoad⟩ :=
    whole.intact.nodesLoad.loads (whole.readable _ (by decide)) (path.child nodesFile)
  obtain ⟨relationships, relationshipsLoad⟩ := whole.intact.relationshipsLoad.loads
    (whole.readable _ (by decide)) (path.child relationshipsFile)
  have nodesLoadHere := holds.nodes_eq.trans nodesLoad
  have relationshipsLoadHere := holds.relationships_eq.trans relationshipsLoad
  have refers : stopped.disk.Refers path := whole.intact.refers
  exact ⟨nodes, relationships, nodesLoadHere, relationshipsLoadHere,
    refers.loaded whole.leads nodesLoadHere relationshipsLoadHere⟩

/-- A directory loads if what loads from it has no dangling references. -/
theorem isWhole_of_loads {start : World} (leads : start.disk.LeadsTo path place)
    {nodes : List Node} {relationships : List Relationship}
    (nodesLoad : start.nodes path = .ok nodes)
    (relationshipsLoad : start.relationships path = .ok relationships)
    (refers : ∀ relationship ∈ relationships, relationship.startNode ∈ nodes.map Node.id ∧
      relationship.endNode ∈ nodes.map Node.id) : start.disk.IsWhole path place := by
  have holds := World.holds_storeAt leads
  have nodesThere : (start.storeAt path).nodes path = .ok nodes := holds.nodes_eq ▸ nodesLoad
  have relationshipsThere : (start.storeAt path).relationships path = .ok relationships :=
    holds.relationships_eq ▸ relationshipsLoad
  refine ⟨leads, fun file member obstructed => ?_, Document.loadable_of_loads nodesThere,
    Document.loadable_of_loads relationshipsThere, ?_⟩
  · rcases List.mem_pair.1 member with rfl | rfl
    · change Document.itemsOfContent _ _ (start.disk.readAt _) = _ at nodesThere
      rw [obstructed] at nodesThere
      cases nodesThere
    · change Document.itemsOfContent _ _ (start.disk.readAt _) = _ at relationshipsThere
      rw [obstructed] at relationshipsThere
      cases relationshipsThere
  · change (start.storeAt path).endpoints ⊆ (start.storeAt path).nodeIds
    rw [Store.nodeIds_of_nodes nodesThere, Store.endpoints_of_relationships relationshipsThere]
    intro id member
    obtain ⟨relationship, stored, isEnd⟩ := List.mem_flatMap.1 member
    obtain ⟨starts, ends⟩ := refers relationship stored
    rcases List.mem_pair.1 isEnd with rfl | rfl
    · exact starts
    · exact ends

end Tree

/-! ## Publishing a part of a workspace -/

/-- Collections of which a part was published load, if the workspace has all the nodes. -/
theorem Collections.intact_of_part {database workspace shown : String → Option Content}
    {part : List String} (isPrefix : part <+: files)
    (shows : ∀ file ∈ [nodesFile, relationshipsFile], shown file =
      if file ∈ part then (workspace file).or (database file) else database file)
    (intact : Intact (database nodesFile) (database relationshipsFile))
    (working : part ≠ [] → Intact (workspace nodesFile) (workspace relationshipsFile) ∧
      nodeIds (database nodesFile) ⊆ nodeIds (workspace nodesFile)) :
    Intact (shown nodesFile) (shown relationshipsFile) := by
  rw [shows _ (by decide), shows _ (by decide)]
  by_cases nothing : part = []
  · subst nothing
    exact intact
  obtain ⟨working, grows⟩ := working nothing
  have first : nodesFile ∈ part := by
    obtain ⟨file, rest, rfl⟩ := List.exists_cons_of_ne_nil nothing
    rw [← (List.cons_prefix_cons.1 isPrefix).1]
    exact List.mem_cons_self
  rw [if_pos first]
  cases nodes : workspace nodesFile with
  | none =>
      -- The workspace has no nodes, so its relationships refer to none.
      rw [nodes] at working
      split
      · cases relationships : workspace relationshipsFile with
        | none => exact intact
        | some content =>
            rw [relationships] at working
            exact ⟨intact.nodesLoad, working.relationshipsLoad,
              List.Subset.trans working.refers (List.nil_subset _)⟩
      · exact intact
  | some content =>
      rw [nodes] at working grows
      have kept : Intact (some content) (database relationshipsFile) :=
        ⟨working.nodesLoad, intact.relationshipsLoad, List.Subset.trans intact.refers grows⟩
      split
      · cases relationships : workspace relationshipsFile with
        | none => exact kept
        | some other =>
            rw [relationships] at working
            exact working
      · exact kept

namespace TransactionManager

variable {manager : TransactionManager} {start tree : Tree} {part : List String}

/-- A directory that shows a part of its workspace loads. -/
theorem Exposes.isWhole (exposes : manager.Exposes place start part tree)
    (isPrefix : part <+: files) (whole : start.IsWhole manager.database place)
    (avoids : manager.database.Avoids manager.workspaceName)
    (apart : manager.workspaceName ∉ [nodesFile, relationshipsFile])
    (working : part ≠ [] → Intact (start.contents manager.workspace nodesFile)
        (start.contents manager.workspace relationshipsFile) ∧
      nodeIds (start.contents manager.database nodesFile) ⊆
        nodeIds (start.contents manager.workspace nodesFile)) :
    tree.IsWhole manager.database place := by
  have leads : tree.LeadsTo manager.database place := by
    obtain ⟨mid, leads, -, alters⟩ := exposes
    exact alters.leadsTo leads avoids
  have shows : ∀ file ∈ [nodesFile, relationshipsFile],
      tree.readAt (manager.database.child file) =
          (start.snapshot place).overlay (manager.working start) part file ∧
        start.snapshot place file = start.readAt (manager.database.child file) := by
    intro file member
    have named := ne_empty_of_mem_files (mem_files_of_mem_pair member)
    have usable : (manager.database.child file).isUsable := by
      by_contra unusable
      exact whole.readable file member
        (whole.leads.readAt_child_of_not_usable named (Bool.eq_false_iff.2 unusable))
    have differs : file ≠ manager.workspaceName := fun same => apart (same ▸ member)
    rw [leads.readAt_child named usable, whole.leads.readAt_child named usable]
    exact ⟨exposes.snapshot_eq differs, rfl⟩
  refine ⟨leads, fun file member => ?_, ?_⟩
  · rw [(shows file member).1, Snapshot.overlay_apply, (shows file member).2]
    split
    · split
      · rintro ⟨⟩
      · exact whole.readable file member
    · exact whole.readable file member
  · refine intact_of_part isPrefix (fun file member => ?_) whole.intact working
    rw [Tree.contents, (shows file member).1, Snapshot.overlay_apply, (shows file member).2]
    split
    · rw [Tree.contents, Tree.contents]
      change _ = (manager.working start file).toOption.or _
      cases manager.working start file <;> rfl
    · rfl

end TransactionManager

/-! ## Operations -/

namespace Database

variable {handle : Database} {operation : Operation}

/-- What one handle does to a directory with nobody else at work: the run so far, from the opening
of the handle on. -/
inductive Solitary (path : Path) : Database → World → Prop where
  /-- The handle is opened while no other is, and the collections load without dangling references.
  The workspace has not the name of one of their files, and the path of the directory does not lead
  through the workspace or through a directory in which a workspace is assembled. -/
  | opened {place : List String} {world after : World} {settings : Settings} {database : Database}
      {nodes : List Node} {relationships : List Relationship}
      (alone : world.live = [] ∧ world.active = []) (process : world.process < 2 ^ 32)
      (avoids : path.Avoids settings.workspaceName)
      (fresh : ∀ number, world.nextNumber ≤ number →
        path.Avoids (Replacement.temporaryName settings.workspaceName (Identifier.token number)))
      (apart : settings.workspaceName ∉ [nodesFile, relationshipsFile])
      (ran : world.run (Database.open path settings).run = (.ok database, after))
      (leads : after.disk.LeadsTo path place) (nodesLoad : after.nodes path = .ok nodes)
      (relationshipsLoad : after.relationships path = .ok relationships)
      (refers : ∀ relationship ∈ relationships, relationship.startNode ∈ nodes.map Node.id ∧
        relationship.endNode ∈ nodes.map Node.id) :
      Solitary path database after
  /-- The handle serves an operation, whose numbers are finite.  A workspace is assembled under a
  name that is not in use. -/
  | served {database : Database} {world : World} {operation : Operation}
      (run : Solitary path database world)
      (unused : operation = .begin → world.disk.kindAt? (path.child (Replacement.temporaryName
        database.settings.workspaceName (Identifier.token world.nextNumber))) = none)
      (finite : operation.statement.isFinite) :
      Solitary path database (world.run (database.serve operation)).2

/-- What holds all along such a run. -/
structure IsGuarded (path : Path) (place : List String) (name : String) (handle : Database)
    (world : World) : Prop where
  isOn : handle.IsOn path name world.process
  plain : Path.IsPlain name
  process : world.process < 2 ^ 32
  avoids : path.Avoids name
  apart : name ∉ [nodesFile, relationshipsFile]
  fresh : ∀ number, world.nextNumber ≤ number →
    path.Avoids (Replacement.temporaryName name (Identifier.token number))
  held : ∃ holder, world.HasHolder path name holder
  database : world.disk.IsWhole path place
  workspace : world.active.contains handle.name →
    Intact (world.disk.contents (path.child name) nodesFile)
        (world.disk.contents (path.child name) relationshipsFile) ∧
      nodeIds (world.disk.contents path nodesFile) ⊆
        nodeIds (world.disk.contents (path.child name) nodesFile)

namespace IsGuarded

variable (guarded : handle.IsGuarded path place name world)

include guarded

/-- What is done on the database by a statement. -/
theorem passes_onDatabase (statement : operation.IsChange = false)
    (finite : operation.statement.isFinite) :
    (handle.serveBare false operation).Passes (fun stopped => stopped.disk.IsWhole path place)
      (fun _ _ => True) world := by
  have uses := handle.uses_serveBare statement false
  have there : handle.manager.targetIf false = path := guarded.isOn.database
  rw [there] at uses
  have advances := handle.advances_serveBare statement false (world.storeAt path)
  refine (advances.simulates (fun world store => world.Holds path place store)
    (fun holds concerns => holds.perform concerns) uses
    (World.holds_storeAt guarded.database.leads)).mono ?_ fun _ => trivial
  rintro stopped ⟨store, progress, holds⟩
  have intact : store.Intact := progress.intact finite guarded.database.intact
  refine ⟨holds.leads, fun file member => ?_, ?_⟩
  · rw [holds.read file (mem_files_of_mem_pair member)]
    exact progress.readable (guarded.database.readable file member)
  · rw [Tree.contents, Tree.contents, holds.read _ (by decide), holds.read _ (by decide)]
    exact intact

theorem shows (active : world.active.contains handle.name) :
    ∃ workspace, world.disk.Shows path place name workspace := by
  obtain ⟨holder, held⟩ := guarded.held
  obtain ⟨-, -, marked⟩ := guarded.isOn.marked_of_active held active
  obtain ⟨above, workspace, shows, -⟩ := marked.shows
  obtain rfl := guarded.database.leads.unique shows.leads
  exact ⟨workspace, shows⟩

/-- What spares all entries but the workspace leaves a directory that loads. -/
theorem isWhole_of_spares {tree : Tree} (spares : Tree.Spares path place [name] world.disk tree) :
    tree.IsWhole path place := by
  refine guarded.database.spared spares fun file member inside => guarded.apart ?_
  rwa [← List.mem_singleton.1 inside]

/-- What is done in the workspace by a statement. -/
theorem passes_onWorkspace (statement : operation.IsChange = false)
    (active : world.active.contains handle.name) :
    (handle.serveBare true operation).Passes (fun stopped => stopped.disk.IsWhole path place)
      (fun _ _ => True) world := by
  obtain ⟨workspace, shows⟩ := guarded.shows active
  have uses := handle.uses_serveBare statement true
  rw [show handle.manager.targetIf true = path.child name from
    guarded.isOn.workspace_eq guarded.plain] at uses
  exact (Program.passes_fills_child (uses.mono fun concerns => concerns.fills)
    guarded.database.leads guarded.avoids shows.leadsTo_child).mono
      (fun spared => guarded.isWhole_of_spares spared.1) fun _ => trivial

theorem passes_begin
    (unused : world.disk.kindAt? (path.child (Replacement.temporaryName name
      (Identifier.token world.nextNumber))) = none) :
    handle.manager.begin.run.Passes (fun stopped => stopped.disk.IsWhole path place)
      (fun _ _ => True) world := by
  obtain rfl := guarded.isOn.database
  obtain rfl := guarded.isOn.workspaceName
  refine (TransactionManager.passes_begin guarded.plain guarded.database.leads guarded.avoids
    (guarded.fresh _ (Nat.le_refl _)) unused).mono (fun spared => ?_) fun _ => trivial
  refine guarded.database.spared spared fun file member inside => ?_
  rcases List.mem_pair.1 inside with rfl | rfl
  · exact @TransactionManager.hiddenName_not_mem_files handle.manager world.nextNumber
      (mem_files_of_mem_pair member)
  · exact guarded.apart member

theorem passes_commit :
    handle.manager.commit.run.Passes (fun stopped => stopped.disk.IsWhole path place)
      (fun _ _ => True) world := by
  obtain rfl := guarded.isOn.database
  obtain rfl := guarded.isOn.workspaceName
  refine (TransactionManager.passes_commit guarded.plain guarded.database.leads).mono ?_
    fun _ => trivial
  rintro stopped ⟨part, isPrefix, exposes⟩
  have within : part <+: files := by
    refine isPrefix.trans ?_
    unfold TransactionManager.published
    split
    · exact List.takeWhile_prefix _
    · exact List.nil_prefix
  refine exposes.isWhole within guarded.database guarded.avoids guarded.apart fun some => ?_
  have active : world.active.contains handle.name := by
    by_contra idle
    rw [TransactionManager.published, if_neg fun both => idle both.1] at isPrefix
    exact some (List.prefix_nil.1 isPrefix)
  rw [guarded.isOn.workspace_eq guarded.plain]
  exact guarded.workspace active

theorem passes_rollback :
    handle.manager.rollback.run.Passes (fun stopped => stopped.disk.IsWhole path place)
      (fun _ _ => True) world := by
  have cleans : handle.manager.rollback.run.Uses (Action.Cleans (path.child name)) := by
    rw [← guarded.isOn.workspace_eq guarded.plain]
    refine Program.uses_taskBind (Program.uses_lift (Program.uses_perform trivial)) fun active => ?_
    split
    · trivial
    · exact handle.manager.uses_finish
  exact (Program.passes_cleans cleans (Tree.Spares.refl guarded.database.leads [name])
    List.mem_cons_self guarded.avoids).mono guarded.isWhole_of_spares fun _ => trivial

theorem congr {other : World} (same : other.unlocked = world.unlocked) :
    handle.IsGuarded path place name other := by
  have disk := World.disk_congr same
  obtain ⟨holder, held⟩ := guarded.held
  refine ⟨?_, guarded.plain, ?_, guarded.avoids, guarded.apart, ?_, ⟨holder, held.congr same⟩,
    disk ▸ guarded.database, ?_⟩
  · exact World.process_congr same ▸ guarded.isOn
  · exact World.process_congr same ▸ guarded.process
  · exact World.nextNumber_congr same ▸ guarded.fresh
  · rw [World.active_congr same, disk]
    exact guarded.workspace

/-- Wherever the handle is stopped while it serves an operation, the directory loads. -/
theorem passes_serve (finite : operation.statement.isFinite)
    (unused : operation = .begin → world.disk.kindAt? (path.child (Replacement.temporaryName name
      (Identifier.token world.nextNumber))) = none) :
    (handle.serve operation).Passes (fun stopped => stopped.disk.IsWhole path place)
      (fun _ after => after.disk.IsWhole path place) world := by
  refine @Database.passes_serve world handle operation (fun disk => disk.IsWhole path place)
    guarded.database fun inside same => ?_
  have there := guarded.congr same
  suffices passes : (handle.serveBare (world.active.contains handle.name) operation).Passes
      (fun stopped => stopped.disk.IsWhole path place) (fun _ _ => True) inside from
    (passes.keeps there.database).mono id And.right
  by_cases statement : operation.IsChange = false
  · cases active : world.active.contains handle.name with
    | false => exact there.passes_onDatabase statement finite
    | true =>
        rw [← World.active_congr same] at active
        exact there.passes_onWorkspace statement active
  · cases operation with
    | begin =>
        have free := unused rfl
        rw [← World.disk_congr same, ← World.nextNumber_congr same] at free
        exact Program.passes_map (there.passes_begin free)
    | commit => exact Program.passes_map there.passes_commit
    | rollback => exact Program.passes_map there.passes_rollback
    | _ => exact absurd rfl statement

/-- While the transaction of the handle is active, the workspace loads and has all the nodes. -/
theorem workspace_serving {after : World} {reply : Reply} (finite : operation.statement.isFinite)
    (serving : handle.Serving world after operation reply)
    (active : after.active.contains handle.name) :
    Intact (after.disk.contents (path.child name) nodesFile)
        (after.disk.contents (path.child name) relationshipsFile) ∧
      nodeIds (after.disk.contents path nodesFile) ⊆
        nodeIds (after.disk.contents (path.child name) nodesFile) := by
  have there := guarded.isOn.workspace_eq guarded.plain
  have database := guarded.isOn.database
  cases serving with
  | onDatabase statement idle acts spares still =>
      rw [still, idle] at active
      cases active
  | onWorkspace statement isActive acts same still =>
      obtain ⟨intact, grows⟩ := guarded.workspace isActive
      rw [there] at acts
      rw [database] at same
      have progress := (handle.advances_serveBare statement true
        (world.storeAt (path.child name))).runWith
      have reached := progress.intact finite intact
      rw [same nodesFile (by decide), Tree.contents, Tree.contents, acts.reads _ (by decide),
        acts.reads _ (by decide)]
      exact ⟨reached, List.Subset.trans grows progress.nodeIds_subset⟩
  | begun idle same copied isActive =>
      rw [there, database] at copied
      rw [database] at same
      rw [copied nodesFile (by decide), copied relationshipsFile (by decide),
        same nodesFile (by decide)]
      exact ⟨guarded.database.intact, List.Subset.refl _⟩
  | committed isActive all same idle | rolledBack isActive same idle =>
      rw [idle] at active
      cases active
  | interrupted isActive some same kept still =>
      obtain ⟨intact, grows⟩ := guarded.workspace isActive
      rw [there] at kept
      rw [database] at same
      rw [kept nodesFile (by decide), kept relationshipsFile (by decide), same nodesFile (by decide)]
      refine ⟨intact, ?_⟩
      rw [TransactionManager.publishes, there, database]
      split
      · cases nodes : world.disk.contents (path.child name) nodesFile with
        | none =>
            rw [nodes] at grows
            exact grows
        | some content => exact List.Subset.refl _
      · exact grows
  | refused change same spares still =>
      rw [still] at active
      obtain ⟨holder, held⟩ := guarded.held
      obtain ⟨-, -, marked⟩ := guarded.isOn.marked_of_active held active
      rw [there] at spares
      rw [database] at same
      have kept := spares _ marked
      rw [kept nodesFile (by decide), kept relationshipsFile (by decide), same nodesFile (by decide)]
      exact guarded.workspace active

/-- What holds of the run goes on holding. -/
theorem served (finite : operation.statement.isFinite)
    (unused : operation = .begin → world.disk.kindAt? (path.child (Replacement.temporaryName name
      (Identifier.token world.nextNumber))) = none) :
    handle.IsGuarded path place name (world.run (handle.serve operation)).2 := by
  obtain ⟨holder, held⟩ := guarded.held
  have avoidsStaging := guarded.fresh _ (Nat.le_refl _)
  obtain ⟨next, heldAfter, -⟩ := guarded.isOn.hasHolder_serve guarded.plain held guarded.process
    avoidsStaging operation
  obtain ⟨serving, -⟩ := guarded.isOn.serving operation guarded.plain held guarded.database.leads
    guarded.avoids avoidsStaging unused
  have sameProcess := World.process_run (handle.serve operation) world
  have later := World.nextNumber_le_run (handle.serve operation) world
  exact ⟨sameProcess.symm ▸ guarded.isOn, guarded.plain, sameProcess.symm ▸ guarded.process,
    guarded.avoids, guarded.apart, fun number above => guarded.fresh number (later.trans above),
    ⟨next, heldAfter⟩, (guarded.passes_serve finite unused).run,
    fun active => guarded.workspace_serving finite serving active⟩

end IsGuarded

theorem isGuarded_of_open {world after : World} {settings : Settings} {nodes : List Node}
    {relationships : List Relationship} (alone : world.live = [] ∧ world.active = [])
    (process : world.process < 2 ^ 32) (avoids : path.Avoids settings.workspaceName)
    (fresh : ∀ number, world.nextNumber ≤ number →
      path.Avoids (Replacement.temporaryName settings.workspaceName (Identifier.token number)))
    (apart : settings.workspaceName ∉ [nodesFile, relationshipsFile])
    (ran : world.run (Database.open path settings).run = (.ok handle, after))
    (leads : after.disk.LeadsTo path place) (nodesLoad : after.nodes path = .ok nodes)
    (relationshipsLoad : after.relationships path = .ok relationships)
    (refers : ∀ relationship ∈ relationships, relationship.startNode ∈ nodes.map Node.id ∧
      relationship.endNode ∈ nodes.map Node.id) :
    handle.IsGuarded path place settings.workspaceName after := by
  obtain ⟨valid, rfl⟩ := open_eq_ok ran
  obtain rfl : (world.run (Database.open path settings).run).2 = after := by rw [ran]
  have memory := memory_run_open path settings world
  have sameProcess := World.process_run (Database.open path settings).run world
  refine ⟨⟨rfl, rfl, sameProcess.symm⟩, Settings.isPlain_of_isPlainName valid,
    sameProcess ▸ process, avoids, apart, fun number later => fresh number ?_,
    ⟨none, memory.1.trans alone.1, memory.2.trans alone.2⟩,
    Tree.isWhole_of_loads leads nodesLoad relationshipsLoad refers, fun active => ?_⟩
  · exact Nat.le_trans (World.nextNumber_le_run _ world) later
  · rw [memory.2, alone.2] at active
    cases active

theorem Solitary.isGuarded {world : World} (run : Solitary path handle world) :
    ∃ place, handle.IsGuarded path place handle.settings.workspaceName world := by
  induction run with
  | opened alone process avoids fresh apart ran leads nodesLoad relationshipsLoad refers =>
      obtain ⟨-, rfl⟩ := open_eq_ok ran
      exact ⟨_, isGuarded_of_open alone process avoids fresh apart ran leads nodesLoad
        relationshipsLoad refers⟩
  | served run unused finite ih =>
      obtain ⟨place, guarded⟩ := ih
      exact ⟨place, guarded.served finite unused⟩

/-- Wherever a handle is stopped that nobody else disturbs, the nodes and the relationships of its
directory load, and every relationship refers to stored nodes. -/
theorem Solitary.loads_where_stopped {world : World} (run : Solitary path handle world)
    {operation : Operation} (finite : operation.statement.isFinite)
    (unused : operation = .begin → world.disk.kindAt? (path.child (Replacement.temporaryName
      handle.settings.workspaceName (Identifier.token world.nextNumber))) = none) :
    ∀ stopped ∈ world :: world.trace (handle.serve operation),
      ∃ nodes relationships, stopped.nodes path = .ok nodes ∧
        stopped.relationships path = .ok relationships ∧
        ∀ relationship ∈ relationships, relationship.startNode ∈ nodes.map Node.id ∧
          relationship.endNode ∈ nodes.map Node.id := by
  obtain ⟨place, guarded⟩ := run.isGuarded
  intro stopped member
  rcases List.mem_cons.1 member with rfl | among
  · exact guarded.database.loads
  · exact ((guarded.passes_serve finite unused).trace stopped among).loads

/-- In an empty directory a relationship is created in a transaction, and its commit is stopped. -/
theorem loads_where_stopped_of_new_directory : ∃ database world,
    Solitary (.ofText "db") database world ∧
      ∀ stopped ∈ world :: world.trace (database.serve .commit),
        ∃ nodes relationships, stopped.nodes (.ofText "db") = .ok nodes ∧
          stopped.relationships (.ofText "db") = .ok relationships ∧
          ∀ relationship ∈ relationships, relationship.startNode ∈ nodes.map Node.id ∧
            relationship.endNode ∈ nodes.map Node.id := by
  let path : Path := .ofText "db"
  let start : World := { disk := .directory [("db", .emptyDirectory)] }
  let database := next path {} start
  let opened := start.run (Database.open path {}).run
  have steps : path.steps = [.down "db"] := by decide +kernel
  have short : ∀ passed, Step.down passed ∈ path.steps →
      passed.utf8ByteSize ≤ "transaction_temp".utf8ByteSize := by
    rw [steps]
    rintro passed (_ | ⟨_, ⟨⟩⟩)
    decide
  have avoids : path.Avoids "transaction_temp" := by
    refine Path.avoids_of_not_mem ?_
    rw [steps]
    decide
  have succeeds : opened.1 = .ok database := by decide +kernel
  have ran : opened = (.ok database, opened.2) := Prod.ext succeeds rfl
  have leads : opened.2.disk.LeadsTo path ["db"] :=
    ⟨by decide +kernel, Tree.kind?_eq_some_directory.1 (by decide +kernel)⟩
  have nodesLoad : opened.2.nodes path = .ok [] := by decide +kernel
  have relationshipsLoad : opened.2.relationships path = .ok [] := by decide +kernel
  have alone : start.live = [] ∧ start.active = [] := ⟨rfl, rfl⟩
  have apart : "transaction_temp" ∉ [nodesFile, relationshipsFile] := by decide
  have small : start.process < 2 ^ 32 := by decide
  have fresh : ∀ number, start.nextNumber ≤ number →
      path.Avoids (Replacement.temporaryName "transaction_temp" (Identifier.token number)) :=
    fun number _ => Path.avoids_temporaryName short number
  have opens := @Solitary.opened path ["db"] start opened.2 {} database [] [] alone small avoids fresh
    apart ran leads nodesLoad relationshipsLoad nofun
  have unused : opened.2.disk.kindAt? (path.child (Replacement.temporaryName
      database.settings.workspaceName (Identifier.token opened.2.nextNumber))) = none := by
    decide +kernel
  have finiteBegin : Operation.begin.statement.isFinite := by decide
  have begins := opens.served (fun _ => unused) finiteBegin
  have finite : (Operation.execute "CREATE (a:A)-[:T]->(b:B)" true).statement.isFinite := by
    decide +kernel
  have run := begins.served (by rintro ⟨⟩) finite
  have finiteCommit : Operation.commit.statement.isFinite := by decide
  exact ⟨database, _, run, run.loads_where_stopped finiteCommit nofun⟩

end Database
end GraphStore
