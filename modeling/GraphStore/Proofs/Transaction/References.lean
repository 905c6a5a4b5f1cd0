import GraphStore.Proofs.Query.References
import GraphStore.Proofs.Transaction.Servings
import GraphStore.Proofs.Transaction.Statements

/-!
# References in a session

A relationship is stored with its nodes, in the database or in a workspace, and a commit replaces
the nodes by those of the workspace.  It replaces the relationships as well if the workspace has
some.  A workspace that was assembled before the database had any relationships may have none: then
the relationships that are stored meanwhile stay, while their nodes are replaced.  Apart from such
commits no event of a session makes a reference dangle.
-/

namespace GraphStore

open Collections

variable {path : Path} {place : List String} {name : String} {world before after : World}
  {handle : Database}

/-! ## References in a directory -/

/-- Whether all relationships that a directory stores refer to nodes that it stores. -/
def Tree.Refers (tree : Tree) (directory : Path) : Prop :=
  endpoints (tree.contents directory relationshipsFile) ⊆
    nodeIds (tree.contents directory nodesFile)

theorem Tree.Refers.congr {tree other : Tree} {directory target : Path}
    (refers : tree.Refers directory)
    (same : ∀ file ∈ files, other.contents target file = tree.contents directory file) :
    other.Refers target := by
  rw [Tree.Refers, same _ (by decide), same _ (by decide)]
  exact refers

/-- The references among what loads. -/
theorem Tree.Refers.loaded {directory : Path} (refers : world.disk.Refers directory)
    (leads : world.disk.LeadsTo directory place) {nodes : List Node}
    {relationships : List Relationship} (nodesLoad : world.nodes directory = .ok nodes)
    (relationshipsLoad : world.relationships directory = .ok relationships) :
    ∀ relationship ∈ relationships, relationship.startNode ∈ nodes.map Node.id ∧
      relationship.endNode ∈ nodes.map Node.id := by
  have holds := World.holds_storeAt leads
  rw [holds.nodes_eq] at nodesLoad
  rw [holds.relationships_eq] at relationshipsLoad
  have inside : (world.storeAt directory).endpoints ⊆ (world.storeAt directory).nodeIds := refers
  rw [Store.nodeIds_of_nodes nodesLoad, Store.endpoints_of_relationships relationshipsLoad]
    at inside
  intro relationship member
  constructor <;>
    exact inside (List.mem_flatMap.2 ⟨relationship, member, by simp [Relationship.ends]⟩)

namespace World

/-- What makes progress with a statement makes no reference dangle. -/
theorem ActsOn.refers {α : Type} {program : Program α} {value : α} {directory : Path}
    {executor : Query.Executor} {statement : Query.Statement}
    (acts : before.ActsOn directory after program value)
    (advances : program.PassesWith Store.perform
      (executor.Progress (before.storeAt directory) statement)
      (fun _ => executor.Progress (before.storeAt directory) statement)
      (before.storeAt directory))
    (refers : before.disk.Refers directory) : after.disk.Refers directory := by
  have reached : (program.runWith Store.perform (before.storeAt directory)).2.Refers :=
    advances.runWith.refers refers
  rw [Tree.Refers, Tree.contents, Tree.contents, acts.reads _ (by decide),
    acts.reads _ (by decide)]
  exact reached

/-- Whoever is active has a workspace with a marker. -/
theorem HasHolder.exists_isMarked {holder : Option Database}
    (held : world.HasHolder path name holder) (active : world.active ≠ []) :
    ∃ owner, world.disk.IsMarked (path.child name) owner := by
  cases holder with
  | none => exact absurd held.2 active
  | some holder => exact ⟨_, held.marked⟩

/-- Nobody is active after the only active handle has become idle. -/
theorem HasHolder.active_eq_nil {holder next : Option Database}
    (held : before.HasHolder path name holder) (isActive : before.active.contains handle.name)
    (heldNext : after.HasHolder path name next)
    (source : next = holder ∨ next = none ∨ next = some handle)
    (idle : after.active.contains handle.name = false) : after.active = [] := by
  cases next with
  | none => exact heldNext.2
  | some next =>
      have same : next.name = handle.name := by
        rcases source with equal | equal | equal
        · subst equal
          rw [held.active, List.contains_iff_mem, List.mem_singleton] at isActive
          exact isActive.symm
        · cases equal
        · rw [Option.some.inj equal]
      rw [heldNext.active, same] at idle
      simp at idle

end World

/-! ## Commits -/

namespace TransactionManager

variable (manager : TransactionManager) (tree : Tree)

/-- Whether a commit replaces a file of the database. -/
def replaces (file : String) : Bool :=
  decide (file ∈ files.takeWhile (manager.canPublish tree)) &&
    (tree.contents manager.workspace file).isSome

/-- Whether a commit replaces the nodes but not the relationships that are stored. -/
def separates : Bool :=
  manager.replaces tree nodesFile && !manager.replaces tree relationshipsFile &&
    (tree.contents manager.database relationshipsFile).isSome

theorem publishes_eq (file : String) :
    manager.publishes tree file =
      if manager.replaces tree file then tree.contents manager.workspace file
      else tree.contents manager.database file := by
  unfold publishes replaces
  by_cases member : file ∈ files.takeWhile (manager.canPublish tree) <;>
    cases holds : tree.contents manager.workspace file <;> simp [member]

variable {manager tree}

/-- The nodes come first, so that they are replaced with the relationships if there are any. -/
theorem contents_eq_none_of_replaces (replaced : manager.replaces tree relationshipsFile)
    (kept : manager.replaces tree nodesFile = false) :
    tree.contents manager.workspace nodesFile = none := by
  simp only [replaces, Bool.and_eq_true, decide_eq_true_eq] at replaced
  have member : nodesFile ∈ files.takeWhile (manager.canPublish tree) := by
    have published := replaced.1
    simp only [files, List.takeWhile_cons] at published ⊢
    split at published
    · next can =>
        rw [if_pos can]
        exact List.mem_cons_self
    · cases published
  simpa [replaces, member] using kept

/-- A commit that separates leaves the stored relationships with the nodes of the workspace. -/
theorem publishes_of_separates (apart : manager.separates tree) :
    manager.publishes tree nodesFile = tree.contents manager.workspace nodesFile ∧
      manager.publishes tree relationshipsFile =
        tree.contents manager.database relationshipsFile := by
  simp only [separates, Bool.and_eq_true, Bool.not_eq_true'] at apart
  obtain ⟨⟨replaced, kept⟩, -⟩ := apart
  rw [publishes_eq, publishes_eq, replaced, kept]
  exact ⟨rfl, rfl⟩

/-- What a commit publishes keeps the references, unless it separates relationships from nodes. -/
theorem refers_publishes (database : tree.Refers manager.database)
    (workspace : tree.Refers manager.workspace) (together : manager.separates tree = false) :
    endpoints (manager.publishes tree relationshipsFile) ⊆
      nodeIds (manager.publishes tree nodesFile) := by
  rw [publishes_eq, publishes_eq]
  cases nodes : manager.replaces tree nodesFile <;>
    cases relationships : manager.replaces tree relationshipsFile
  · exact database
  · -- The workspace has no nodes, so its relationships refer to none.
    rw [Tree.Refers, contents_eq_none_of_replaces relationships nodes] at workspace
    exact List.Subset.trans workspace (List.nil_subset _)
  · have none : tree.contents manager.database relationshipsFile = none := by
      simpa [separates, nodes, relationships] using together
    simp only [Bool.false_eq_true, if_false, none]
    exact List.nil_subset _
  · exact workspace

end TransactionManager

/-! ## Events -/

namespace Session

/-- Whether an event leaves nodes and relationships together: a commit does not separate them.  A
workspace is assembled under a name that is not in use. -/
def KeepsTogether (path : Path) (name : String) (session : Session) : Event → Prop
  | .serve _ .begin => session.world.disk.kindAt? (path.child
      (Replacement.temporaryName name (Identifier.token session.world.nextNumber))) = none
  | .serve handle .commit => session.world.active.contains handle.name →
      handle.manager.separates session.world.disk = false
  | _ => True

instance (path : Path) (name : String) (session : Session) (event : Event) :
    Decidable (session.KeepsTogether path name event) :=
  match event with
  | .serve _ operation =>
    match operation with
    | .begin => inferInstanceAs (Decidable (_ = none))
    | .commit => inferInstanceAs (Decidable (_ → _ = false))
    | .execute .. | .createIndex .. | .probeIndex .. | .listIndexes | .rollback =>
      inferInstanceAs (Decidable True)
  | .open _ | .close _ | .respond .. => inferInstanceAs (Decidable True)

/-- The sessions to which events lead that leave nodes and relationships together. -/
inductive Proceeds (path : Path) (name : String) (start : Session) : Session → Prop where
  /-- Nothing has happened. -/
  | start : Proceeds path name start start
  /-- One more event happens. -/
  | step {session : Session} {event : Event} (proceeds : Proceeds path name start session)
      (admits : session.Admits name event) (together : session.KeepsTogether path name event) :
      Proceeds path name start (session.after path event)

/-- Whether references are kept, in the directory and in the workspace of whoever is active. -/
structure Refers (path : Path) (place : List String) (name : String) (session : Session) :
    Prop where
  sound : session.IsSound path name
  leads : session.world.disk.LeadsTo path place
  database : session.world.disk.Refers path
  workspace : session.world.active ≠ [] → session.world.disk.Refers (path.child name)

end Session

namespace Database.Serving

variable {operation : Operation} {reply : Reply}

/-- Serving an operation makes no reference dangle. -/
theorem refers (serving : handle.Serving before after operation reply)
    (database : before.disk.Refers handle.manager.database)
    (workspace : before.active ≠ [] → before.disk.Refers handle.manager.workspace)
    (marked : before.active ≠ [] → ∃ owner, before.disk.IsMarked handle.manager.workspace owner)
    (ended : before.active.contains handle.name → after.active.contains handle.name = false →
      after.active = [])
    (together : operation = .commit → before.active.contains handle.name →
      handle.manager.separates before.disk = false) :
    after.disk.Refers handle.manager.database ∧
      (after.active ≠ [] → after.disk.Refers handle.manager.workspace) := by
  have spared (spares : before.SparesOwned handle.manager.workspace after)
      (still : after.active = before.active) (active : after.active ≠ []) :
      after.disk.Refers handle.manager.workspace := by
    rw [still] at active
    obtain ⟨owner, marked⟩ := marked active
    exact (workspace active).congr (spares owner marked)
  have someActive (isActive : before.active.contains handle.name) : before.active ≠ [] := by
    intro none
    rw [none] at isActive
    cases isActive
  have published (isActive : before.active.contains handle.name) (commits : operation = .commit)
      (same : ∀ file ∈ files, after.disk.contents handle.manager.database file =
        handle.manager.publishes before.disk file) :
      after.disk.Refers handle.manager.database := by
    rw [Tree.Refers, same _ (by decide), same _ (by decide)]
    exact TransactionManager.refers_publishes database (workspace (someActive isActive))
      (together commits isActive)
  cases serving with
  | onDatabase statement idle acts spares still =>
      exact ⟨acts.refers (handle.advances_serveBare statement false _) database,
        spared spares still⟩
  | onWorkspace statement isActive acts same still =>
      exact ⟨database.congr same, fun _ => acts.refers
        (handle.advances_serveBare statement true _) (workspace (someActive isActive))⟩
  | begun idle same copied isActive => exact ⟨database.congr same, fun _ => database.congr copied⟩
  | committed isActive all same idle =>
      exact ⟨published isActive rfl same, fun active => absurd (ended isActive idle) active⟩
  | interrupted isActive some same kept still =>
      exact ⟨published isActive rfl same, fun _ => (workspace (someActive isActive)).congr kept⟩
  | rolledBack isActive same idle =>
      exact ⟨database.congr same, fun active => absurd (ended isActive idle) active⟩
  | refused change same spares still => exact ⟨database.congr same, spared spares still⟩

end Database.Serving

namespace Session

variable {session start : Session} {event : Event}

namespace Refers

variable (refers : session.Refers path place name)

include refers

/-- What a handle serves, or does when it is given up. -/
theorem served {handle : Database} (member : handle ∈ session.handles)
    {operation : Database.Operation} {reply : Database.Reply} {next : Option Database}
    {holder : Option Database}
    (serving : handle.Serving session.world after operation reply)
    (held : session.world.HasHolder path name holder) (heldNext : after.HasHolder path name next)
    (source : next = holder ∨ next = none ∨ next = some handle)
    (together : operation = .commit → session.world.active.contains handle.name →
      handle.manager.separates session.world.disk = false) :
    after.disk.Refers path ∧ (after.active ≠ [] → after.disk.Refers (path.child name)) := by
  have isOn := refers.sound.isOn handle member
  have kept := serving.refers (by rw [isOn.database]; exact refers.database)
    (by rw [isOn.workspace_eq refers.sound.plain]; exact refers.workspace)
    (by rw [isOn.workspace_eq refers.sound.plain]; exact held.exists_isMarked)
    (fun isActive idle => held.active_eq_nil isActive heldNext source idle) together
  rwa [isOn.database, isOn.workspace_eq refers.sound.plain] at kept

theorem responded (source : String) (useIndex : Bool) :
    let after := (session.after path (.respond source useIndex)).world
    after.disk.LeadsTo path place ∧ after.disk.Refers path ∧
      (after.active ≠ [] → after.disk.Refers (path.child name)) := by
  intro after
  have uses := Query.uses_respond path source useIndex
  obtain ⟨acts, leads⟩ := World.actsOn_run uses refers.leads
  refine ⟨leads, acts.refers (Query.advances_respond path source useIndex _) refers.database,
    fun active => ?_⟩
  have still : after.active = session.world.active :=
    (World.memory_run (uses.mono fun concerns => concerns.isQuiet) session.world).2
  rw [still] at active
  obtain ⟨holder, held, -⟩ := refers.sound.held
  obtain ⟨owner, marked⟩ := held.exists_isMarked active
  exact (refers.workspace active).congr (World.sparesOwned_run uses owner marked)

variable (avoids : path.Avoids name)

include avoids

theorem opened (settings : Settings) (admits : session.Admits name (.open settings)) :
    let disk := (session.after path (.open settings)).world.disk
    disk.LeadsTo path place ∧ disk.Refers path ∧
      ((session.after path (.open settings)).world.active ≠ [] →
        disk.Refers (path.child name)) := by
  obtain ⟨rfl, -⟩ := admits
  obtain ⟨holder, held, -⟩ := refers.sound.held
  rw [world_after_open]
  obtain ⟨leads, same⟩ := Database.contents_open refers.leads avoids
  refine ⟨leads, refers.database.congr fun file member =>
    same file (ne_empty_of_mem_files member), fun active => ?_⟩
  rw [(Database.memory_run_open path settings session.world).2] at active
  cases holder with
  | none => exact absurd held.2 active
  | some holder =>
      rw [Database.disk_run_open_of_alive held.marked held.isAlive]
      exact refers.workspace active

theorem closed {handle : Database} (member : handle ∈ session.handles) :
    let after := (session.after path (.close handle)).world
    after.disk.LeadsTo path place ∧ after.disk.Refers path ∧
      (after.active ≠ [] → after.disk.Refers (path.child name)) := by
  intro after
  have isOn := refers.sound.isOn handle member
  obtain ⟨holder, held, -⟩ := refers.sound.held
  obtain ⟨serving, leads⟩ := isOn.serving_rollback refers.sound.plain held refers.leads avoids
  have same : after = (handle.manager.rollback.runWith World.perform session.world).2 :=
    handle.run_close session.world
  rw [← same] at serving leads
  refine ⟨leads, refers.served member serving held (hasHolder_close isOn held) ?_
    (by rintro ⟨⟩)⟩
  split
  · exact .inr (.inl rfl)
  · exact .inl rfl

/-- Whatever happens keeps the references, unless a commit separates relationships from nodes. -/
theorem step (admits : session.Admits name event)
    (together : session.KeepsTogether path name event) :
    (session.after path event).Refers path place name := by
  have sound := refers.sound.after admits
  suffices reached : (session.after path event).world.disk.LeadsTo path place ∧
      (session.after path event).world.disk.Refers path ∧
      ((session.after path event).world.active ≠ [] →
        (session.after path event).world.disk.Refers (path.child name)) from
    ⟨sound, reached.1, reached.2.1, reached.2.2⟩
  cases event with
  | «open» settings => exact refers.opened avoids settings admits
  | serve handle operation =>
      have isOn := refers.sound.isOn handle admits
      obtain ⟨holder, held, -⟩ := refers.sound.held
      have avoidsStaging := Path.avoids_of_not_mem (refers.sound.fresh _ (Nat.le_refl _))
      obtain ⟨next, heldNext, source⟩ := isOn.hasHolder_serve refers.sound.plain held
        refers.sound.process avoidsStaging operation
      obtain ⟨serving, leads⟩ := isOn.serving operation refers.sound.plain held refers.leads
        avoids avoidsStaging (by rintro rfl; exact together)
      exact ⟨leads, refers.served admits serving held heldNext source
        (by rintro rfl; exact together)⟩
  | close handle => exact refers.closed avoids admits
  | respond source useIndex => exact refers.responded source useIndex

end Refers

/-- In a session of any handles, and of texts that are executed without a handle, every stored
relationship goes on referring to stored nodes, as long as no commit replaces the nodes but not the
stored relationships. -/
theorem references_kept (initial : start.IsInitial path name)
    (leads : start.world.disk.LeadsTo path place) (avoids : path.Avoids name)
    (refers : start.world.disk.Refers path) (proceeds : Proceeds path name start session) :
    session.world.disk.Refers path ∧
      ∀ nodes relationships, session.world.nodes path = .ok nodes →
        session.world.relationships path = .ok relationships →
        ∀ relationship ∈ relationships, relationship.startNode ∈ nodes.map Node.id ∧
          relationship.endNode ∈ nodes.map Node.id := by
  have kept : session.Refers path place name := by
    induction proceeds with
    | start =>
        exact ⟨initial.isSound, leads, refers, fun active => absurd initial.active active⟩
    | step proceeds admits together ih => exact ih.step avoids admits together
  exact ⟨kept.database, fun nodes relationships nodesLoad relationshipsLoad =>
    kept.database.loaded kept.leads nodesLoad relationshipsLoad⟩

/-- A transaction is committed to a directory that holds a relationship, and another handle creates
one more. -/
theorem references_kept_of_two :
    let path : Path := .ofText "d"
    let settings : Settings := { workspaceName := "w" }
    let start : Session := ⟨{ disk := .directory [("d", .directory [
      ("nodes.json", .file (.text "[\x7b\"id\":\"a\"\x7d]")),
      ("relationships.json", .file (.text ("[\x7b\"id\":\"r\",\"start_node\":\"a\"," ++
        "\"end_node\":\"a\",\"type\":\"T\"\x7d]")))])] }, []⟩
    let both := (start.after path (.open settings)).after path (.open settings)
    let first : Database := ⟨path, settings, path, "w", 2, Identifier.ofNumber 0⟩
    let second : Database := ⟨path, settings, path, "w", 2, Identifier.ofNumber 1⟩
    let begun := both.after path (.serve first .begin)
    let committed := begun.after path (.serve first .commit)
    let session := committed.after path (.serve second (.execute "CREATE (b:B)-[:T]->(c:C)" true))
    start.IsInitial path "w" ∧ Proceeds path "w" start session ∧
      session.world.disk.Refers path := by
  intro path settings start both first second begun committed session
  have steps : path.steps = [.down "d"] := by decide +kernel
  have fresh : ∀ number, 0 ≤ number → Step.down (Replacement.temporaryName "w"
      (Identifier.token number)) ∉ path.steps := by
    intro number _ named
    rw [steps, List.mem_singleton] at named
    have size := congrArg String.utf8ByteSize (Step.down.inj named)
    rw [Replacement.utf8ByteSize_temporaryName _ (Identifier.utf8ByteSize_token number)] at size
    revert size
    decide
  have initial : start.IsInitial path "w" :=
    ⟨rfl, rfl, rfl, by decide, by decide +kernel, fresh⟩
  have leads : start.world.disk.LeadsTo path ["d"] := ⟨by decide +kernel, _, rfl⟩
  have avoids : path.Avoids "w" :=
    Path.avoids_of_not_mem (by rw [steps]; decide)
  have refers : start.world.disk.Refers path := by
    have listed : endpoints (start.world.disk.contents path relationshipsFile) = ["a", "a"] ∧
        nodeIds (start.world.disk.contents path nodesFile) = ["a"] := by decide +kernel
    rw [Tree.Refers, listed.1, listed.2]
    decide
  have opens : Proceeds path "w" start (start.after path (.open settings)) :=
    Proceeds.start.step (by decide +kernel) trivial
  have opensBoth : Proceeds path "w" start both :=
    opens.step (by decide +kernel) trivial
  have begins : Proceeds path "w" start begun :=
    opensBoth.step (by decide +kernel) (by decide +kernel)
  have commits : Proceeds path "w" start committed :=
    begins.step (by decide +kernel) (by decide +kernel)
  have proceeds : Proceeds path "w" start session :=
    commits.step (by decide +kernel) trivial
  exact ⟨initial, proceeds, (references_kept initial leads avoids refers proceeds).1⟩
end Session
end GraphStore
