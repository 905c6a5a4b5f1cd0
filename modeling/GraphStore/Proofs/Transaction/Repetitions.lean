import GraphStore.Proofs.Query.Additions
import GraphStore.Proofs.Transaction.Servings
import GraphStore.Proofs.Transaction.Statements

/-!
# Repeated creations

Once nodes were created, stored nodes match what was asked for.  Later statements keep these nodes,
as long as they only create nodes that can be read again, so that the same creation finds everything
and writes nothing.
-/

namespace GraphStore

/-! ## Nodes like new ones -/

@[simp]
theorem Node.satisfies_sorted (node : Node) (label : Option String) (required : Properties) :
    node.sorted.satisfies label required = node.satisfies label required := by
  rw [satisfies, satisfies, sorted, Properties.satisfies_sorted]
  rfl

namespace Query

/-- Whether each of several new nodes is matched by a node of a list. -/
def HasAll (patterns : List NewNode) (nodes : List Node) : Prop :=
  ∀ pattern ∈ patterns, ∃ node ∈ nodes, node.satisfies (some pattern.label) pattern.properties

namespace HasAll

variable {patterns : List NewNode} {nodes more : List Node}

theorem mono (hasAll : HasAll patterns nodes) (subset : nodes ⊆ more) : HasAll patterns more :=
  fun pattern member =>
    let ⟨node, stored, like⟩ := hasAll pattern member
    ⟨node, subset stored, like⟩

theorem map_sorted (hasAll : HasAll patterns (nodes ++ more)) :
    HasAll patterns (nodes ++ more.map Node.sorted) := by
  intro pattern member
  obtain ⟨node, stored, like⟩ := hasAll pattern member
  rcases List.mem_append.1 stored with stored | new
  · exact ⟨node, List.mem_append_left _ stored, like⟩
  · exact ⟨node.sorted, List.mem_append_right _ (List.mem_map_of_mem new), by simpa using like⟩

end HasAll

namespace Executor

variable {nodes added : List Node} {patterns : List NewNode} {pattern : NewNode} {number : Nat}
  {node : Node}

theorem Grows.hasAll (grows : Grows nodes patterns number added) :
    HasAll patterns (nodes ++ added) := by
  induction grows with
  | nil => simp [HasAll]
  | @cons nodes first others pattern rest number node stands grows ih =>
      rw [← List.append_assoc]
      refine List.forall_mem_cons.2 ⟨⟨node, ?_, stands.like⟩, ih⟩
      exact List.mem_append_left others stands.mem

/-- Nothing is added for new nodes that are all matched. -/
theorem Grows.eq_nil (grows : Grows nodes patterns number added) (hasAll : HasAll patterns nodes) :
    added = [] := by
  induction grows with
  | nil => rfl
  | @cons nodes first others pattern rest number node stands grows ih =>
      obtain ⟨⟨other, stored, like⟩, others⟩ := List.forall_mem_cons.1 hasAll
      cases stands with
      | found => exact ih (HasAll.mono others (List.subset_append_left nodes []))
      | added none => exact absurd like (none other stored)

theorem AreNew.doubles_subset (areNew : AreNew patterns added) :
    added.flatMap Node.doubles ⊆ patterns.flatMap fun pattern => pattern.properties.doubles := by
  intro number member
  obtain ⟨node, isAdded, inNode⟩ := List.mem_flatMap.1 member
  obtain ⟨pattern, found, -, same⟩ := areNew node isAdded
  rw [Node.doubles, same] at inNode
  exact List.mem_flatMap.2 ⟨pattern, found, inNode⟩

end Executor
end Query

/-! ## Stores that retain matches -/

/-- Whether the nodes of a directory load, match several new ones, and can be written again. -/
def Store.Retains (store : Store) (directory : Path) (patterns : List Query.NewNode) : Prop :=
  ∃ nodes, store.nodes directory = .ok nodes ∧ Query.HasAll patterns nodes ∧
    Json.ReadsBack (nodes.flatMap Node.doubles)

theorem Store.Retains.congr {store other : Store} {directory : Path}
    {patterns : List Query.NewNode} (retains : store.Retains directory patterns)
    (same : other.nodes directory = store.nodes directory) : other.Retains directory patterns := by
  rw [Retains, same]
  exact retains

theorem Node.doubles_map_sorted_subset (nodes : List Node) :
    (nodes.map sorted).flatMap doubles ⊆ nodes.flatMap doubles := by
  intro number member
  obtain ⟨_, isSorted, inNode⟩ := List.mem_flatMap.1 member
  obtain ⟨node, stored, rfl⟩ := List.mem_map.1 isSorted
  exact List.mem_flatMap.2 ⟨node, stored, (node.properties.mem_doubles_sorted number).1 inNode⟩

namespace Query
namespace Executor

variable {executor : Executor} {store reached : Store} {statement : Statement}
  {patterns : List NewNode}

theorem retains_saveGrowth {nodes added : List Node} {created : List NewNode}
    (retains : store.Retains executor.directory patterns)
    (loaded : store.nodes executor.directory = .ok nodes) (areNew : AreNew created added)
    (finite : ∀ pattern ∈ created, pattern.properties.isFinite)
    (readsBack : Json.ReadsBack (created.flatMap fun pattern => pattern.properties.doubles)) :
    (executor.saveGrowth store nodes added).Retains executor.directory patterns := by
  obtain ⟨others, loadedAgain, hasAll, nodesReadBack⟩ := retains
  cases loaded.symm.trans loadedAgain
  have addedReadBack := readsBack.of_subset areNew.doubles_subset
  have allReadBack : Json.ReadsBack ((nodes ++ added).flatMap Node.doubles) := by
    rw [List.flatMap_append, Json.readsBack_append]
    exact ⟨nodesReadBack, addedReadBack⟩
  have grown := nodes_saveGrowth_eq_ok loaded (areNew.isFinite finite) allReadBack store.nextNumber
  refine ⟨_, grown, (hasAll.mono (List.subset_append_left nodes added)).map_sorted, ?_⟩
  rw [List.flatMap_append, Json.readsBack_append]
  exact ⟨nodesReadBack, addedReadBack.of_subset (Node.doubles_map_sorted_subset added)⟩

/-- A statement, wherever it is stopped, leaves the nodes that match. -/
theorem Progress.retains (progress : executor.Progress store statement reached)
    (retains : store.Retains executor.directory patterns)
    (finite : ∀ pattern ∈ statement.newNodes, pattern.properties.isFinite)
    (readsBack : Json.ReadsBack
      (statement.newNodes.flatMap fun pattern => pattern.properties.doubles)) :
    reached.Retains executor.directory patterns := by
  induction progress with
  | unchanged same => exact retains.congr (Store.nodes_congr (congrFun same _))
  | nodesSaved loaded areNew same =>
      exact (retains_saveGrowth retains loaded areNew finite readsBack).congr
        (Store.nodes_congr (congrFun same _))
  | relationshipSaved loaded loadedRelationships areNew startMember endMember ownProperties same =>
      exact (retains_saveGrowth retains loaded areNew finite readsBack).congr
        ((Store.nodes_congr (congrFun same _)).trans (nodes_saveRelationship ..))
  | indexesSaved earlier writes same ih =>
      exact (ih finite readsBack).congr
        ((Store.nodes_congr (congrFun same _)).trans (Store.nodes_put_of_ne (by decide) _))

/-- After nodes were created, they are retained. -/
theorem retains_createNodes {patterns : List NewNode} {answer : Answer} {after : Store}
    (succeeds : (executor.createNodes patterns).runWith Store.perform store = (.ok answer, after))
    (readsBackStored : ∀ nodes, store.nodes executor.directory = .ok nodes →
      Json.ReadsBack (nodes.flatMap Node.doubles))
    (finite : ∀ pattern ∈ patterns, pattern.properties.isFinite)
    (readsBack : Json.ReadsBack (patterns.flatMap fun pattern => pattern.properties.doubles)) :
    after.Retains executor.directory patterns := by
  rcases executor.runWith_createNodes store patterns with
    ⟨nodes, added, loaded, grows, ran⟩ | ⟨-, error, other, ran, -⟩
  · obtain ⟨rfl, rfl⟩ := Prod.mk.inj (succeeds.symm.trans ran) |>.imp_left Except.ok.inj
    have addedReadBack := readsBack.of_subset grows.areNew.doubles_subset
    have nodesReadBack := readsBackStored nodes loaded
    have allReadBack : Json.ReadsBack ((nodes ++ added).flatMap Node.doubles) := by
      rw [List.flatMap_append, Json.readsBack_append]
      exact ⟨nodesReadBack, addedReadBack⟩
    have grown := nodes_saveGrowth_eq_ok loaded (grows.areNew.isFinite finite) allReadBack
      (store.nextNumber + added.length)
    refine ⟨nodes ++ added.map Node.sorted, ?_, grows.hasAll.map_sorted, ?_⟩
    · rw [nodes_maintained, grown]
    · rw [List.flatMap_append, Json.readsBack_append]
      exact ⟨nodesReadBack, addedReadBack.of_subset (Node.doubles_map_sorted_subset added)⟩
  · cases succeeds.symm.trans ran

/-- Creating nodes that are retained creates none and writes nothing. -/
theorem runWith_createNodes_of_retains (retains : store.Retains executor.directory patterns) :
    (executor.createNodes patterns).runWith Store.perform store =
      (.ok ⟨"Node(s) created", [], []⟩, store) := by
  obtain ⟨nodes, loaded, hasAll, -⟩ := retains
  rcases executor.runWith_createNodes store patterns with
    ⟨others, added, loadedAgain, grows, ran⟩ | ⟨some, -⟩
  · cases loaded.symm.trans loadedAgain
    obtain rfl := grows.eq_nil hasAll
    rw [ran]
    simp [saveGrowth, maintained, IndexCatalog.lacksSome]
  · obtain ⟨added, notNil, grows⟩ := some nodes loaded
    exact absurd (grows.eq_nil hasAll) notNil

end Executor
end Query

/-! ## Handles -/

/-- Whether the nodes of a directory load, match several new ones, and can be written again. -/
def World.Retains (world : World) (directory : Path) (patterns : List Query.NewNode) : Prop :=
  ∃ nodes, world.nodes directory = .ok nodes ∧ Query.HasAll patterns nodes ∧
    Json.ReadsBack (nodes.flatMap Node.doubles)

theorem World.Retains.congr {world other : World} {directory : Path}
    {patterns : List Query.NewNode} (retains : world.Retains directory patterns)
    (same : other.disk.readAt (directory.child Collections.nodesFile) =
      world.disk.readAt (directory.child Collections.nodesFile)) :
    other.Retains directory patterns := by
  unfold Retains nodes Collections.loadNodes at retains ⊢
  rw [Document.run_readItems] at retains ⊢
  rwa [same]

namespace Database

/-- The worlds to which statements lead that act on one directory, through any handles or without
one, as long as every node that they ask to create is finite and read back.  The directory is that of
the database, or the workspace of an active transaction. -/
inductive Continues (path : Path) (start : World) : World → Prop where
  /-- Nothing has happened. -/
  | start : Continues path start start
  /-- Something happens elsewhere. -/
  | elsewhere {world other : World} {place : List String} (continues : Continues path start world)
      (leads : other.disk.LeadsTo path place)
      (same : ∀ file ∈ Collections.files,
        other.disk.readAt (path.child file) = world.disk.readAt (path.child file)) :
      Continues path start other
  /-- A handle serves an operation that is no change of its transaction. -/
  | served {world : World} {handle : Database} {operation : Operation}
      (continues : Continues path start world)
      (acts : (world.run handle.manager.target).1 = path)
      (statement : operation.IsChange = false)
      (finite : ∀ pattern ∈ operation.statement.newNodes, pattern.properties.isFinite)
      (readsBack : Json.ReadsBack
        (operation.statement.newNodes.flatMap fun pattern => pattern.properties.doubles)) :
      Continues path start (world.run (handle.serve operation)).2
  /-- A text is executed without a handle. -/
  | responded {world : World} {source : String} {useIndex : Bool}
      (continues : Continues path start world)
      (finite : ∀ pattern ∈ (Query.statementOf source).newNodes, pattern.properties.isFinite)
      (readsBack : Json.ReadsBack ((Query.statementOf source).newNodes.flatMap
        fun pattern => pattern.properties.doubles)) :
      Continues path start (world.run (Query.respond path source useIndex)).2

variable {path : Path} {place : List String} {world later : World} {handle : Database}
  {patterns : List Query.NewNode}

/-- A program that makes progress with a statement leaves the nodes that match. -/
theorem retains_run {α : Type} {program : Program α} (executor : Query.Executor)
    {statement : Query.Statement} (leads : world.disk.LeadsTo executor.directory place)
    (uses : program.Uses executor.directory.Concerns)
    (progress : executor.Progress (world.storeAt executor.directory) statement
      (program.runWith Store.perform (world.storeAt executor.directory)).2)
    (retains : world.Retains executor.directory patterns)
    (finite : ∀ pattern ∈ statement.newNodes, pattern.properties.isFinite)
    (readsBack : Json.ReadsBack
      (statement.newNodes.flatMap fun pattern => pattern.properties.doubles)) :
    (world.run program).2.disk.LeadsTo executor.directory place ∧
      (world.run program).2.Retains executor.directory patterns := by
  have holds := World.holds_storeAt leads
  obtain ⟨-, holdsAfter⟩ := holds.run uses
  refine ⟨holdsAfter.leads, ?_⟩
  rw [World.Retains, holds.nodes_eq] at retains
  rw [World.Retains, holdsAfter.nodes_eq]
  exact progress.retains retains finite readsBack

theorem Continues.retains (continues : Continues path world later)
    (leads : world.disk.LeadsTo path place) (retains : world.Retains path patterns) :
    (∃ place, later.disk.LeadsTo path place) ∧ later.Retains path patterns := by
  induction continues with
  | start => exact ⟨⟨place, leads⟩, retains⟩
  | elsewhere continues leads same ih =>
      exact ⟨⟨_, leads⟩, ih.2.congr (same _ (by decide))⟩
  | @served world handle operation continues acts statement finite readsBack ih =>
      obtain ⟨⟨place, leads⟩, retains⟩ := ih
      obtain ⟨-, unlocked⟩ := handle.agreeOn_serve world operation
      have disk := World.disk_congr unlocked
      rw [run_target_eq] at acts
      subst acts
      obtain ⟨leadsAfter, retainsAfter⟩ := retains_run (handle.executorIf _) leads
        (handle.uses_serveBare statement _) (handle.advances_serveBare statement _ _).runWith retains
        finite readsBack
      exact ⟨⟨place, disk ▸ leadsAfter⟩, retainsAfter.congr (by rw [disk])⟩
  | @responded world source useIndex continues finite readsBack ih =>
      obtain ⟨⟨place, leads⟩, retains⟩ := ih
      obtain ⟨leadsAfter, retainsAfter⟩ := retains_run (Query.responder path) leads
        (Query.uses_respond path source useIndex) (Query.advances_respond path source useIndex _).runWith
        retains finite readsBack
      exact ⟨⟨place, leadsAfter⟩, retainsAfter⟩

/-- A text that a handle executes acts on the target as on a store. -/
theorem holds_execute (acts : (world.run handle.manager.target).1 = path)
    (leads : world.disk.LeadsTo path place) (source : String) (useIndex : Bool) :
    let ran := world.run (handle.execute source useIndex).run
    let executor := Query.Executor.ofSettings path handle.name handle.settings
    let ranAlone := (executor.execute source useIndex).runWith Store.perform (world.storeAt path)
    ran.1 = ranAlone.1 ∧ ran.2.Holds path place ranAlone.2 := by
  intro ran executor ranAlone
  rw [run_target_eq] at acts
  subst acts
  obtain ⟨reply, unlocked⟩ := handle.agreeOn_serve world (.execute source useIndex)
  obtain ⟨value, holds⟩ := (World.holds_storeAt leads).run
    (@uses_serveBare handle (.execute source useIndex) rfl _)
  have same := reply.trans value
  rw [run_execute_eq, serveBare, Program.runWith_map] at same
  rw [serveBare, Program.runWith_map] at holds
  rw [serve, World.run_map] at unlocked
  exact ⟨Reply.executed.inj same, holds.transport (World.disk_congr unlocked) rfl rfl
    ((World.nextNumber_congr unlocked).trans holds.number)⟩

/-- When a handle creates nodes with finite properties, stored nodes match all of them afterwards.
Executed again, at once or after any other statements that act on the same directory and create finite
nodes, the text creates no node and leaves every collection as it is.  The doubles that are stored
have to be read back from their written form. -/
theorem creates_nodes_once {handle : Database} {world after : World} {path : Path}
    {place : List String} (acts : (world.run handle.manager.target).1 = path)
    (leads : world.disk.LeadsTo path place) {source : String} {patterns : List Query.NewNode}
    (parsed : Query.parse source = .ok (.createNodes patterns)) {useIndex : Bool}
    {answer : Query.Answer}
    (succeeds : world.run (handle.execute source useIndex).run = (.ok answer, after))
    (finite : ∀ pattern ∈ patterns, pattern.properties.isFinite)
    (readsBack : Json.ReadsBack (patterns.flatMap fun pattern => pattern.properties.doubles))
    (readsBackStored : ∀ nodes, world.nodes path = .ok nodes →
      Json.ReadsBack (nodes.flatMap Node.doubles)) :
    (∃ nodes, after.nodes path = .ok nodes ∧ ∀ pattern ∈ patterns, ∃ node ∈ nodes,
      node.satisfies (some pattern.label) pattern.properties) ∧
    ∀ later, Continues path after later → ∀ (other : Database) (useIndex : Bool),
      (later.run other.manager.target).1 = path →
      ∃ last, later.run (other.execute source useIndex).run =
          (.ok ⟨"Node(s) created", [], []⟩, last) ∧
        ∀ file ∈ Collections.files,
          last.disk.readAt (path.child file) = later.disk.readAt (path.child file) := by
  let executor (handle : Database) := Query.Executor.ofSettings path handle.name handle.settings
  have executed (handle : Database) (useIndex : Bool) (store : Store) :
      ((executor handle).execute source useIndex).runWith Store.perform store =
        ((((executor handle).createNodes patterns).runWith Store.perform store).1.mapError
            Query.ExecutionError.storage,
          (((executor handle).createNodes patterns).runWith Store.perform store).2) := by
    rw [Query.Executor.execute, parsed]
    exact Task.runWith_mapError Store.perform store _ _
  have holds := World.holds_storeAt leads
  obtain ⟨value, holdsAfter⟩ := holds_execute acts leads source useIndex
  rw [succeeds, executed] at value holdsAfter
  have created : ((executor handle).createNodes patterns).runWith Store.perform
      (world.storeAt path) = (.ok answer, _) :=
    Prod.ext (eq_ok_of_mapError value.symm) rfl
  have retained := Query.Executor.retains_createNodes created
    (fun nodes loaded => readsBackStored nodes (holds.nodes_eq.trans loaded)) finite readsBack
  have retains : after.Retains path patterns := by
    rw [World.Retains, holdsAfter.nodes_eq]
    exact retained
  refine ⟨?_, fun later continues other useIndex actsLater => ?_⟩
  · obtain ⟨nodes, loaded, hasAll, -⟩ := retains
    exact ⟨nodes, loaded, hasAll⟩
  · obtain ⟨⟨_, leadsLater⟩, retainsLater⟩ := continues.retains holdsAfter.leads retains
    rw [World.Retains, (World.holds_storeAt leadsLater).nodes_eq] at retainsLater
    obtain ⟨value, holdsLast⟩ := holds_execute actsLater leadsLater source useIndex
    have again := @Query.Executor.runWith_createNodes_of_retains (executor other) _ patterns
      retainsLater
    rw [executed, again] at value holdsLast
    exact ⟨_, Prod.ext value rfl, fun file member => holdsLast.read file member⟩

/-- Two equal patterns of which the first creates the node that the second finds, and a relationship
that is created before they are asked for again. -/
theorem creates_nodes_once_of_equal_patterns :
    let path := Path.ofText "db"
    let world : World := { disk := .directory [("db", .emptyDirectory)] }
    let handle : Database := ⟨path, {}, ⟨path, "transaction_temp", ⟨1, "h"⟩⟩⟩
    let source := "CREATE (a:A \x7bx: 0.5\x7d), (b:A \x7bx: 0.5\x7d)"
    let after := (world.run (handle.execute source true).run).2
    let later := (after.run (handle.serve
      (.execute "CREATE (b:B \x7bx: 0.5\x7d)-[:T]->(a:A)" true))).2
    (later.run (handle.execute source true).run).1 = .ok ⟨"Node(s) created", [], []⟩ := by
  intro path world handle source after later
  let half : Properties := .ofList [("x", .double (.ofScientific false 5 (-1)))]
  have parsed : Query.parse source = .ok (.createNodes [⟨"A", half⟩, ⟨"A", half⟩]) := by
    decide +kernel
  let answer : Query.Answer := ⟨"Node(s) created", [⟨Identifier.ofNumber 0, ["A"], half⟩], []⟩
  have succeeds : world.run (handle.execute source true).run = (.ok answer, after) :=
    Prod.ext (by decide +kernel) rfl
  have leads : world.disk.LeadsTo path ["db"] := ⟨by decide +kernel, [], rfl⟩
  have nodesLoad : world.nodes path = .ok [] := by decide +kernel
  have numbers : ∀ number ∈ half.doubles, number.isFinite → number.isReadBack := by
    decide +kernel
  have finite : half.isFinite := by decide +kernel
  obtain ⟨-, again⟩ := creates_nodes_once (by decide +kernel) leads parsed succeeds
    (by simpa using finite) (by simpa using Json.readsBack_append.2 ⟨numbers, numbers⟩)
    (by rintro nodes loaded; cases nodesLoad.symm.trans loaded; nofun)
  have statement : Query.statementOf "CREATE (b:B \x7bx: 0.5\x7d)-[:T]->(a:A)" =
      .createRelationship ⟨"B", half⟩ "T" .empty ⟨"A", .empty⟩ := by
    decide +kernel
  have continues : Continues path after later := by
    refine .served .start (by decide +kernel) rfl ?_ ?_
    · rw [Operation.statement, statement]
      exact List.forall_mem_cons.2 ⟨finite, List.forall_mem_singleton.2 rfl⟩
    · rw [Operation.statement, statement]
      exact Json.readsBack_append.2 ⟨numbers, nofun⟩
  obtain ⟨last, ran, -⟩ := again later continues handle true (by decide +kernel)
  rw [ran]

end Database
end GraphStore
