import GraphStore.Proofs.Transaction.Histories

/-!
# Indexes of open handles

Whatever one handle after the other did, the indexes of the open handle are those that were created
and not rolled back, each as it would be built from the stored nodes.  So a match answers the same
whether or not it probes them.
-/

namespace GraphStore
namespace Database

variable {path : Path} {place : List String} {world : World} {definitions : Definitions}
  {database : Database} {base : Tree} {versions : Versions}

/-! ## The target -/

theorem Runs.target_eq (runs : Runs path place base database definitions versions world) :
    (world.run database.manager.target).1 =
      database.manager.targetIf versions.working.isSome := by
  rw [Program.run_eq_runWith, runs.layout.runWith_target]

/-- Whatever concerns the collections of the target answers as it does on the store of the
versions. -/
theorem Runs.run_target {α : Type} (runs : Runs path place base database definitions versions world)
    {program : Path → Program α} (uses : ∀ target, (program target).Uses target.Concerns) :
    (world.run (program (world.run database.manager.target).1)).1 =
      ((program (database.manager.targetIf versions.working.isSome)).runWith Store.perform
        versions.store).1 := by
  rw [runs.target_eq, Program.run_eq_runWith]
  exact (runs.layout.run (uses _) runs.ground).1

theorem Runs.nodes_eq (runs : Runs path place base database definitions versions world) :
    world.nodes (world.run database.manager.target).1 =
      versions.store.nodes (database.manager.targetIf versions.working.isSome) := by
  have loaded := runs.run_target fun target =>
    (@Collections.uses_loadNodes target).mono Path.Touches.concerns
  rwa [Task.runWith_run, Collections.runWith_loadNodes] at loaded

theorem Runs.indexes_eq (runs : Runs path place base database definitions versions world) :
    world.indexes (world.run database.manager.target).1 =
      versions.store.catalog (database.manager.targetIf versions.working.isSome) := by
  have loaded := runs.run_target fun target =>
    (@Collections.uses_loadIndexes target).mono Path.Touches.concerns
  rwa [Collections.runWith_loadIndexes] at loaded

/-- What a handle replies is what the abstract machine replies. -/
theorem Runs.reply_eq (runs : Runs path place base database definitions versions world)
    (operation : Operation) :
    (world.run (database.serve operation)).1 = (versions.serve database operation).1 := by
  rw [Program.run_eq_runWith]
  exact (runs.ground.serve versions operation world runs.layout).1

/-! ## Matches -/

/-- From an empty directory a handle reaches a database with an index and a node in it. -/
theorem history_of_new_directory : ∃ world database definitions,
    History (.ofText "db") world (some database) definitions ∧
      ("L", "p") ∈ definitions.current ∧
      ∃ nodes, world.nodes (world.run database.manager.target).1 = .ok nodes ∧ nodes ≠ [] := by
  let start : World := { disk := .directory [("db", .emptyDirectory)] }
  let settings : Settings := { indented := false }
  let database := next (.ofText "db") settings start
  let opened := start.run (Database.open (.ofText "db") settings).run
  let indexed := opened.2.run (database.serve (.createIndex "L" "p"))
  let grown := indexed.2.run (database.serve (.execute "CREATE (n:L \x7bp: 1.5\x7d)" true))
  let node : Node :=
    ⟨Identifier.ofNumber 1, ["L"], .ofList [("p", .double (.ofScientific false 15 (-1)))]⟩
  have ranOpen := World.eq_of_answer opened (.ok database) (by decide +kernel)
  have ranIndex := World.eq_of_answer indexed (.indexed (.ok 0)) (by decide +kernel)
  have ranCreate := World.eq_of_answer grown (.executed (.ok ⟨"Node(s) created", [node], []⟩))
    (by decide +kernel)
  have numbers : ∀ number ∈ node.doubles, number.isFinite → number.isReadBack := by
    decide +kernel
  have empty : IsNew (.ofText "db") start := .empty (by decide +kernel)
  have history := History.opened (.start empty (by decide)) rfl (by decide)
    ⟨by decide +kernel, by decide +kernel⟩ (by decide) ranOpen
  replace history := history.served ranIndex fun answer same => (nomatch same)
  replace history := history.served ranCreate fun answer same => by
    cases same
    simpa [Query.Answer.doubles, Json.ReadsBack] using numbers
  refine ⟨_, _, _, history, ?_, [node], ?_, List.cons_ne_nil _ _⟩
  · decide +kernel
  · decide +kernel

theorem Runs.execute_eq (runs : Runs path place base database definitions versions world)
    (source : String) (useIndex : Bool) :
    (world.run (database.execute source useIndex).run).1 =
      (((Query.Executor.ofSettings (database.manager.targetIf versions.working.isSome) database.name
        database.settings).execute source useIndex).runWith Store.perform versions.store).1 := by
  have reply := runs.reply_eq (.execute source useIndex)
  rw [run_execute_eq] at reply
  exact Reply.executed.inj reply

/-- In every history, the answer to a text does not depend on whether the indexes are probed. -/
theorem History.execute_useIndex_eq (history : History path world (some database) definitions)
    (source : String) :
    (world.run (database.execute source true).run).1 =
      (world.run (database.execute source false).run).1 := by
  obtain ⟨place, base, versions, runs⟩ := history.reaches
  have indexed :=
    runs.describe.isIndexed (database.manager.targetIf versions.working.isSome)
  rw [runs.execute_eq, runs.execute_eq]
  exact congrArg Prod.fst (@Query.Executor.runWith_execute_useIndex (Query.Executor.ofSettings
    (database.manager.targetIf versions.working.isSome) database.name database.settings)
    versions.store definitions.current indexed source)

theorem execute_useIndex_eq_of_new_directory : ∃ world database definitions,
    History (.ofText "db") world (some database) definitions ∧
      ("L", "p") ∈ definitions.current ∧
      (∃ nodes, world.nodes (world.run database.manager.target).1 = .ok nodes ∧ nodes ≠ []) ∧
      (world.run (database.execute "MATCH (n:L \x7bp: 1.5\x7d) RETURN n" true).run).1 =
        (world.run (database.execute "MATCH (n:L \x7bp: 1.5\x7d) RETURN n" false).run).1 := by
  obtain ⟨world, database, definitions, history, defined, loaded⟩ := history_of_new_directory
  exact ⟨world, database, definitions, history, defined, loaded,
    history.execute_useIndex_eq "MATCH (n:L \x7bp: 1.5\x7d) RETURN n"⟩

/-! ## Indexes -/

theorem run_createIndex_eq (database : Database) (world : World) (label property : String) :
    (world.run (database.serve (.createIndex label property))) =
      (.indexed (world.run (database.createIndex label property).run).1,
        (world.run (database.createIndex label property).run).2) := by
  rw [Program.run_eq_runWith, serve, Program.runWith_map, Program.run_eq_runWith]

/-- The indexes that are listed are those that are defined. -/
theorem Runs.listIndexes_eq (runs : Runs path place base database definitions versions world) :
    (world.run database.listIndexes).1 =
      (world.indexes (world.run database.manager.target).1).definitions := by
  have reply := runs.reply_eq .listIndexes
  rw [Program.run_eq_runWith, serve, Program.runWith_map, ← Program.run_eq_runWith] at reply
  rw [runs.indexes_eq, Reply.listed.inj reply]
  exact congrArg Prod.fst (Collections.runWith_listIndexes versions.store _)

theorem Runs.isIndexed (runs : Runs path place base database definitions versions world) :
    versions.store.IsIndexed (database.manager.targetIf versions.working.isSome)
      definitions.current :=
  runs.describe.isIndexed _

/-- An index that is defined is what it would be if it were built from the nodes that load. -/
theorem Runs.get?_of_mem (runs : Runs path place base database definitions versions world)
    {nodes : List Node} (loaded : world.nodes (world.run database.manager.target).1 = .ok nodes)
    {label property : String} (member : (label, property) ∈ definitions.current) :
    (world.indexes (world.run database.manager.target).1).get? label property =
      some (PropertyIndex.build nodes label property) := by
  rw [runs.nodes_eq] at loaded
  rw [runs.indexes_eq]
  obtain ⟨index, found⟩ :=
    Option.isSome_iff_exists.1 ((runs.isIndexed.defined label property).1 member)
  rw [found, runs.isIndexed.built nodes loaded label property index found]

/-- Creating an index that is defined succeeds and changes no index. -/
theorem Runs.createIndex_of_mem
    (runs : Runs path place base database definitions versions world) {nodes : List Node}
    (loaded : world.nodes (world.run database.manager.target).1 = .ok nodes)
    {label property : String} (member : (label, property) ∈ definitions.current) :
    (world.run (database.createIndex label property).run).1 =
        .ok (PropertyIndex.build nodes label property).size ∧
      (world.run (database.createIndex label property).run).2.indexes
          (world.run database.manager.target).1 =
        world.indexes (world.run database.manager.target).1 := by
  rw [runs.nodes_eq] at loaded
  have reliable : versions.store.IsReliable := fun _ => rfl
  have runsAfter := runs.served (run_createIndex_eq database world label property)
    fun answer same => (nomatch same)
  have reply := runs.reply_eq (.createIndex label property)
  rw [run_createIndex_eq] at reply
  rcases (Query.Executor.ofSettings (database.manager.targetIf versions.working.isSome)
    database.name database.settings).runWith_createIndex versions.store label property with
    ⟨others, loadedAgain, created⟩ | ⟨unreliable, -⟩
  · cases loaded.symm.trans loadedAgain
    simp only [Versions.serve, Versions.onTarget, Task.runWith_run, created, Prod.map, id_eq]
      at reply runsAfter
    refine ⟨Reply.indexed.inj reply, ?_⟩
    have sameTarget := runsAfter.target_eq
    have indexes := runsAfter.indexes_eq
    rw [Versions.isSome_working_setStore] at sameTarget indexes
    rw [sameTarget] at indexes
    rw [runs.indexes_eq, runs.target_eq, indexes]
    have unchanged := @Query.Executor.catalog_saveIndex_of_mem (Query.Executor.ofSettings
      (database.manager.targetIf versions.working.isSome) database.name database.settings)
      versions.store definitions.current runs.isIndexed nodes loaded label property member
    refine (Store.catalog_congr ?_).trans unchanged
    exact congrFun (Versions.current_setStore versions _) Collections.indexesFile
  · exact absurd reliable (unreliable nodes loaded)

/-- In every history, the listed indexes are in order and are those that were created and not rolled
back.  When the nodes load, each of them is what it would be if it were built from them, and creating
it again changes no index. -/
theorem History.indexes_eq_build
    (history : History path world (some database) definitions) :
    (world.run database.listIndexes).1.Pairwise IndexCatalog.Precedes ∧
      (∀ pair, pair ∈ (world.run database.listIndexes).1 ↔ pair ∈ definitions.current) ∧
      ∀ nodes, world.nodes (world.run database.manager.target).1 = .ok nodes →
        ∀ label property, (label, property) ∈ definitions.current →
          (world.indexes (world.run database.manager.target).1).get? label property =
              some (PropertyIndex.build nodes label property) ∧
            (world.run (database.createIndex label property).run).1 =
              .ok (PropertyIndex.build nodes label property).size ∧
            (world.run (database.createIndex label property).run).2.indexes
                (world.run database.manager.target).1 =
              world.indexes (world.run database.manager.target).1 := by
  obtain ⟨place, base, versions, runs⟩ := history.reaches
  refine ⟨?_, fun ⟨label, property⟩ => ?_, fun nodes loaded label property member => ?_⟩
  · rw [runs.listIndexes_eq]
    exact IndexCatalog.definitions_sorted _
  · rw [runs.listIndexes_eq, IndexCatalog.mem_definitions, runs.indexes_eq]
    exact (runs.isIndexed.defined label property).symm
  · exact ⟨runs.get?_of_mem loaded member, runs.createIndex_of_mem loaded member⟩

theorem indexes_eq_build_of_new_directory : ∃ world database definitions nodes,
    History (.ofText "db") world (some database) definitions ∧ nodes ≠ [] ∧
      ("L", "p") ∈ (world.run database.listIndexes).1 ∧
      (world.indexes (world.run database.manager.target).1).get? "L" "p" =
        some (PropertyIndex.build nodes "L" "p") ∧
      (world.run (database.createIndex "L" "p").run).2.indexes
          (world.run database.manager.target).1 =
        world.indexes (world.run database.manager.target).1 := by
  obtain ⟨world, database, definitions, history, defined, nodes, loaded, stored⟩ :=
    history_of_new_directory
  obtain ⟨-, listed, built⟩ := history.indexes_eq_build
  obtain ⟨found, -, unchanged⟩ := built nodes loaded "L" "p" defined
  exact ⟨world, database, definitions, nodes, history, stored, (listed ("L", "p")).2 defined, found,
    unchanged⟩

end Database
end GraphStore
