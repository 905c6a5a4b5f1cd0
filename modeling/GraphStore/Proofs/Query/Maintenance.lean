import GraphStore.Proofs.Query.Indexing

/-!
# Maintenance of indexes

A statement that creates nodes files them in the indexes, and one that creates an index builds it
from the stored nodes.  So every statement leaves indexes that are what they would be if they were
built again.
-/

namespace GraphStore

namespace Query

/-- The pairs of which a statement creates an index. -/
def Statement.indexed : Statement → List (String × String)
  | .createIndex label property => [(label, property)]
  | _ => []

/-- The pairs of which the execution of a text created an index. -/
def indexedBy (source : String) (result : Except ExecutionError Answer) : List (String × String) :=
  match parse source, result with
  | .ok statement, .ok _ => statement.indexed
  | _, _ => []

namespace Executor

variable {executor : Executor} {store grown : Store} {pairs : List (String × String)}

/-! ## New nodes -/

theorem catalog_maintained (reduced : (store.catalog executor.directory).IsReduced)
    (maintains : executor.maintainIndexes) (added : List Node) :
    (executor.maintained store added).catalog executor.directory =
      (store.catalog executor.directory).addNodes added := by
  rw [maintained, maintains, Bool.true_and]
  split
  · exact Store.catalog_put store executor.directory executor.style (reduced.addNodes added)
  · next lacksNot =>
      exact (IndexCatalog.addNodes_of_not_lacksSome (Bool.eq_false_iff.2 lacksNot)).symm

theorem indexDocument_maintained (reduced : (store.catalog executor.directory).IsReduced)
    (document : ∀ json, store.indexDocument executor.directory = some json →
      json = (store.catalog executor.directory).toJson) (added : List Node) :
    ∀ json, (executor.maintained store added).indexDocument executor.directory = some json →
      json = ((executor.maintained store added).catalog executor.directory).toJson := by
  unfold maintained
  split
  · intro json read
    rw [Store.catalog_put store executor.directory executor.style (reduced.addNodes added)]
    rw [Store.indexDocument_put] at read
    exact (Option.some.inj read).symm
  · exact document

/-- Filing the nodes that were added to the stored ones keeps the indexes up to date. -/
theorem isIndexed_maintained (indexed : store.IsIndexed executor.directory pairs)
    (maintains : executor.maintainIndexes) {added : List Node}
    (sameIndexes : grown.read Collections.indexesFile = store.read Collections.indexesFile)
    (grows : ∀ all, grown.nodes executor.directory = .ok all →
      Json.ReadsBack (all.flatMap Node.doubles) ∧
        ∃ nodes, store.nodes executor.directory = .ok nodes ∧ ∀ label property,
          PropertyIndex.build all label property =
            PropertyIndex.build (nodes ++ added) label property) :
    (executor.maintained grown added).IsIndexed executor.directory pairs := by
  have before := @Store.catalog_congr store executor.directory grown sameIndexes
  have reduced : (grown.catalog executor.directory).IsReduced := before ▸ indexed.reduced
  have catalog := catalog_maintained reduced maintains added
  rw [before] at catalog
  have document : ∀ json, grown.indexDocument executor.directory = some json →
      json = (grown.catalog executor.directory).toJson := by
    rw [before, Store.indexDocument_congr sameIndexes]
    exact indexed.document
  refine ⟨?_, fun json => ?_, fun label property => ?_, fun all loaded => ?_, fun all loaded => ?_⟩
  · rw [catalog]
    exact indexed.reduced.addNodes added
  · exact indexDocument_maintained reduced document added json
  · rw [catalog, IndexCatalog.get?_addNodes, Option.isSome_map]
    exact indexed.defined label property
  · rw [nodes_maintained] at loaded
    obtain ⟨-, nodes, loadedBefore, sameBuild⟩ := grows all loaded
    intro label property index found
    rw [catalog, IndexCatalog.get?_addNodes] at found
    obtain ⟨old, foundOld, rfl⟩ := Option.map_eq_some_iff.1 found
    rw [sameBuild, PropertyIndex.build_append,
      indexed.built nodes loadedBefore label property old foundOld]
  · rw [nodes_maintained] at loaded
    exact (grows all loaded).1

theorem indexes_saveGrowth (nodes added : List Node) :
    (executor.saveGrowth store nodes added).read Collections.indexesFile =
      store.read Collections.indexesFile := by
  unfold saveGrowth
  split
  · rfl
  · exact Store.read_put_of_ne store _ (by decide)

theorem indexes_saveRelationship (relationships : List Relationship)
    (relationship : Relationship) :
    (executor.saveRelationship store relationships relationship).read Collections.indexesFile =
      store.read Collections.indexesFile :=
  Store.read_put_of_ne store _ (by decide)

/-- The nodes that load after some were added to the stored ones. -/
theorem loads_of_saveGrowth {nodes added : List Node}
    (indexed : store.IsIndexed executor.directory pairs)
    (loaded : store.nodes executor.directory = .ok nodes)
    (readsBack : Json.ReadsBack (added.flatMap Node.doubles)) {all : List Node}
    (loadedAll : (executor.saveGrowth store nodes added).nodes executor.directory = .ok all) :
    Json.ReadsBack (all.flatMap Node.doubles) ∧ ∀ label property,
      PropertyIndex.build all label property =
        PropertyIndex.build (nodes ++ added) label property := by
  have readsBackBoth : Json.ReadsBack ((nodes ++ added).flatMap Node.doubles) := by
    rw [List.flatMap_append, Json.readsBack_append]
    exact ⟨indexed.readsBack nodes loaded, readsBack⟩
  by_cases none : added = []
  · subst none
    rw [saveGrowth, if_pos rfl, loaded] at loadedAll
    cases loadedAll
    rw [List.append_nil]
    exact ⟨indexed.readsBack _ loaded, fun _ _ => rfl⟩
  · rw [nodes_saveGrowth readsBackBoth none] at loadedAll
    split at loadedAll
    · cases loadedAll
      refine ⟨readsBackBoth.of_subset fun number member => ?_,
        PropertyIndex.build_map_sorted (nodes ++ added)⟩
      rw [List.flatMap_map] at member
      obtain ⟨node, found, inNode⟩ := List.mem_flatMap.1 member
      exact List.mem_flatMap.2
        ⟨node, found, (node.properties.mem_doubles_sorted number).1 inNode⟩
    · cases loadedAll

/-! ## New indexes -/

theorem isIndexed_saveIndex (indexed : store.IsIndexed executor.directory pairs)
    {nodes : List Node} (loaded : store.nodes executor.directory = .ok nodes)
    (label property : String) :
    (executor.saveIndex store nodes label property).IsIndexed executor.directory
      ((label, property) :: pairs) := by
  have reduced : ((store.catalog executor.directory).set label property
      (PropertyIndex.build nodes label property)).IsReduced :=
    indexed.reduced.set label property (PropertyIndex.isReduced_build nodes label property)
  have catalog := Store.catalog_put store executor.directory executor.style reduced
  have sameNodes : (executor.saveIndex store nodes label property).nodes executor.directory =
      store.nodes executor.directory := Store.nodes_put_of_ne (by decide) _
  rw [← saveIndex] at catalog
  refine ⟨?_, fun json document => ?_, fun other otherProperty => ?_, fun all loadedAll => ?_,
    fun all loadedAll => ?_⟩
  · rw [catalog]
    exact reduced
  · rw [saveIndex, Store.indexDocument_put] at document
    rw [catalog]
    exact (Option.some.inj document).symm
  · rw [catalog, IndexCatalog.get?_set, List.mem_cons, Prod.mk.injEq,
      indexed.defined other otherProperty]
    split
    · next same => simp [same]
    · next differs => simp [differs]
  · rw [sameNodes] at loadedAll
    cases loaded.symm.trans loadedAll
    intro other otherProperty index found
    rw [catalog, IndexCatalog.get?_set] at found
    split at found
    · next same =>
        cases found
        rw [same.1, same.2]
    · exact indexed.built nodes loaded other otherProperty index found
  · rw [sameNodes] at loadedAll
    exact indexed.readsBack all loadedAll

/-- Building an index again that is there already changes nothing that loads. -/
theorem catalog_saveIndex_of_mem (indexed : store.IsIndexed executor.directory pairs)
    {nodes : List Node} (loaded : store.nodes executor.directory = .ok nodes)
    {label property : String} (member : (label, property) ∈ pairs) :
    (executor.saveIndex store nodes label property).catalog executor.directory =
      store.catalog executor.directory := by
  obtain ⟨index, found⟩ := Option.isSome_iff_exists.1 ((indexed.defined label property).1 member)
  have unchanged := IndexCatalog.set_of_get? found
  rw [indexed.built nodes loaded label property index found] at unchanged
  rw [saveIndex, unchanged]
  exact Store.catalog_put store executor.directory executor.style indexed.reduced

/-! ## Statements -/

/-- A statement leaves indexes over the pairs that were indexed and those that it indexes itself. -/
theorem Effect.isIndexed {statement : Statement} {result : Except ExecutionError Answer}
    {after : Store} (effect : Effect executor store statement result after)
    (reliable : store.IsReliable) (maintains : executor.maintainIndexes)
    (indexed : store.IsIndexed executor.directory pairs)
    (readsBack : ∀ answer, result = .ok answer → Json.ReadsBack answer.doubles) :
    after.IsIndexed executor.directory
      ((match result with | .ok _ => statement.indexed | .error _ => []) ++ pairs) := by
  have indexedThen : ∀ number, (store.withNumber number).IsIndexed executor.directory pairs :=
    fun number => indexed.congr rfl rfl
  cases effect with
  | failed kept => exact indexed.congr (by rw [kept reliable]) (by rw [kept reliable])
  | @nodesCreated patterns nodes added number loaded areNew =>
      have readsBackAdded := readsBack _ rfl
      simp only [Answer.doubles, List.flatMap_nil, List.append_nil] at readsBackAdded
      refine isIndexed_maintained indexed maintains (indexes_saveGrowth nodes added)
        fun all loadedAll => ?_
      obtain ⟨readsBackAll, same⟩ :=
        loads_of_saveGrowth (indexedThen number) loaded readsBackAdded loadedAll
      exact ⟨readsBackAll, nodes, loaded, same⟩
  | @relationshipCreated start target type properties nodes added relationships number startNode
      endNode relationship loaded loadedRelationships areNew addedEnds startMember endMember
      ownProperties =>
      have readsBackAdded : Json.ReadsBack (added.flatMap Node.doubles) := by
        refine (readsBack _ rfl).of_subset fun value member => List.mem_append_left _ ?_
        obtain ⟨node, found, inNode⟩ := List.mem_flatMap.1 member
        exact List.mem_flatMap.2 ⟨node, addedEnds found, inNode⟩
      refine isIndexed_maintained indexed maintains ?_ fun all loadedAll => ?_
      · rw [indexes_saveRelationship]
        exact indexes_saveGrowth nodes added
      · rw [nodes_saveRelationship] at loadedAll
        obtain ⟨readsBackAll, same⟩ :=
          loads_of_saveGrowth (indexedThen number) loaded readsBackAdded loadedAll
        exact ⟨readsBackAll, nodes, loaded, same⟩
  | @indexCreated label property nodes message loaded =>
      exact isIndexed_saveIndex indexed loaded label property
  | matched => exact indexed

/-- The execution of a text leaves indexes over the pairs that were indexed and those that it
indexes itself. -/
theorem isIndexed_execute (reliable : store.IsReliable) (maintains : executor.maintainIndexes)
    (indexed : store.IsIndexed executor.directory pairs) {source : String} {useIndex : Bool}
    {result : Except ExecutionError Answer} {after : Store}
    (ran : (executor.execute source useIndex).runWith Store.perform store = (result, after))
    (readsBack : ∀ answer, result = .ok answer → Json.ReadsBack answer.doubles) :
    after.IsIndexed executor.directory (indexedBy source result ++ pairs) := by
  unfold execute at ran
  unfold indexedBy
  cases parsed : parse source with
  | error error =>
      rw [parsed] at ran
      cases ran
      exact indexed
  | ok statement =>
      rw [parsed] at ran
      have effect := executor.effect_executeStatement store statement useIndex
      simp only at ran
      rw [ran] at effect
      have indexedAfter := effect.isIndexed reliable maintains indexed readsBack
      cases result with
      | error error => exact indexedAfter
      | ok answer => exact indexedAfter

end Executor
end Query
end GraphStore
