import GraphStore.Proofs.Index.Catalogs
import GraphStore.Proofs.Query.Readability

/-!
# Maintained indexes

As long as every creation of nodes files them in the indexes, each stored index is the one that
would be built from the stored nodes.  Then its buckets hold all nodes that a match may ask for, and
probing it does not change the answer.
-/

namespace GraphStore

/-! ## The file of the indexes -/

namespace Store

variable {store : Store} {directory : Path}

theorem catalog_eq (store : Store) (directory : Path) :
    store.catalog directory =
      ((store.indexDocument directory).map IndexCatalog.ofJson).getD .empty := by
  unfold catalog
  cases store.indexDocument directory <;> rfl

theorem indexDocument_congr {other : Store}
    (same : other.read Collections.indexesFile = store.read Collections.indexesFile) :
    other.indexDocument directory = store.indexDocument directory := by
  rw [indexDocument, same, indexDocument]

theorem catalog_congr {other : Store}
    (same : other.read Collections.indexesFile = store.read Collections.indexesFile) :
    other.catalog directory = store.catalog directory := by
  rw [catalog, indexDocument_congr same, catalog]

theorem nodes_congr {other : Store}
    (same : other.read Collections.nodesFile = store.read Collections.nodesFile) :
    other.nodes directory = store.nodes directory := by
  rw [nodes, same, nodes]

/-- The document in a file that a catalog was written to is the JSON form of the catalog. -/
theorem indexDocument_of_read {style : Json.Style} {catalog : IndexCatalog}
    (saved : store.read Collections.indexesFile = .ok (.text (catalog.toJson.write style))) :
    store.indexDocument directory = some catalog.toJson := by
  have filled := Json.trim_write_ne_nil style (show catalog.toJson.isContainer from rfl)
  simp only [indexDocument, saved, Document.ofContent, filled, if_false,
    catalog.sortedDocument?_write_toJson style]

theorem catalog_of_read {style : Json.Style} {catalog : IndexCatalog}
    (saved : store.read Collections.indexesFile = .ok (.text (catalog.toJson.write style)))
    (reduced : catalog.IsReduced) : store.catalog directory = catalog := by
  rw [catalog_eq, indexDocument_of_read saved, Option.map_some, Option.getD_some,
    IndexCatalog.ofJson_toJson reduced]

theorem indexDocument_put (store : Store) (directory : Path) (style : Json.Style)
    (catalog : IndexCatalog) :
    (store.put Collections.indexesFile (.text (catalog.toJson.write style))).indexDocument
      directory = some catalog.toJson :=
  indexDocument_of_read (read_put_self store _ _)

theorem catalog_put (store : Store) (directory : Path) (style : Json.Style)
    {catalog : IndexCatalog} (reduced : catalog.IsReduced) :
    (store.put Collections.indexesFile (.text (catalog.toJson.write style))).catalog directory =
      catalog :=
  catalog_of_read (read_put_self store _ _) reduced

/-- Which document the indexes are in does not depend on the path to it. -/
theorem indexDocument_path (store : Store) (directory other : Path) :
    store.indexDocument directory = store.indexDocument other := by
  unfold indexDocument
  cases read : Document.ofContent (directory.child Collections.indexesFile)
      (store.read Collections.indexesFile) with
  | ok document => rw [Document.ofContent_path _ read]
  | error error =>
      cases readOther : Document.ofContent (other.child Collections.indexesFile)
          (store.read Collections.indexesFile) with
      | error error => rfl
      | ok document =>
          rw [Document.ofContent_path _ readOther] at read
          cases read

/-! ## Indexed stores -/

/-- Whether the stored indexes are those over some pairs, each of them as it would be built from the
stored nodes; and whether the doubles of the nodes are read back. -/
structure IsIndexed (store : Store) (directory : Path) (pairs : List (String × String)) :
    Prop where
  reduced : (store.catalog directory).IsReduced
  document : ∀ json, store.indexDocument directory = some json →
    json = (store.catalog directory).toJson
  defined : ∀ label property, (label, property) ∈ pairs ↔
    ((store.catalog directory).get? label property).isSome
  built : ∀ nodes, store.nodes directory = .ok nodes → ∀ label property index,
    (store.catalog directory).get? label property = some index →
      index = PropertyIndex.build nodes label property
  readsBack : ∀ nodes, store.nodes directory = .ok nodes →
    Json.ReadsBack (nodes.flatMap Node.doubles)

variable {pairs : List (String × String)}

theorem IsIndexed.congr (indexed : store.IsIndexed directory pairs) {other : Store}
    (sameNodes : other.read Collections.nodesFile = store.read Collections.nodesFile)
    (sameIndexes : other.read Collections.indexesFile = store.read Collections.indexesFile) :
    other.IsIndexed directory pairs := by
  have nodes := @nodes_congr store directory other sameNodes
  have document := @indexDocument_congr store directory other sameIndexes
  have catalog := @catalog_congr store directory other sameIndexes
  refine ⟨?_, ?_, ?_, ?_, ?_⟩
  · rw [catalog]
    exact indexed.reduced
  · rw [document, catalog]
    exact indexed.document
  · rw [catalog]
    exact indexed.defined
  · rw [nodes, catalog]
    exact indexed.built
  · rw [nodes]
    exact indexed.readsBack

/-- What the indexes of a directory are does not depend on the path that leads to it. -/
theorem IsIndexed.at (indexed : store.IsIndexed directory pairs) (other : Path) :
    store.IsIndexed other pairs := by
  have document : store.indexDocument other = store.indexDocument directory :=
    indexDocument_path store other directory
  have catalog : store.catalog other = store.catalog directory := by
    rw [catalog, document, catalog]
  have loads : ∀ {nodes}, store.nodes other = .ok nodes → store.nodes directory = .ok nodes :=
    fun loaded => Document.itemsOfContent_path _ loaded
  refine ⟨?_, ?_, ?_, fun nodes loaded => ?_, fun nodes loaded => ?_⟩
  · rw [catalog]
    exact indexed.reduced
  · rw [document, catalog]
    exact indexed.document
  · rw [catalog]
    exact indexed.defined
  · rw [catalog]
    exact indexed.built nodes (loads loaded)
  · exact indexed.readsBack nodes (loads loaded)

/-- A store without indexes in which all doubles are read back. -/
theorem isIndexed_of_empty (document : ∀ json, store.indexDocument directory = some json →
      json = IndexCatalog.empty.toJson)
    (readsBack : ∀ nodes, store.nodes directory = .ok nodes →
      Json.ReadsBack (nodes.flatMap Node.doubles)) : store.IsIndexed directory [] := by
  have empty : store.catalog directory = .empty := by
    rw [catalog_eq]
    cases found : store.indexDocument directory with
    | none => rfl
    | some json =>
        rw [document json found, Option.map_some, Option.getD_some,
          IndexCatalog.ofJson_toJson IndexCatalog.isReduced_empty]
  refine ⟨?_, ?_, fun label property => ?_, fun _ _ label property index found => ?_, readsBack⟩
  · rw [empty]
    exact IndexCatalog.isReduced_empty
  · rw [empty]
    exact document
  · rw [empty]
    exact ⟨fun member => absurd member List.not_mem_nil, fun some => (nomatch some)⟩
  · rw [empty] at found
    cases found

/-- What probing the stored indexes finds. -/
theorem IsIndexed.probe_eq (indexed : store.IsIndexed directory pairs) (label property : String)
    (value : Value) :
    store.probe directory label property value =
      (((store.catalog directory).get? label property).map fun index =>
        index.lookup value).getD [] := by
  unfold probe
  cases document : store.indexDocument directory with
  | none =>
      have empty : store.catalog directory = .empty := by rw [catalog_eq, document]; rfl
      rw [empty]
      rfl
  | some json =>
      simp only
      rw [indexed.document json document, IndexCatalog.probe_toJson]

end Store

/-! ## Matches -/

namespace Query
namespace Executor

variable {executor : Executor} {store : Store} {pairs : List (String × String)}

/-- A pattern with a label and a single property accepts the nodes that an index files under the
key text of its value. -/
theorem accepts_iff {pattern : NodePattern} {label property : String} {value : Value}
    (labelled : pattern.label = some label)
    (single : pattern.properties.entries = [(property, value)]) (node : Node) :
    pattern.accepts node ↔ ∃ actual, PropertyIndex.indexed? node label property = some actual ∧
      value.keyText = actual.keyText := by
  simp only [NodePattern.accepts, Node.satisfies, labelled, Option.all_some, Bool.and_eq_true,
    Properties.satisfies, single, List.all_cons, List.all_nil, Bool.and_true,
    PropertyIndex.indexed?]
  by_cases hasLabel : node.hasLabel label
  · rw [if_pos hasLabel]
    cases node.properties.get? property with
    | none => simp
    | some actual =>
        simp only [hasLabel, true_and, Value.looselyEquals, beq_iff_eq, Option.some.injEq,
          exists_eq_left']
        exact eq_comm
  · simp [hasLabel]

/-- An index over some nodes files those that a pattern accepts under its value. -/
theorem mem_lookup_build_iff {pattern : NodePattern} {label property : String} {value : Value}
    (labelled : pattern.label = some label)
    (single : pattern.properties.entries = [(property, value)]) (nodes : List Node) (id : String) :
    id ∈ (PropertyIndex.build nodes label property).lookup value ↔
      ∃ node ∈ nodes, pattern.accepts node ∧ id = node.id := by
  rw [PropertyIndex.lookup, PropertyIndex.mem_bucket_build]
  simp only [accepts_iff labelled single, exists_and_right, ← and_assoc]

/-- Every node that a pattern accepts is among those that the indexes leave. -/
theorem select_narrowed (indexed : store.IsIndexed executor.directory pairs)
    {nodes : List Node} (loaded : store.nodes executor.directory = .ok nodes)
    (pattern : NodePattern) (useIndex : Bool) :
    pattern.select (narrowed (executor.probed store pattern useIndex) nodes) =
      pattern.select nodes := by
  unfold narrowed
  split
  · rfl
  · next filled =>
      rw [NodePattern.select, NodePattern.select, List.filter_filter]
      refine List.filter_congr fun node member => ?_
      rw [Bool.and_eq_left_iff_imp]
      intro accepted
      rw [List.contains_iff_mem]
      revert filled
      unfold probed
      split
      · next label property value labelled single =>
          split
          · intro filled
            rw [indexed.probe_eq] at filled ⊢
            cases found : (store.catalog executor.directory).get? label property with
            | none =>
                rw [found] at filled
                exact absurd rfl filled
            | some index =>
                rw [Option.map_some, Option.getD_some,
                  indexed.built nodes loaded label property index found]
                exact (mem_lookup_build_iff labelled single nodes node.id).2
                  ⟨node, member, accepted, rfl⟩
          · exact fun filled => absurd rfl filled
      · exact fun filled => absurd rfl filled

/-- Probing the indexes of a match does not change how it ends. -/
theorem runWith_executeMatch_useIndex (indexed : store.IsIndexed executor.directory pairs)
    (query : MatchQuery) :
    (executor.executeMatch query true).runWith Store.perform store =
      (executor.executeMatch query false).runWith Store.perform store := by
  unfold executeMatch
  split
  · rw [Task.runWith_mapError, Task.runWith_mapError]
    split
    · rfl
    · rfl
    · by_cases plain : query.pattern.start.properties.entries = []
      · rw [matchNode, matchNode, if_pos plain, if_pos plain]
      · rw [executor.runWith_matchNode store true plain,
          executor.runWith_matchNode store false plain]
        cases loaded : store.nodes executor.directory with
        | error error => rfl
        | ok nodes =>
            simp only [Except.map, select_narrowed indexed loaded]
  · rfl

/-- Probing the indexes does not change how the execution of a text ends. -/
theorem runWith_execute_useIndex (indexed : store.IsIndexed executor.directory pairs)
    (source : String) :
    (executor.execute source true).runWith Store.perform store =
      (executor.execute source false).runWith Store.perform store := by
  unfold execute
  cases parse source with
  | error error => rfl
  | ok statement =>
      cases statement with
      | matching query => exact runWith_executeMatch_useIndex indexed query
      | createNodes | createRelationship | createIndex => rfl

end Executor
end Query
end GraphStore
