import GraphStore.Proofs.Index.Documents
import GraphStore.Proofs.Query.Failures

/-!
# Probing and loading indexes

The file of the indexes has two readers: a probe looks for one list of ids in the document, and a
load reads all indexes that are well formed.  Whatever the file holds, both find the same ids, and an
index is there exactly if objects lead to it.
-/

namespace GraphStore

namespace IndexCatalog

variable {json : Json} {label property : String}

/-- A catalog that is read has the indexes to which objects lead. -/
theorem contains_ofJson_iff (inOrder : json.InOrder) :
    (ofJson json).contains label property ↔
      ∃ labels properties buckets, json = .object labels ∧
        labels.lookup label = some (.object properties) ∧
        properties.lookup property = some (.object buckets) := by
  rw [contains, get?_ofJson inOrder, Option.isSome_iff_exists]
  simp only [Option.bind_eq_some_iff]
  constructor
  · rintro ⟨_, index, ⟨indexes, labelled, found⟩, read⟩
    obtain ⟨buckets, object, -⟩ := Option.map_eq_some_iff.1 read
    cases index with
    | object =>
        cases json with
        | object labels =>
            cases indexes with
            | object properties => exact ⟨labels, properties, _, rfl, labelled, found⟩
            | _ => cases found
        | _ => cases labelled
    | _ => cases object
  · rintro ⟨labels, properties, buckets, rfl, labelled, found⟩
    exact ⟨.ofFields buckets, .object buckets, ⟨.object properties, labelled, found⟩, rfl⟩

end IndexCatalog

namespace World

variable (world : World) (directory : Path)

theorem indexes_eq : world.indexes directory = (world.storeAt directory).catalog directory := by
  rw [indexes, Program.run_eq_runWith]
  exact runWith_loadIndexes world directory

theorem run_readIndexes :
    (world.run (Collections.readIndexes directory)).1 =
      (world.storeAt directory).indexDocument directory := by
  rw [Collections.loads_readIndexes.run_storeAt, Collections.runWith_readIndexes]

theorem run_probeIndex (label property : String) (value : Value) :
    (world.run (Collections.probeIndex directory label property value)).1 =
      (world.storeAt directory).probe directory label property value := by
  rw [(Collections.loads_probeIndex label property value).run_storeAt,
    Collections.runWith_probeIndex]

theorem run_hasIndex (label property : String) :
    (world.run (Collections.hasIndex directory label property)).1 =
      (world.indexes directory).contains label property := by
  rw [indexes, Program.run_eq_runWith, Program.run_eq_runWith, Collections.hasIndex,
    Program.runWith_bind, Program.runWith_pure]

end World

/-- Whatever the file of the indexes holds, a probe finds, apart from repetitions, the ids that the
loaded index has under the value, and none if there is no such index or no such bucket.  There is an
index over a label and a property exactly if the document, its entry for the label and the entry
there for the property are objects. -/
theorem Collections.probe_agrees_with_load (world : World) (directory : Path)
    (label property : String) :
    (∀ value : Value,
      (world.run (probeIndex directory label property value)).1.eraseDups =
        (((world.indexes directory).get? label property).map fun index =>
          index.lookup value).getD []) ∧
    ((world.run (hasIndex directory label property)).1 = true ↔
      ∃ labels properties buckets,
        (world.run (readIndexes directory)).1 = some (.object labels) ∧
        labels.lookup label = some (.object properties) ∧
        properties.lookup property = some (.object buckets)) := by
  rw [world.run_hasIndex, world.indexes_eq, world.run_readIndexes]
  constructor
  · intro value
    rw [world.run_probeIndex]
    exact Store.eraseDups_probe (world.storeAt directory) directory label property value
  · rw [Store.catalog_eq]
    cases document : (world.storeAt directory).indexDocument directory with
    | none =>
        refine iff_of_false Bool.false_ne_true ?_
        rintro ⟨_, _, _, missing, -, -⟩
        cases missing
    | some json =>
        rw [Option.map_some, Option.getD_some,
          IndexCatalog.contains_ofJson_iff (Store.inOrder_of_indexDocument document)]
        simp only [Option.some.injEq]

end GraphStore
