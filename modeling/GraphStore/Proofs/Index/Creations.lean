import GraphStore.Proofs.Index.Probes
import GraphStore.Proofs.Query.Paths

/-!
# Created indexes

An index that is created holds what the stored nodes have under the property, whatever the file of
the indexes held before.  The other indexes that were read from that file are written back.
-/

namespace GraphStore

namespace PropertyIndex

/-- An index finds the ids of the nodes it was built from whose value is loosely equal. -/
theorem lookup_build (nodes : List Node) (label property : String) (value : Value) :
    (build nodes label property).lookup value =
      ((nodes.filter fun node => node.hasLabel label &&
        (node.properties.get? property).any fun actual =>
          actual.looselyEquals value).map Node.id).eraseDups := by
  have same : ∀ node, isFiledUnder label property value.keyText node = (node.hasLabel label &&
      (node.properties.get? property).any fun actual => actual.looselyEquals value) := by
    intro node
    unfold isFiledUnder indexed?
    cases node.hasLabel label <;> rfl
  rw [lookup, bucket_build, funext same]

/-- An index has as many key texts as the property has among the nodes with the label. -/
theorem size_build_eq (nodes : List Node) (label property : String) :
    (build nodes label property).size =
      (((nodes.filter (·.hasLabel label)).filterMap fun node =>
        node.properties.get? property).map Value.keyText).toFinset.card := by
  rw [size_build, List.filterMap_filter]
  rfl

end PropertyIndex

namespace Collections

variable {world : World} {directory : Path} {nodes : List Node}

/-- The catalog that is saved when an index is created over nodes. -/
def createdCatalog (world : World) (directory : Path) (nodes : List Node)
    (label property : String) : IndexCatalog :=
  (world.indexes directory).set label property (.build nodes label property)

theorem isReduced_createdCatalog (world : World) (directory : Path) (nodes : List Node)
    (label property : String) : (createdCatalog world directory nodes label property).IsReduced := by
  rw [createdCatalog, World.indexes_eq]
  exact (Store.isReduced_catalog _ _).set label property
    (PropertyIndex.isReduced_build nodes label property)

/-- When the nodes load, an index is created exactly if the file of the indexes is replaced. -/
theorem run_createIndex_eq_ok (loaded : world.nodes directory = .ok nodes) (style : Json.Style)
    (label property : String) (distinct : Nat) (after : World) :
    world.run (createIndex directory style label property).run = (.ok distinct, after) ↔
      distinct = (PropertyIndex.build nodes label property).size ∧
      ∃ disk, world.disk.replace directory indexesFile
          (.text ((createdCatalog world directory nodes label property).toJson.write style)) =
            (.done, disk) ∧
        after = { world with disk } := by
  have loadsNodes : world.run (loadNodes directory).run = (.ok nodes, world) :=
    Prod.ext loaded (loads_loadNodes.run_snd world)
  have loadsIndexes : world.run (loadIndexes directory) = (world.indexes directory, world) :=
    Prod.ext rfl (loads_loadIndexes.run_snd world)
  rw [Program.run_eq_runWith] at loadsIndexes
  rw [Program.run_eq_runWith, Task.runWith_run] at loadsNodes
  rw [Program.run_eq_runWith, Task.runWith_run, createIndex, Task.runWith_bind_of_ok loadsNodes,
    Task.runWith_bind_of_ok (Task.runWith_lift _ _ _), loadsIndexes, saveIndexes, Document.write,
    Document.replace, bind_assoc, Task.runWith_bind_of_ok (Task.runWith_perform _ _ _)]
  simp only [World.perform, World.onDisk, createdCatalog]
  generalize world.disk.replace directory indexesFile _ = replaced
  obtain ⟨_ | _ | _, disk⟩ := replaced
  · constructor
    · intro ran
      obtain ⟨same, rfl⟩ := Prod.mk.inj ran
      exact ⟨(Except.ok.inj same).symm, disk, rfl, rfl⟩
    · rintro ⟨rfl, _, same, rfl⟩
      obtain rfl := (Prod.mk.inj same).2
      rfl
  all_goals
    refine iff_of_false (fun ran => ?_) ?_
    · cases (Prod.mk.inj ran).1
    · rintro ⟨-, _, same, -⟩
      cases (Prod.mk.inj same).1

/-- When the nodes load, an index is created exactly if the file of the indexes can be replaced,
whatever is in it.  The answer is the number of different key texts that the property has among the
nodes with the label.  From then on probing the index for any value finds the ids of the nodes with
the label whose property is loosely equal to it, each once and in the order of the nodes; and all
other indexes are as they were, and so are the nodes if the directory stands or its path does not go
up. -/
theorem createIndex_is_exact (loaded : world.nodes directory = .ok nodes) (style : Json.Style)
    (label property : String) :
    ((∃ distinct after,
        world.run (createIndex directory style label property).run = (.ok distinct, after)) ↔
      world.disk.replacement directory indexesFile = .done) ∧
    ∀ distinct after,
      world.run (createIndex directory style label property).run = (.ok distinct, after) →
      distinct = (((nodes.filter (·.hasLabel label)).filterMap fun node =>
        node.properties.get? property).map Value.keyText).toFinset.card ∧
      (∀ value, (after.run (probeIndex directory label property value)).1 =
        ((nodes.filter fun node => node.hasLabel label &&
          (node.properties.get? property).any fun actual =>
            actual.looselyEquals value).map Node.id).eraseDups) ∧
      (∀ other otherProperty, (other, otherProperty) ≠ (label, property) →
        (after.indexes directory).get? other otherProperty =
          (world.indexes directory).get? other otherProperty) ∧
      (world.disk.Receives directory → after.nodes directory = .ok nodes) := by
  simp only [run_createIndex_eq_ok loaded]
  constructor
  · rw [← Tree.fst_replace _ _ _
      (.text ((createdCatalog world directory nodes label property).toJson.write style))]
    constructor
    · rintro ⟨_, _, _, disk, replaced, -⟩
      rw [replaced]
    · exact fun possible => ⟨_, _, rfl, _, Prod.ext possible rfl, rfl⟩
  rintro _ _ ⟨rfl, disk, replaced, rfl⟩
  have saved : ({ world with disk }.storeAt directory).read indexesFile = .ok (.text
      ((createdCatalog world directory nodes label property).toJson.write style)) :=
    Tree.readAt_replace_self (by decide) replaced
  refine ⟨PropertyIndex.size_build_eq nodes label property, fun value => ?_,
    fun other otherProperty differs => ?_, fun receives => ?_⟩
  · rw [World.run_probeIndex, Store.probe, Store.indexDocument_of_read saved]
    simp only [createdCatalog, IndexCatalog.probe_toJson, IndexCatalog.get?_set, and_self, if_true,
      Option.map_some, Option.getD_some, PropertyIndex.lookup_build]
  · rw [World.indexes_eq, Store.catalog_of_read saved (isReduced_createdCatalog _ _ _ _ _),
      createdCatalog, IndexCatalog.get?_set, if_neg fun same => differs (Prod.ext same.1 same.2)]
  · rw [World.nodes, loadNodes, Document.run_readItems] at loaded ⊢
    rw [receives.readAt_replace_of_ne (by decide) (by decide) (by decide) (by decide)
      (Document.ne_obstructed_of_itemsOfContent loaded) replaced, loaded]

/-- Nodes with a repeated id, several labels, and a number and a text with the same key text.  The
file of the indexes has another index and malformed parts. -/
theorem createIndex_is_exact_beside_malformed :
    let world : World := { disk := .directory [("db", .directory
      [("indexes.json", .file (.text
          "\x7b\"L\":[\"p\"],\"M\":\x7b\"q\":\x7b\"k\":[\"z\",7]\x7d,\"p\":null\x7d\x7d")),
        ("nodes.json", .file (.text ("[" ++
          "[\"x\",[\"K\",\"L\"],\x7b\"p\":30\x7d],[\"y\",[\"L\"],\x7b\"p\":\"30\"\x7d]," ++
          "[\"x\",[\"L\",\"L\"],\x7b\"p\":30,\"q\":true\x7d],[\"z\",[\"L\"],\x7b\"p\":true\x7d]," ++
          "[\"z\",[\"K\"],\x7b\"p\":30\x7d]]")))])] }
    let directory := Path.ofText "db"
    let nodes : List Node := [⟨"x", ["K", "L"], .ofList [("p", .integer 30)]⟩,
      ⟨"y", ["L"], .ofList [("p", .text "30")]⟩,
      ⟨"x", ["L", "L"], .ofList [("p", .integer 30), ("q", .boolean true)]⟩,
      ⟨"z", ["L"], .ofList [("p", .boolean true)]⟩, ⟨"z", ["K"], .ofList [("p", .integer 30)]⟩]
    ∃ after, world.run (createIndex directory .indented "L" "p").run = (.ok 2, after) ∧
      (after.run (probeIndex directory "L" "p" (.text "30"))).1 = ["x", "y"] ∧
      (after.indexes directory).get? "M" "q" = some ((PropertyIndex.empty).file "k" "z") ∧
      after.nodes directory = .ok nodes := by
  intro world directory nodes
  have loaded : world.nodes directory = .ok nodes := by decide +kernel
  obtain ⟨succeeds, exactly⟩ := createIndex_is_exact loaded .indented "L" "p"
  obtain ⟨distinct, after, ran⟩ := succeeds.2 (by decide +kernel)
  obtain ⟨counted, probed, others, kept⟩ := exactly distinct after ran
  obtain rfl : distinct = 2 := counted.trans (by decide +kernel)
  refine ⟨after, ran, ?_, ?_, kept (.inr (by decide))⟩
  · rw [probed]
    decide +kernel
  · rw [others "M" "q" (by decide)]
    decide +kernel

end Collections
end GraphStore
