import GraphStore.Proofs.Disk.Directories
import GraphStore.Proofs.Store.Holdings

/-!
# Saving and loading collections

Saving and loading sorts the properties of every entity by key and changes nothing else.  A loaded
collection is sorted already, so that it comes back exactly.
-/

namespace GraphStore

/-! ## Values in the order of their keys -/

namespace Json

/-- Whether the fields of every object in a value are in the order of their keys. -/
def InOrder (json : Json) : Prop :=
  ∃ unsorted : Json, json = unsorted.sorted

theorem inOrder_of_sortedDocument? {source : String} {json : Json}
    (loaded : sortedDocument? source = some json) : json.InOrder := by
  obtain ⟨document, -, rfl⟩ := Option.map_eq_some_iff.1 loaded
  exact ⟨document, rfl⟩

theorem InOrder.items {items : List Json} (inOrder : (array items).InOrder) :
    ∀ item ∈ items, item.InOrder := by
  obtain ⟨unsorted, same⟩ := inOrder
  cases unsorted with
  | array all =>
      rw [sorted_array] at same
      cases same
      intro item member
      obtain ⟨first, -, rfl⟩ := List.mem_map.1 member
      exact ⟨first, rfl⟩
  | _ => cases same

theorem InOrder.keys {fields : List (String × Json)} (inOrder : (object fields).InOrder) :
    (fields.map Prod.fst).Pairwise (· < ·) := by
  obtain ⟨unsorted, same⟩ := inOrder
  cases unsorted with
  | object all =>
      rw [sorted_object] at same
      cases same
      exact (SortedMap.ofList _).keys_sorted
  | _ => cases same

theorem InOrder.fields {fields : List (String × Json)} (inOrder : (object fields).InOrder) :
    ∀ field ∈ fields, field.2.InOrder := by
  obtain ⟨unsorted, same⟩ := inOrder
  cases unsorted with
  | object all =>
      rw [sorted_object] at same
      cases same
      intro field member
      obtain ⟨first, -, rfl⟩ := List.mem_map.1 (SortedMap.mem_of_mem_ofList member)
      exact ⟨first.2, rfl⟩
  | _ => cases same

theorem InOrder.record? {names : List String} {json : Json} {fields : List (String × Json)}
    (record : json.record? names = some fields) (inOrder : json.InOrder) :
    ∀ field ∈ fields, field.2.InOrder := by
  cases json with
  | object all =>
      simp only [Json.record?, Option.ite_none_right_eq_some, Option.some.injEq] at record
      obtain ⟨-, rfl⟩ := record
      intro field member
      exact inOrder.fields field (List.mem_filter.1 member).1
  | array items =>
      simp only [Json.record?, Option.ite_none_right_eq_some, Option.some.injEq] at record
      obtain ⟨-, rfl⟩ := record
      intro field member
      exact inOrder.items field.2 (List.of_mem_zip member).2
  | _ => cases record

end Json

namespace Properties

theorem keys_sorted (properties : Properties) : properties.sorted.keys.Pairwise (· < ·) :=
  (SortedMap.ofList properties.entries).keys_sorted

theorem sorted_eq_self {properties : Properties} (inOrder : properties.keys.Pairwise (· < ·)) :
    properties.sorted = properties :=
  ext_entries (SortedMap.entries_ofList inOrder)

theorem keys_of_mapM {fields : List (String × Json)} {entries : List (String × Value)}
    (decoded : (fields.mapM fun field =>
      (Value.ofJson? field.2).map fun value => (field.1, value)) = some entries) :
    entries.map Prod.fst = fields.map Prod.fst := by
  induction fields generalizing entries with
  | nil =>
      cases decoded
      rfl
  | cons field rest ih =>
      simp only [List.mapM_cons, Option.bind_eq_bind, Option.bind_eq_some_iff,
        Option.map_eq_some_iff] at decoded
      obtain ⟨_, ⟨value, -, rfl⟩, others, readRest, same⟩ := decoded
      cases same
      rw [List.map_cons, List.map_cons, ih readRest]

/-- Properties that are read from sorted fields have sorted keys. -/
theorem keys_of_ofJson? {json : Json} {properties : Properties}
    (decoded : ofJson? json = some properties) (inOrder : json.InOrder) :
    properties.keys.Pairwise (· < ·) := by
  cases json with
  | object fields =>
      obtain ⟨entries, values, rfl⟩ := Option.map_eq_some_iff.1 decoded
      have sorted : (entries.map Prod.fst).Pairwise (· < ·) := by
        rw [keys_of_mapM values]
        exact inOrder.keys
      rw [ofList_entries ⟨entries, SortedMap.keys_nodup ⟨entries, sorted⟩⟩]
      exact sorted
  | _ => cases decoded

theorem keys_of_defaulted? {fields : List (String × Json)} {properties : Properties}
    (decoded : Json.defaulted? fields "properties" ofJson? .empty = some properties)
    (inOrder : ∀ field ∈ fields, field.2.InOrder) : properties.keys.Pairwise (· < ·) := by
  unfold Json.defaulted? at decoded
  split at decoded
  · cases decoded
    exact List.Pairwise.nil
  · next value found =>
      obtain ⟨before, after, rfl, -⟩ := List.lookup_eq_some_iff.1 found
      exact keys_of_ofJson? decoded (inOrder ("properties", value) (by simp))

end Properties

theorem Node.sorted_of_ofJson? {json : Json} {node : Node} (decoded : ofJson? json = some node)
    (inOrder : json.InOrder) : node.sorted = node := by
  simp only [ofJson?, Option.bind_eq_bind, Option.bind_eq_some_iff] at decoded
  obtain ⟨fields, record, _, -, _, -, properties, read, same⟩ := decoded
  cases same
  have keys := Properties.keys_of_defaulted? read (inOrder.record? record)
  rw [sorted, Properties.sorted_eq_self keys]

theorem Relationship.sorted_of_ofJson? {json : Json} {relationship : Relationship}
    (decoded : ofJson? json = some relationship) (inOrder : json.InOrder) :
    relationship.sorted = relationship := by
  simp only [ofJson?, Option.bind_eq_bind, Option.bind_eq_some_iff] at decoded
  obtain ⟨fields, record, _, -, _, -, _, -, _, -, properties, read, same⟩ := decoded
  cases same
  have keys := Properties.keys_of_defaulted? read (inOrder.record? record)
  rw [sorted, Properties.sorted_eq_self keys]

/-- Loading what was loaded changes nothing. -/
theorem Document.map_sorted_of_itemsOfContent {α : Type} {decode : Json → Option α} {sorted : α → α}
    (sortedOfJson : ∀ {json value}, decode json = some value → json.InOrder → sorted value = value)
    {path : Path} {content : Except Fault Content} {values : List α}
    (loaded : itemsOfContent decode path content = .ok values) : values.map sorted = values := by
  have each : ∀ value ∈ values, sorted value = value :=
    forall_mem_of_itemsOfContent_of_array sortedOfJson
      (fun read => (Json.inOrder_of_sortedDocument? read).items) loaded
  calc
    values.map sorted = values.map id := List.map_congr_left each
    _ = values := List.map_id values

/-! ## Files that are replaced and read -/

namespace Document

variable {α : Type} (decode : Json → Option α)

theorem run_readItems (world : World) (path : Path) :
    (world.run (readItems decode path).run).1 =
      itemsOfContent decode path (world.disk.readAt path) := by
  rw [Program.run_eq_runWith, Task.runWith_run, readItems, read, bind_assoc,
    Task.runWith_bind_of_ok (Task.runWith_perform _ _ _)]
  simp only [World.perform]
  cases document : ofContent path (world.disk.readAt path) <;>
    simp [Task.runWith_bind, itemsOfContent, document, Except.bind]

/-- What a file lists that a document was written to. -/
theorem run_write_readItems {world : World} {directory : Path} {name : String}
    (named : name ≠ "") (possible : world.disk.replacement directory name = .done)
    (style : Json.Style) (json : Json) :
    ∃ after, world.run (write directory name style json).run = (.ok (), after) ∧
      (after.run (readItems decode (directory.child name)).run).1 =
        itemsOfContent decode (directory.child name) (.ok (.text (json.write style))) := by
  obtain ⟨disk, replaced, content⟩ :=
    Tree.readAt_of_replacement named possible (.text (json.write style))
  refine ⟨{ world with disk }, ?_, ?_⟩
  · rw [Program.run_eq_runWith, Task.runWith_run, write, replace,
      Task.runWith_bind_of_ok (Task.runWith_perform _ _ _)]
    simp only [World.perform, World.onDisk, replaced]
    rfl
  · rw [run_readItems, content]

end Document

namespace Collections

variable {world : World} {directory : Path}

theorem run_saveNodes (possible : world.disk.replacement directory nodesFile = .done)
    (style : Json.Style) {nodes : List Node} (finite : nodes.all Node.isFinite)
    (readsBack : Json.ReadsBack (nodes.flatMap Node.doubles)) :
    ∃ after, world.run (saveNodes directory style nodes).run = (.ok (), after) ∧
      after.nodes directory = .ok (nodes.map Node.sorted) := by
  obtain ⟨after, saved, loaded⟩ := Document.run_write_readItems Node.ofJson? (by decide) possible
    style (.array (nodes.map Node.toJson))
  rw [Document.nodes_write _ style nodes readsBack, if_pos finite] at loaded
  exact ⟨after, saved, loaded⟩

theorem run_saveRelationships
    (possible : world.disk.replacement directory relationshipsFile = .done) (style : Json.Style)
    {relationships : List Relationship} (finite : relationships.all Relationship.isFinite)
    (readsBack : Json.ReadsBack (relationships.flatMap Relationship.doubles)) :
    ∃ after, world.run (saveRelationships directory style relationships).run = (.ok (), after) ∧
      after.relationships directory = .ok (relationships.map Relationship.sorted) := by
  obtain ⟨after, saved, loaded⟩ := Document.run_write_readItems Relationship.ofJson? (by decide)
    possible style (.array (relationships.map Relationship.toJson))
  rw [Document.relationships_write _ style relationships readsBack, if_pos finite] at loaded
  exact ⟨after, saved, loaded⟩

/-- Finite collections load as they were saved, up to the order of the properties, which is that of
their keys.  Collections that were loaded from any files come back exactly. -/
theorem load_after_save (style : Json.Style)
    (nodesPossible : world.disk.replacement directory nodesFile = .done)
    (relationshipsPossible : world.disk.replacement directory relationshipsFile = .done) :
    (∀ nodes : List Node, nodes.all Node.isFinite → Json.ReadsBack (nodes.flatMap Node.doubles) →
      ∃ after loaded, world.run (saveNodes directory style nodes).run = (.ok (), after) ∧
        after.nodes directory = .ok loaded ∧
        List.Forall₂ (fun node found =>
          found.SameAs node ∧ found.properties.keys.Pairwise (· < ·)) nodes loaded) ∧
    (∀ relationships : List Relationship, relationships.all Relationship.isFinite →
      Json.ReadsBack (relationships.flatMap Relationship.doubles) →
      ∃ after loaded,
        world.run (saveRelationships directory style relationships).run = (.ok (), after) ∧
        after.relationships directory = .ok loaded ∧
        List.Forall₂ (fun relationship found =>
          found.SameAs relationship ∧ found.properties.keys.Pairwise (· < ·))
          relationships loaded) ∧
    (∀ source nodes, world.nodes source = .ok nodes →
      Json.ReadsBack (nodes.flatMap Node.doubles) →
      ∃ after, world.run (saveNodes directory style nodes).run = (.ok (), after) ∧
        after.nodes directory = .ok nodes) ∧
    (∀ source relationships, world.relationships source = .ok relationships →
      Json.ReadsBack (relationships.flatMap Relationship.doubles) →
      ∃ after, world.run (saveRelationships directory style relationships).run = (.ok (), after) ∧
        after.relationships directory = .ok relationships) := by
  refine ⟨fun nodes finite readsBack => ?_, fun relationships finite readsBack => ?_,
    fun source nodes loaded readsBack => ?_, fun source relationships loaded readsBack => ?_⟩
  · obtain ⟨after, saved, loaded⟩ := run_saveNodes nodesPossible style finite readsBack
    refine ⟨after, _, saved, loaded, List.forall₂_map_right_iff.2 (List.forall₂_same.2 ?_)⟩
    exact fun node _ => ⟨node.sorted_sameAs, node.properties.keys_sorted⟩
  · obtain ⟨after, saved, loaded⟩ :=
      run_saveRelationships relationshipsPossible style finite readsBack
    refine ⟨after, _, saved, loaded, List.forall₂_map_right_iff.2 (List.forall₂_same.2 ?_)⟩
    exact fun relationship _ =>
      ⟨relationship.sorted_sameAs, relationship.properties.keys_sorted⟩
  · rw [World.nodes, loadNodes, Document.run_readItems] at loaded
    have finite := List.all_eq_true.2
      (Document.forall_mem_of_itemsOfContent Node.isFinite_of_ofJson? loaded)
    have same := Document.map_sorted_of_itemsOfContent Node.sorted_of_ofJson? loaded
    simpa only [same] using run_saveNodes nodesPossible style finite readsBack
  · rw [World.relationships, loadRelationships, Document.run_readItems] at loaded
    have finite := List.all_eq_true.2
      (Document.forall_mem_of_itemsOfContent Relationship.isFinite_of_ofJson? loaded)
    have same := Document.map_sorted_of_itemsOfContent Relationship.sorted_of_ofJson? loaded
    simpa only [same] using
      run_saveRelationships relationshipsPossible style finite readsBack

/-- Another tool wrote the collections with fields in other orders, a repeated key, a record without
properties and a record that is an array. -/
theorem load_after_save_of_foreign_files :
    let world : World := { disk := .directory [("db", .directory
      [("nodes.json", .file (.text
          "[\x7b\"properties\":\x7b\"b\":-0.0,\"a\":1,\"b\":2.5\x7d,\"id\":\"x\"\x7d,[\"y\",[\"L\"]]]")),
        ("relationships.json", .file (.text
          "[\x7b\"type\":\"T\",\"end_node\":\"y\",\"start_node\":\"x\",\"id\":\"r\",\"n\":0\x7d]"))])] }
    let directory := Path.ofText "db"
    let node : Node :=
      ⟨"n", ["B", "A"], .ofList [("z", .double (.zero true)), ("a", .integer Int64.minValue)]⟩
    let relationship : Relationship :=
      ⟨"r", "n", "m", "T", .ofList [("b", .double (.ofInt 1)), ("a", .text "\"\n")]⟩
    let nodes : List Node :=
      [⟨"x", [], .ofList [("a", .integer 1), ("b", .double (.ofScientific false 25 (-1)))]⟩,
        ⟨"y", ["L"], .empty⟩]
    let relationships : List Relationship := [⟨"r", "x", "y", "T", .empty⟩]
    (∃ after loaded, world.run (saveNodes directory .indented [node]).run = (.ok (), after) ∧
      after.nodes directory = .ok loaded ∧
      List.Forall₂ (fun node found =>
        found.SameAs node ∧ found.properties.keys.Pairwise (· < ·)) [node] loaded) ∧
    (∃ after loaded,
      world.run (saveRelationships directory .indented [relationship]).run = (.ok (), after) ∧
      after.relationships directory = .ok loaded ∧
      List.Forall₂ (fun relationship found =>
        found.SameAs relationship ∧ found.properties.keys.Pairwise (· < ·))
        [relationship] loaded) ∧
    (∃ after, world.run (saveNodes directory .indented nodes).run = (.ok (), after) ∧
      after.nodes directory = .ok nodes) ∧
    (∃ after, world.run (saveRelationships directory .indented relationships).run = (.ok (), after) ∧
      after.relationships directory = .ok relationships) := by
  intro world directory node relationship nodes relationships
  have nodesPossible : world.disk.replacement directory nodesFile = .done := by decide +kernel
  have relationshipsPossible : world.disk.replacement directory relationshipsFile = .done := by
    decide +kernel
  have nodesLoad : world.nodes directory = .ok nodes := by decide +kernel
  have relationshipsLoad : world.relationships directory = .ok relationships := by decide +kernel
  have numbers : ∀ number ∈ [node].flatMap Node.doubles ++ nodes.flatMap Node.doubles,
      number.isFinite → number.isReadBack := by
    decide +kernel
  have others : ∀ number ∈ [relationship].flatMap Relationship.doubles ++
      relationships.flatMap Relationship.doubles, number.isFinite → number.isReadBack := by
    decide +kernel
  obtain ⟨nodesReadBack, foundReadBack⟩ := Json.readsBack_append.1 numbers
  obtain ⟨relationshipsReadBack, foundRelationshipsReadBack⟩ := Json.readsBack_append.1 others
  obtain ⟨first, second, third, fourth⟩ :=
    load_after_save .indented nodesPossible relationshipsPossible
  exact ⟨first [node] (by decide +kernel) nodesReadBack,
    second [relationship] (by decide +kernel) relationshipsReadBack,
    third directory nodes nodesLoad foundReadBack,
    fourth directory relationships relationshipsLoad foundRelationshipsReadBack⟩

end Collections
end GraphStore
