import GraphStore.Proofs.Graph.Recovered
import GraphStore.Proofs.Json.Finite
import GraphStore.Store.Collections

/-!
# Contents of collection files

A file that a collection was saved to loads if and only if all entities of the collection are
finite.
-/

namespace GraphStore

theorem Text.trim_cons_ne_nil {c : Char} (visible : isBlank c = false) (rest : List Char) :
    trim (c :: rest) ≠ [] := by
  intro blank
  have kept : (c :: rest).reverse.dropWhile isBlank = [] := by
    simpa [trim, strip, visible] using blank
  have none := List.any_dropWhile (p := isBlank) (l := (c :: rest).reverse)
  rw [kept] at none
  simp [visible] at none

namespace Json

/-- Whether a value is an array or an object. -/
def isContainer : Json → Bool
  | array _ => true
  | object _ => true
  | _ => false

theorem trim_write_ne_nil (style : Style) {json : Json} (container : json.isContainer) :
    Text.trim (json.write style).toList ≠ [] := by
  rw [write, String.toList_ofList]
  cases json with
  | array items =>
      cases items with
      | nil => exact Text.trim_cons_ne_nil (c := '[') (by decide) _
      | cons item rest =>
          rw [writeAt]
          exact Text.trim_cons_ne_nil (by decide) _
  | object fields =>
      cases fields with
      | nil => exact Text.trim_cons_ne_nil (c := '\x7b') (by decide) _
      | cons field rest =>
          rw [writeAt]
          exact Text.trim_cons_ne_nil (by decide) _
  | null | boolean _ | integer _ | double _ | text _ | unreadable => cases container

theorem forall_mem_of_list? {α : Type} {decode : Json → Option α} {property : α → Prop}
    {good : Json → Prop}
    (decoded : ∀ {json value}, decode json = some value → good json → property value)
    {items : List Json} {values : List α} (listed : (array items).list? decode = some values)
    (each : ∀ item ∈ items, good item) : ∀ value ∈ values, property value := by
  simp only [list?] at listed
  induction items generalizing values with
  | nil =>
      cases listed
      simp
  | cons item rest ih =>
      simp only [List.mapM_cons, Option.bind_eq_bind, Option.bind_eq_some_iff] at listed
      obtain ⟨value, read, others, readRest, same⟩ := listed
      cases same
      exact List.forall_mem_cons.2 ⟨decoded read (each item List.mem_cons_self),
        ih readRest fun other member => each other (List.mem_cons_of_mem item member)⟩

end Json

namespace Document

/-- The document in a file that one was written to. -/
theorem ofContent_write_eq (path : Path) (style : Json.Style) {json : Json}
    (container : json.isContainer) (shallow : json.depth ≤ Json.nestingLimit) :
    ofContent path (.ok (.text (json.write style))) = .ok (some json.recovered.reread.sorted) := by
  simp only [ofContent, Json.trim_write_ne_nil style container, if_false,
    Json.sortedDocument?_write_eq style json shallow]

theorem ofContent_write (path : Path) (style : Json.Style) {json : Json}
    (container : json.isContainer) (readsBack : Json.ReadsBack json.doubles)
    (shallow : json.depth ≤ Json.nestingLimit) :
    ofContent path (.ok (.text (json.write style))) = .ok (some json.reread.sorted) := by
  rw [ofContent_write_eq path style container shallow, Json.recovered_eq_self readsBack]

/-- Which document a file holds does not depend on the path of the file. -/
theorem ofContent_path {path : Path} (other : Path) {content : Except Fault Content}
    {document : Option Json} (read : ofContent path content = .ok document) :
    ofContent other content = .ok document := by
  unfold ofContent at read ⊢
  split at read
  · split at read
    · next blank => rwa [if_pos blank]
    · next visible =>
        rw [if_neg visible]
        split at read
        · exact read
        · cases read
  · exact read
  · cases read

/-- The items that the content of a file lists. -/
def itemsOfContent {α : Type} (decode : Json → Option α) (path : Path)
    (content : Except Fault Content) : Except StorageError (List α) :=
  (ofContent path content).bind (items decode path)

/-- Which items load does not depend on the path of the file. -/
theorem itemsOfContent_path {α : Type} {decode : Json → Option α} {path : Path} (other : Path)
    {content : Except Fault Content} {values : List α}
    (loaded : itemsOfContent decode path content = .ok values) :
    itemsOfContent decode other content = .ok values := by
  unfold itemsOfContent at loaded ⊢
  cases read : ofContent path content with
  | error error =>
      rw [read] at loaded
      cases loaded
  | ok document =>
      rw [read] at loaded
      rw [ofContent_path other read]
      simp only [Except.bind, items] at loaded ⊢
      split at loaded
      · exact loaded
      · exact loaded
      · split at loaded
        · exact loaded
        · cases loaded

/-- The document in the text of an array that was written. -/
theorem sortedDocument?_writeArray {α : Type} {encode : α → Json} (style : Json.Style)
    (values : List α) (shallow : ∀ value, (encode value).depth ≤ 2) :
    Json.sortedDocument? ((Json.array (values.map encode)).write style) =
      some (.array (values.map fun value => (encode value).recovered.reread.sorted)) := by
  have depth : (Json.array (values.map encode)).depth ≤ 3 := by
    refine Json.depth_array_le fun item member => ?_
    obtain ⟨value, -, rfl⟩ := List.mem_map.1 member
    exact shallow value
  have limit : 3 ≤ Json.nestingLimit := by decide
  rw [Json.sortedDocument?_write_eq style _ (Nat.le_trans depth limit), Json.recovered_array,
    Json.reread_array, Json.sorted_array]
  simp only [List.map_map, Function.comp_def]

/-- The document in a file that an array was written to. -/
theorem ofContent_writeArray {α : Type} {encode : α → Json} (path : Path) (style : Json.Style)
    (values : List α) (shallow : ∀ value, (encode value).depth ≤ 2) :
    ofContent path (.ok (.text ((Json.array (values.map encode)).write style))) =
      .ok (some (.array (values.map fun value => (encode value).recovered.reread.sorted))) := by
  have container : (Json.array (values.map encode)).isContainer := rfl
  simp only [ofContent, Json.trim_write_ne_nil style container, if_false,
    sortedDocument?_writeArray style values shallow]

private theorem itemsOfContent_write {α : Type} {decode : Json → Option α} {encode : α → Json}
    {finite : α → Bool} {loaded : α → α} (path : Path) (style : Json.Style) (values : List α)
    (decoded : ∀ value, decode (encode value).recovered.reread.sorted =
      if finite value then some (loaded value) else none)
    (shallow : ∀ value, (encode value).depth ≤ 2) :
    itemsOfContent decode path (.ok (.text ((Json.array (values.map encode)).write style))) =
      if values.all finite then .ok (values.map loaded) else .error (.json path.text) := by
  rw [itemsOfContent, ofContent_writeArray path style values shallow]
  simp only [Except.bind, items, Json.list?, List.mapM_map, Function.comp_def, decoded]
  rw [mapM_guarded finite loaded]
  cases values.all finite <;> rfl

/-- The nodes in a file that nodes were saved to. -/
theorem nodes_write_eq (path : Path) (style : Json.Style) (nodes : List Node) :
    itemsOfContent Node.ofJson? path
        (.ok (.text ((Json.array (nodes.map Node.toJson)).write style))) =
      if nodes.all Node.isFinite then .ok (nodes.map fun node => node.recovered.sorted)
      else .error (.json path.text) :=
  itemsOfContent_write path style nodes Node.ofJson?_written Node.depth_toJson_le

theorem nodes_write (path : Path) (style : Json.Style) (nodes : List Node)
    (readsBack : Json.ReadsBack (nodes.flatMap Node.doubles)) :
    itemsOfContent Node.ofJson? path
        (.ok (.text ((Json.array (nodes.map Node.toJson)).write style))) =
      if nodes.all Node.isFinite then .ok (nodes.map Node.sorted) else .error (.json path.text) := by
  have same : (nodes.map fun node => node.recovered.sorted) = nodes.map Node.sorted :=
    List.map_congr_left fun node member => by
      rw [Node.recovered_eq_self (readsBack.of_subset
        fun number inNode => List.mem_flatMap.2 ⟨node, member, inNode⟩)]
  rw [nodes_write_eq, same]

/-- The relationships in a file that relationships were saved to. -/
theorem relationships_write_eq (path : Path) (style : Json.Style)
    (relationships : List Relationship) :
    itemsOfContent Relationship.ofJson? path
        (.ok (.text ((Json.array (relationships.map Relationship.toJson)).write style))) =
      if relationships.all Relationship.isFinite then
        .ok (relationships.map fun relationship => relationship.recovered.sorted)
      else .error (.json path.text) :=
  itemsOfContent_write path style relationships Relationship.ofJson?_written
    Relationship.depth_toJson_le

theorem relationships_write (path : Path) (style : Json.Style)
    (relationships : List Relationship)
    (readsBack : Json.ReadsBack (relationships.flatMap Relationship.doubles)) :
    itemsOfContent Relationship.ofJson? path
        (.ok (.text ((Json.array (relationships.map Relationship.toJson)).write style))) =
      if relationships.all Relationship.isFinite then .ok (relationships.map Relationship.sorted)
      else .error (.json path.text) := by
  have same : (relationships.map fun relationship => relationship.recovered.sorted) =
      relationships.map Relationship.sorted :=
    List.map_congr_left fun relationship member => by
      rw [Relationship.recovered_eq_self (readsBack.of_subset
        fun number inside => List.mem_flatMap.2 ⟨relationship, member, inside⟩)]
  rw [relationships_write_eq, same]

/-! ## Loaded items -/

theorem exists_source_of_ofContent {path : Path} {content : Except Fault Content} {json : Json}
    (loaded : ofContent path content = .ok (some json)) :
    ∃ source, Json.sortedDocument? source = some json := by
  unfold ofContent at loaded
  split at loaded
  · split at loaded
    · cases loaded
    · split at loaded
      · next source _ _ _ read =>
          cases loaded
          exact ⟨source, read⟩
      · cases loaded
  · cases loaded
  · cases loaded

/-- What holds of everything that is decoded from good documents holds of all loaded items, if the
items of a stored array are good. -/
theorem forall_mem_of_itemsOfContent_of_array {α : Type} {decode : Json → Option α}
    {property : α → Prop} {good : Json → Prop}
    (decoded : ∀ {json value}, decode json = some value → good json → property value)
    (stored : ∀ {source items}, Json.sortedDocument? source = some (.array items) →
      ∀ item ∈ items, good item)
    {path : Path} {content : Except Fault Content} {values : List α}
    (loaded : itemsOfContent decode path content = .ok values) :
    ∀ value ∈ values, property value := by
  unfold itemsOfContent at loaded
  cases document : ofContent path content with
  | error error =>
      rw [document] at loaded
      cases loaded
  | ok json =>
      rw [document] at loaded
      simp only [Except.bind, items] at loaded
      split at loaded
      · cases loaded
        simp
      · cases loaded
        simp
      · next json _ =>
        split at loaded
        · next found =>
            cases loaded
            obtain ⟨source, read⟩ := exists_source_of_ofContent document
            cases json with
            | array items => exact Json.forall_mem_of_list? decoded found (stored read)
            | _ => cases found
        · cases loaded

/-- What holds of everything that is decoded from finite numbers holds of all loaded items. -/
theorem forall_mem_of_itemsOfContent {α : Type} {decode : Json → Option α} {property : α → Prop}
    (decoded : ∀ {json value}, decode json = some value → json.Finite → property value)
    {path : Path} {content : Except Fault Content} {values : List α}
    (loaded : itemsOfContent decode path content = .ok values) :
    ∀ value ∈ values, property value :=
  forall_mem_of_itemsOfContent_of_array decoded
    (fun read => (Json.finite_array _).1 (Json.finite_of_sortedDocument? read)) loaded

end Document
end GraphStore
