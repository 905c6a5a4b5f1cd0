import GraphStore.Index.Catalog
import GraphStore.Proofs.Index.Buckets

/-!
# Catalogs of indexes

A catalog lists the pairs that it indexes in strictly increasing order.  Setting an index and filing
nodes act on each index by itself, and a catalog is read back from its JSON form, where it can be
probed without being read.
-/

namespace GraphStore
namespace IndexCatalog

variable {catalog : IndexCatalog}

/-! ## Single indexes -/

theorem ext_get? {left right : IndexCatalog}
    (same : ∀ label, left.labels.get? label = right.labels.get? label) : left = right := by
  cases left
  cases right
  exact congrArg mk (SortedMap.ext_get? same)

theorem get?_set (catalog : IndexCatalog) (label property : String) (index : PropertyIndex)
    (other otherProperty : String) :
    (catalog.set label property index).get? other otherProperty =
      if other = label ∧ otherProperty = property then some index
      else catalog.get? other otherProperty := by
  rw [get?, set, SortedMap.get?_insert, get?]
  by_cases same : other = label
  · subst same
    rw [if_pos rfl, Option.bind_some, SortedMap.get?_insert]
    by_cases sameProperty : otherProperty = property
    · rw [if_pos sameProperty, if_pos ⟨rfl, sameProperty⟩]
    · rw [if_neg sameProperty, if_neg (by simp [sameProperty])]
      cases catalog.labels.get? other <;> rfl
  · rw [if_neg same, if_neg (by simp [same])]

/-- Setting an index to what it is already changes nothing. -/
theorem set_of_get? {label property : String} {index : PropertyIndex}
    (found : catalog.get? label property = some index) :
    catalog.set label property index = catalog := by
  obtain ⟨indexes, foundLabel, foundProperty⟩ := Option.bind_eq_some_iff.1 found
  rw [set, foundLabel, Option.getD_some, SortedMap.insert_of_get? foundProperty,
    SortedMap.insert_of_get? foundLabel]

/-! ## Definitions -/

theorem mem_definitions (catalog : IndexCatalog) (label property : String) :
    (label, property) ∈ catalog.definitions ↔ (catalog.get? label property).isSome := by
  simp only [definitions, List.mem_flatMap, List.mem_map, get?, Option.isSome_iff_exists,
    Option.bind_eq_some_iff]
  constructor
  · rintro ⟨⟨other, indexes⟩, member, found, inKeys, same⟩
    cases same
    obtain ⟨⟨_, index⟩, inner, rfl⟩ := List.mem_map.1 inKeys
    exact ⟨index, indexes, (catalog.labels.mem_entries_iff _ _).1 member,
      (indexes.mem_entries_iff _ _).1 inner⟩
  · rintro ⟨index, indexes, foundLabel, foundProperty⟩
    refine ⟨(label, indexes), (catalog.labels.mem_entries_iff _ _).2 foundLabel, property, ?_, rfl⟩
    exact List.mem_map.2
      ⟨(property, index), (indexes.mem_entries_iff _ _).2 foundProperty, rfl⟩

/-- The order of pairs: first by the label, then by the property. -/
def Precedes (left right : String × String) : Prop :=
  left.1 < right.1 ∨ left.1 = right.1 ∧ left.2 < right.2

/-- The pairs that are indexed are listed in strictly increasing order. -/
theorem definitions_sorted (catalog : IndexCatalog) :
    catalog.definitions.Pairwise Precedes := by
  rw [definitions, List.pairwise_flatMap]
  constructor
  · intro entry _
    exact List.pairwise_map.2 (entry.2.keys_sorted.imp fun less => Or.inr ⟨rfl, less⟩)
  · refine (List.pairwise_map.1 catalog.labels.keys_sorted).imp fun less first member second other => ?_
    obtain ⟨property, -, rfl⟩ := List.mem_map.1 member
    obtain ⟨otherProperty, -, rfl⟩ := List.mem_map.1 other
    exact Or.inl less

/-! ## Filing nodes -/

theorem get?_addNode (catalog : IndexCatalog) (node : Node) (label property : String) :
    (catalog.addNode node).get? label property =
      (catalog.get? label property).map fun index => index.add label property node := by
  simp only [get?, addNode, SortedMap.get?_mapValues]
  cases catalog.labels.get? label with
  | none => rfl
  | some indexes => exact SortedMap.get?_mapValues _ _ _

theorem get?_addNodes (catalog : IndexCatalog) (nodes : List Node) (label property : String) :
    (catalog.addNodes nodes).get? label property =
      (catalog.get? label property).map fun index =>
        nodes.foldl (fun index node => index.add label property node) index := by
  induction nodes generalizing catalog with
  | nil => simp [addNodes]
  | cons node rest ih =>
      have next := ih (catalog.addNode node)
      rw [get?_addNode, Option.map_map] at next
      exact next

theorem addNode_of_not_lacksNode {node : Node} (lacksNot : catalog.lacksNode node = false) :
    catalog.addNode node = catalog := by
  have each : ∀ entry ∈ catalog.labels.entries, ∀ inner ∈ entry.2.entries,
      inner.2.add entry.1 inner.1 node = inner.2 := by
    intro entry member inner inside
    refine PropertyIndex.add_of_not_lacks ?_
    simp only [lacksNode, List.any_eq_false, Bool.not_eq_true] at lacksNot
    exact lacksNot entry member inner inside
  refine ext_get? fun label => ?_
  rw [addNode, SortedMap.get?_mapValues]
  cases found : catalog.labels.get? label with
  | none => rfl
  | some indexes =>
      have same : indexes.mapValues (fun property index => index.add label property node) =
          indexes := by
        refine SortedMap.ext_get? fun property => ?_
        rw [SortedMap.get?_mapValues]
        cases inner : indexes.get? property with
        | none => rfl
        | some index =>
            rw [Option.map_some, each _ ((catalog.labels.mem_entries_iff _ _).2 found) _
              ((indexes.mem_entries_iff _ _).2 inner)]
      rw [Option.map_some, same]

theorem addNodes_of_not_lacksSome {nodes : List Node}
    (lacksNot : catalog.lacksSome nodes = false) : catalog.addNodes nodes = catalog := by
  induction nodes generalizing catalog with
  | nil => rfl
  | cons node rest ih =>
      rw [lacksSome, Bool.or_eq_false_iff] at lacksNot
      have unchanged := addNode_of_not_lacksNode lacksNot.1
      rw [unchanged] at lacksNot
      have later := ih lacksNot.2
      rw [addNodes] at later ⊢
      rw [List.foldl_cons, unchanged, later]

/-! ## Reduced catalogs -/

/-- Whether every label has some indexes, all of them reduced. -/
def IsReduced (catalog : IndexCatalog) : Prop :=
  ∀ label indexes, catalog.labels.get? label = some indexes →
    indexes.entries ≠ [] ∧ ∀ property index, indexes.get? property = some index → index.IsReduced

theorem isReduced_empty : empty.IsReduced :=
  fun _ _ found => nomatch found

theorem IsReduced.set (reduced : catalog.IsReduced) (label property : String)
    {index : PropertyIndex} (reducedIndex : index.IsReduced) :
    (catalog.set label property index).IsReduced := by
  intro other indexes found
  rw [IndexCatalog.set, SortedMap.get?_insert] at found
  split at found
  · cases found
    constructor
    · intro none
      have member := (((catalog.labels.get? label).getD .empty).insert property
        index).mem_entries_iff property index
      rw [none, SortedMap.get?_insert, if_pos rfl] at member
      exact absurd (member.2 rfl) List.not_mem_nil
    · intro otherProperty otherIndex foundIndex
      rw [SortedMap.get?_insert] at foundIndex
      split at foundIndex
      · cases foundIndex
        exact reducedIndex
      · cases before : catalog.labels.get? label with
        | none =>
            rw [before] at foundIndex
            cases foundIndex
        | some inner =>
            rw [before] at foundIndex
            exact (reduced label inner before).2 otherProperty otherIndex foundIndex
  · exact reduced other indexes found

theorem IsReduced.addNode (reduced : catalog.IsReduced) (node : Node) :
    (catalog.addNode node).IsReduced := by
  intro label indexes found
  rw [IndexCatalog.addNode, SortedMap.get?_mapValues] at found
  obtain ⟨before, foundBefore, rfl⟩ := Option.map_eq_some_iff.1 found
  obtain ⟨some, reducedEach⟩ := reduced label before foundBefore
  refine ⟨by simpa [SortedMap.mapValues] using some, fun property index foundIndex => ?_⟩
  rw [SortedMap.get?_mapValues] at foundIndex
  obtain ⟨inner, foundInner, rfl⟩ := Option.map_eq_some_iff.1 foundIndex
  exact (reducedEach property inner foundInner).add node

theorem IsReduced.addNodes (reduced : catalog.IsReduced) (nodes : List Node) :
    (catalog.addNodes nodes).IsReduced := by
  induction nodes generalizing catalog with
  | nil => exact reduced
  | cons node rest ih => exact ih (reduced.addNode node)

/-! ## The JSON form -/

/-- The JSON form of the indexes of one label. -/
def indexesToJson (indexes : SortedMap PropertyIndex) : Json :=
  .object (indexes.entries.map fun entry => (entry.1, entry.2.toJson))

theorem toJson_eq (catalog : IndexCatalog) :
    catalog.toJson =
      .object (catalog.labels.entries.map fun entry => (entry.1, indexesToJson entry.2)) := rfl

/-- Reading fields adds their indexes to a label that is there. -/
theorem addFields_insert (labels : SortedMap (SortedMap PropertyIndex)) (label : String)
    (indexes : SortedMap PropertyIndex) {entries : List (String × PropertyIndex)}
    (reduced : ∀ entry ∈ entries, entry.2.IsReduced) :
    addFields ⟨labels.insert label indexes⟩ label
        (entries.map fun entry => (entry.1, entry.2.toJson)) =
      ⟨labels.insert label
        (entries.foldl (fun map entry => map.insert entry.1 entry.2) indexes)⟩ := by
  induction entries generalizing indexes with
  | nil => rfl
  | cons entry rest ih =>
      have next : set ⟨labels.insert label indexes⟩ label entry.1 entry.2 =
          ⟨labels.insert label (indexes.insert entry.1 entry.2)⟩ := by
        rw [set, SortedMap.get?_insert, if_pos rfl, Option.getD_some, SortedMap.insert_insert]
      have later := ih (indexes.insert entry.1 entry.2)
        fun other member => reduced other (List.mem_cons_of_mem entry member)
      rw [addFields] at later ⊢
      rw [List.map_cons, List.foldl_cons]
      simp only [PropertyIndex.toJson,
        PropertyIndex.ofFields_toJson (reduced entry List.mem_cons_self), next]
      exact later

theorem addFields_of_fresh {labels : SortedMap (SortedMap PropertyIndex)} {label : String}
    (fresh : labels.get? label = none) {indexes : SortedMap PropertyIndex}
    (filled : indexes.entries ≠ [])
    (reduced : ∀ property index, indexes.get? property = some index → index.IsReduced) :
    addFields ⟨labels⟩ label (indexes.entries.map fun entry => (entry.1, entry.2.toJson)) =
      ⟨labels.insert label indexes⟩ := by
  have whole := indexes.ofList_entries
  have reducedEach : ∀ entry ∈ indexes.entries, entry.2.IsReduced :=
    fun entry member => reduced _ _ ((indexes.mem_entries_iff _ _).1 member)
  cases entries : indexes.entries with
  | nil => exact absurd entries filled
  | cons entry rest =>
      rw [entries] at whole reducedEach
      have first : set ⟨labels⟩ label entry.1 entry.2 =
          ⟨labels.insert label (SortedMap.empty.insert entry.1 entry.2)⟩ := by
        rw [set, fresh, Option.getD_none]
      have later := addFields_insert labels label (SortedMap.empty.insert entry.1 entry.2)
        fun other member => reducedEach other (List.mem_cons_of_mem entry member)
      rw [addFields] at later ⊢
      rw [List.map_cons, List.foldl_cons]
      simp only [PropertyIndex.toJson,
        PropertyIndex.ofFields_toJson (reducedEach entry List.mem_cons_self), first]
      rw [SortedMap.ofList, List.foldl_cons] at whole
      rw [← whole]
      exact later

/-- Read a field of the JSON form of a catalog. -/
def addField (catalog : IndexCatalog) (field : String × Json) : IndexCatalog :=
  match field.2 with
  | .object properties => catalog.addFields field.1 properties
  | _ => catalog

theorem ofJson_object (fields : List (String × Json)) :
    ofJson (.object fields) = fields.foldl addField empty := rfl

/-- A reduced catalog is read from its JSON form. -/
theorem ofJson_toJson (reduced : catalog.IsReduced) : ofJson catalog.toJson = catalog := by
  suffices general : ∀ (entries : List (String × SortedMap PropertyIndex))
      (labels : SortedMap (SortedMap PropertyIndex)), (entries.map Prod.fst).Nodup →
      (∀ entry ∈ entries, labels.get? entry.1 = none) →
      (∀ entry ∈ entries, entry.2.entries ≠ [] ∧
        ∀ property index, entry.2.get? property = some index → index.IsReduced) →
      (entries.map fun entry => (entry.1, indexesToJson entry.2)).foldl addField ⟨labels⟩ =
        (⟨entries.foldl (fun map entry => map.insert entry.1 entry.2) labels⟩ : IndexCatalog) by
    have whole := general catalog.labels.entries .empty catalog.labels.keys_nodup
      (fun _ _ => rfl)
      fun entry member => reduced _ _ ((catalog.labels.mem_entries_iff _ _).1 member)
    rw [toJson_eq, ofJson_object]
    refine whole.trans ?_
    have same := catalog.labels.ofList_entries
    rw [SortedMap.ofList] at same
    rw [same]
  intro entries
  induction entries with
  | nil => exact fun labels _ _ _ => rfl
  | cons entry rest ih =>
      intro labels distinct fresh filled
      obtain ⟨first, distinctRest⟩ := List.nodup_cons.1 distinct
      obtain ⟨some, reducedEach⟩ := filled entry List.mem_cons_self
      have added := addFields_of_fresh (fresh entry List.mem_cons_self) some reducedEach
      rw [List.map_cons, List.foldl_cons, List.foldl_cons]
      simp only [addField, indexesToJson, added]
      refine ih _ distinctRest (fun other member => ?_)
        fun other member => filled other (List.mem_cons_of_mem entry member)
      have differs : other.1 ≠ entry.1 :=
        fun same => first (same ▸ List.mem_map_of_mem member)
      rw [SortedMap.get?_insert, if_neg differs]
      exact fresh other (List.mem_cons_of_mem entry member)

theorem lookup_map {α β : Type} (change : α → β) (entries : List (String × α)) (key : String) :
    (entries.map fun entry => (entry.1, change entry.2)).lookup key =
      (entries.lookup key).map change := by
  induction entries with
  | nil => rfl
  | cons entry rest ih =>
      rw [List.map_cons, SortedMap.lookup_cons_eq, SortedMap.lookup_cons_eq, ih]
      split <;> rfl

/-- Probing the JSON form of a catalog looks a value up in one of its indexes. -/
theorem probe_toJson (catalog : IndexCatalog) (label property : String) (value : Value) :
    probe catalog.toJson label property value =
      ((catalog.get? label property).map fun index => index.lookup value).getD [] := by
  rw [probe, toJson_eq, Json.field?, lookup_map indexesToJson, get?, SortedMap.get?]
  cases catalog.labels.entries.lookup label with
  | none => rfl
  | some indexes =>
      rw [Option.map_some, Option.bind_some, indexesToJson, Json.field?,
        lookup_map PropertyIndex.toJson, Option.bind_some, SortedMap.get?]
      cases indexes.entries.lookup property with
      | none => rfl
      | some index =>
          rw [Option.map_some, Option.bind_some, PropertyIndex.toJson, Json.field?,
            lookup_map (fun ids : List String => Json.array (ids.map .text)), Option.map_some,
            Option.getD_some, PropertyIndex.lookup, PropertyIndex.bucket, SortedMap.get?]
          cases index.buckets.entries.lookup value.keyText with
          | none => rfl
          | some ids => simp [List.filterMap_map, Function.comp_def, Json.asText?]

theorem doubles_toJson (catalog : IndexCatalog) : catalog.toJson.doubles = [] := by
  simp [toJson, Json.doubles_object, List.flatMap_map, PropertyIndex.doubles_toJson]

theorem depth_toJson_le (catalog : IndexCatalog) : catalog.toJson.depth ≤ 4 := by
  refine Json.depth_object_le fun field member => ?_
  obtain ⟨entry, -, rfl⟩ := List.mem_map.1 member
  refine Json.depth_object_le fun inner inside => ?_
  obtain ⟨other, -, rfl⟩ := List.mem_map.1 inside
  exact other.2.depth_toJson_le

/-- Reading and sorting the JSON form of a catalog changes nothing. -/
theorem reread_toJson (catalog : IndexCatalog) : catalog.toJson.reread.sorted = catalog.toJson := by
  have inner : ∀ indexes : SortedMap PropertyIndex,
      (indexesToJson indexes).reread.sorted = indexesToJson indexes := by
    intro indexes
    simp only [indexesToJson, Json.reread_object, Json.sorted_object, List.map_map,
      Function.comp_def, PropertyIndex.reread_toJson]
    rw [SortedMap.entries_ofList_map PropertyIndex.toJson, SortedMap.ofList_entries]
  rw [toJson_eq, Json.reread_object, Json.sorted_object, List.map_map, List.map_map]
  simp only [Function.comp_def, inner]
  rw [SortedMap.entries_ofList_map indexesToJson, SortedMap.ofList_entries]

/-- A written catalog is read as the document that is its JSON form. -/
theorem sortedDocument?_write_toJson (catalog : IndexCatalog) (style : Json.Style) :
    Json.sortedDocument? (catalog.toJson.write style) = some catalog.toJson := by
  have noDoubles : Json.ReadsBack catalog.toJson.doubles := by
    rw [catalog.doubles_toJson]
    exact fun number member => absurd member List.not_mem_nil
  have shallow : catalog.toJson.depth ≤ Json.nestingLimit :=
    Nat.le_trans catalog.depth_toJson_le (by decide)
  rw [Json.sortedDocument?_write style catalog.toJson noDoubles shallow, catalog.reread_toJson]

end IndexCatalog
end GraphStore
