import GraphStore.Graph.Node
import GraphStore.Graph.Relationship
import GraphStore.Proofs.Json.Sorted

/-!
# Entities that are stored and loaded

An entity is stored with its properties in the order in which they were set and loaded with its
properties in the order of their keys.  It is loaded at all if and only if every double among its
properties is finite, because the others are written as null.
-/

namespace GraphStore

/-! ## Lists of decoded items -/

theorem mapM_guarded {α β : Type} (condition : α → Bool) (change : α → β) (items : List α) :
    items.mapM (fun item => if condition item then some (change item) else none) =
      if items.all condition then some (items.map change) else none := by
  induction items with
  | nil => rfl
  | cons item rest ih =>
      rw [List.mapM_cons, ih]
      cases holds : condition item
      · simp [holds]
      · cases holdsRest : rest.all condition <;> simp [holds, holdsRest]

namespace Json

theorem reread_array (items : List Json) : (array items).reread = array (items.map reread) := by
  have each : rereadItems items = items.map reread := by
    induction items with
    | nil => rfl
    | cons item rest ih => rw [rereadItems, ih, List.map_cons]
  rw [reread, each]

theorem sorted_array (items : List Json) : (array items).sorted = array (items.map sorted) := by
  have each : sortedItems items = items.map sorted := by
    induction items with
    | nil => rfl
    | cons item rest ih => rw [sortedItems, ih, List.map_cons]
  rw [sorted, each]

theorem doubles_array (items : List Json) : (array items).doubles = items.flatMap doubles := by
  have each : doublesOfItems items = items.flatMap doubles := by
    induction items with
    | nil => rfl
    | cons item rest ih => rw [doublesOfItems, ih, List.flatMap_cons]
  rw [doubles, each]

theorem reread_object (fields : List (String × Json)) :
    (object fields).reread = object (fields.map fun field => (field.1, field.2.reread)) := by
  have each : rereadFields fields = fields.map fun field => (field.1, field.2.reread) := by
    induction fields with
    | nil => rfl
    | cons field rest ih => rw [rereadFields, ih, List.map_cons]
  rw [reread, each]

theorem sorted_object (fields : List (String × Json)) :
    (object fields).sorted =
      object (SortedMap.ofList (fields.map fun field => (field.1, field.2.sorted))).entries := by
  have each : sortedFields fields = fields.map fun field => (field.1, field.2.sorted) := by
    induction fields with
    | nil => rfl
    | cons field rest ih => rw [sortedFields, ih, List.map_cons]
  rw [sorted, each]

theorem doubles_object (fields : List (String × Json)) :
    (object fields).doubles = fields.flatMap fun field => field.2.doubles := by
  have each : doublesOfFields fields = fields.flatMap fun field => field.2.doubles := by
    induction fields with
    | nil => rfl
    | cons field rest ih => rw [doublesOfFields, ih, List.flatMap_cons]
  rw [doubles, each]

theorem doubles_texts (texts : List String) : (array (texts.map text)).doubles = [] := by
  rw [doubles_array]
  simp [doubles]

theorem sorted_reread_texts (texts : List String) :
    (array (texts.map text)).reread.sorted = array (texts.map text) := by
  rw [reread_array, sorted_array, List.map_map, List.map_map]
  simp [Function.comp_def, reread, sorted]

theorem list?_texts (texts : List String) :
    list? asText? (array (texts.map text)) = some texts := by
  have listed := mapM_guarded (fun _ : String => true) id texts
  simpa [list?, List.mapM_map, Function.comp_def, asText?] using listed

theorem depth_array_le {items : List Json} {bound : Nat}
    (shallow : ∀ item ∈ items, item.depth ≤ bound) : (array items).depth ≤ bound + 1 := by
  have each : depthOfItems items ≤ bound := by
    induction items with
    | nil => exact Nat.zero_le bound
    | cons item rest ih =>
        rw [depthOfItems]
        exact Nat.max_le.2 ⟨shallow item List.mem_cons_self,
          ih fun other member => shallow other (List.mem_cons_of_mem item member)⟩
  exact Nat.succ_le_succ each

theorem depth_object_le {fields : List (String × Json)} {bound : Nat}
    (shallow : ∀ field ∈ fields, field.2.depth ≤ bound) : (object fields).depth ≤ bound + 1 := by
  have each : depthOfFields fields ≤ bound := by
    induction fields with
    | nil => exact Nat.zero_le bound
    | cons field rest ih =>
        rw [depthOfFields]
        exact Nat.max_le.2 ⟨shallow field List.mem_cons_self,
          ih fun other member => shallow other (List.mem_cons_of_mem field member)⟩
  exact Nat.succ_le_succ each

end Json

/-! ## Values -/

namespace Value

/-- Whether a value is no infinity and no NaN. -/
def isFinite : Value → Bool
  | double value => value.isFinite
  | _ => true

/-- The double that a value is, if it is one. -/
def doubles : Value → List Double
  | double value => [value]
  | _ => []

theorem doubles_toJson (value : Value) : value.toJson.doubles = value.doubles := by
  cases value <;> rfl

theorem depth_toJson (value : Value) : value.toJson.depth = 0 := by
  cases value <;> rfl

theorem ofJson?_reread (value : Value) :
    ofJson? value.toJson.reread.sorted = if value.isFinite then some value else none := by
  cases value with
  | double value =>
      cases finite : value.isFinite <;>
        simp [toJson, Json.reread, isFinite, finite, Json.sorted, ofJson?]
  | boolean | integer | text => rfl

end Value

/-! ## Properties -/

namespace Properties

/-- Whether every value is finite. -/
def isFinite (properties : Properties) : Bool :=
  properties.entries.all fun entry => entry.2.isFinite

/-- The doubles among the values. -/
def doubles (properties : Properties) : List Double :=
  properties.entries.flatMap fun entry => entry.2.doubles

/-- The same properties in the order of their keys. -/
def sorted (properties : Properties) : Properties :=
  ⟨(SortedMap.ofList properties.entries).entries,
    (SortedMap.ofList properties.entries).keys_nodup⟩

@[simp]
theorem get?_sorted (properties : Properties) (key : String) :
    properties.sorted.get? key = properties.get? key :=
  SortedMap.get?_ofList properties.keys_nodup key

theorem ext_entries {left right : Properties} (same : left.entries = right.entries) :
    left = right := by
  cases left
  cases right
  cases same
  rfl

theorem mem_entries_iff (properties : Properties) (entry : String × Value) :
    entry ∈ properties.entries ↔ properties.get? entry.1 = some entry.2 := by
  obtain ⟨entries, distinct⟩ := properties
  simp only [get?]
  induction entries with
  | nil => simp
  | cons first rest ih =>
      simp only [List.map_cons, List.nodup_cons] at distinct
      rw [SortedMap.lookup_cons_eq, List.mem_cons, ih distinct.2]
      split
      · next same =>
          have absent : rest.lookup entry.1 = none := by
            refine List.lookup_eq_none_iff.2 fun other member => ?_
            have differs : entry.1 ≠ other.1 :=
              fun equal => distinct.1 (List.mem_map.2 ⟨other, member, equal ▸ same⟩)
            simpa using differs
          rw [absent]
          constructor
          · rintro (rfl | impossible)
            · rfl
            · cases impossible
          · intro value
            exact Or.inl (Prod.ext same (Option.some.inj value).symm)
      · next differs =>
          constructor
          · rintro (rfl | found)
            · exact absurd rfl differs
            · exact found
          · exact Or.inr

theorem mem_entries_sorted (properties : Properties) (entry : String × Value) :
    entry ∈ properties.sorted.entries ↔ entry ∈ properties.entries := by
  rw [mem_entries_iff, mem_entries_iff, get?_sorted]

@[simp]
theorem isFinite_sorted (properties : Properties) :
    properties.sorted.isFinite = properties.isFinite := by
  rw [Bool.eq_iff_iff]
  simp only [isFinite, List.all_eq_true, mem_entries_sorted]

theorem mem_doubles_sorted (properties : Properties) (number : Double) :
    number ∈ properties.sorted.doubles ↔ number ∈ properties.doubles := by
  simp only [doubles, List.mem_flatMap, mem_entries_sorted]

theorem insertEntry_of_notMem {key : String} {value : Value} {entries : List (String × Value)}
    (fresh : key ∉ entries.map Prod.fst) :
    insertEntry key value entries = entries ++ [(key, value)] := by
  induction entries with
  | nil => rfl
  | cons entry rest ih =>
      simp only [List.map_cons, List.mem_cons, not_or] at fresh
      rw [insertEntry, if_neg (Ne.symm fresh.1), ih fresh.2]
      rfl

theorem ofList_entries (properties : Properties) : ofList properties.entries = properties := by
  suffices general : ∀ (entries done : List (String × Value)) (start : Properties),
      start.entries = done → ((done ++ entries).map Prod.fst).Nodup →
      (entries.foldl (fun map entry => map.insert entry.1 entry.2) start).entries =
        done ++ entries from
    ext_entries (general properties.entries [] empty rfl (by simpa using properties.keys_nodup))
  intro entries
  induction entries with
  | nil =>
      intro done start before _
      simpa using before
  | cons entry rest ih =>
      intro done start before distinct
      have fresh : entry.1 ∉ done.map Prod.fst := by
        simp only [List.map_append, List.map_cons, List.nodup_append] at distinct
        exact fun member => distinct.2.2 entry.1 member entry.1 List.mem_cons_self rfl
      have inserted : (start.insert entry.1 entry.2).entries = done ++ [entry] := by
        simp only [insert, before]
        exact insertEntry_of_notMem fresh
      simpa using ih (done ++ [entry]) _ inserted (by simpa using distinct)

theorem doubles_toJson (properties : Properties) :
    properties.toJson.doubles = properties.doubles := by
  simp [toJson, Json.doubles_object, doubles, List.flatMap_map, Value.doubles_toJson]

theorem depth_toJson_le (properties : Properties) : properties.toJson.depth ≤ 1 := by
  refine Json.depth_object_le fun field member => ?_
  obtain ⟨entry, -, rfl⟩ := List.mem_map.1 member
  exact Nat.le_of_eq entry.2.depth_toJson

theorem ofJson?_reread (properties : Properties) :
    ofJson? properties.toJson.reread.sorted =
      if properties.isFinite then some properties.sorted else none := by
  have fields : properties.toJson.reread.sorted = .object
      (properties.sorted.entries.map fun entry => (entry.1, entry.2.toJson.reread.sorted)) := by
    simp only [toJson, Json.reread_object, Json.sorted_object, List.map_map, sorted]
    rw [← SortedMap.entries_ofList_map (fun value : Value => value.toJson.reread.sorted)]
    rfl
  rw [fields]
  simp only [ofJson?, List.mapM_map, Function.comp_def, Value.ofJson?_reread]
  have decoded : ∀ entry : String × Value,
      Option.map (fun value => (entry.1, value)) (if entry.2.isFinite then some entry.2 else none) =
        if entry.2.isFinite then some entry else none := by
    intro entry
    split <;> rfl
  simp only [decoded]
  have listed := mapM_guarded (fun entry : String × Value => entry.2.isFinite) id
    properties.sorted.entries
  simp only [id_eq, List.map_id_fun] at listed
  rw [listed, ← isFinite_sorted, isFinite]
  split
  · rw [Option.map_some, ofList_entries]
  · rfl

/-- Whether required properties are present does not depend on the order of the properties. -/
@[simp]
theorem satisfies_sorted (properties required : Properties) :
    properties.sorted.satisfies required = properties.satisfies required := by
  simp only [satisfies, get?_sorted]

end Properties

/-! ## Nodes -/

namespace Node

/-- Whether every value among the properties is finite. -/
def isFinite (node : Node) : Bool :=
  node.properties.isFinite

/-- The doubles among the properties. -/
def doubles (node : Node) : List Double :=
  node.properties.doubles

/-- The same node with its properties in the order of their keys. -/
def sorted (node : Node) : Node :=
  { node with properties := node.properties.sorted }

@[simp]
theorem id_sorted (node : Node) : node.sorted.id = node.id := rfl

@[simp]
theorem labels_sorted (node : Node) : node.sorted.labels = node.labels := rfl

@[simp]
theorem hasLabel_sorted (node : Node) (label : String) :
    node.sorted.hasLabel label = node.hasLabel label := rfl

@[simp]
theorem get?_properties_sorted (node : Node) (key : String) :
    node.sorted.properties.get? key = node.properties.get? key :=
  node.properties.get?_sorted key

@[simp]
theorem isFinite_sorted (node : Node) : node.sorted.isFinite = node.isFinite :=
  node.properties.isFinite_sorted

theorem doubles_toJson (node : Node) : node.toJson.doubles = node.doubles := by
  simp only [toJson, Json.doubles_object, List.flatMap_cons, List.flatMap_nil, Json.doubles_texts,
    Properties.doubles_toJson, List.nil_append, List.append_nil]
  rfl

theorem depth_toJson_le (node : Node) : node.toJson.depth ≤ 2 := by
  refine Json.depth_object_le fun field member => ?_
  have labels : (Json.array (node.labels.map Json.text)).depth ≤ 1 := by
    refine Json.depth_array_le fun item member => ?_
    obtain ⟨label, -, rfl⟩ := List.mem_map.1 member
    exact Nat.le_refl 0
  rcases List.mem_cons.1 member with rfl | member
  · exact Nat.zero_le 1
  rcases List.mem_cons.1 member with rfl | member
  · exact labels
  · obtain rfl := List.mem_singleton.1 member
    exact node.properties.depth_toJson_le

/-- The document as which a stored node is read. -/
theorem sorted_reread_toJson (node : Node) :
    node.toJson.reread.sorted = .object
      [("id", .text node.id), ("labels", .array (node.labels.map Json.text)),
        ("properties", node.properties.toJson.reread.sorted)] := by
  simp only [toJson, Json.reread_object, Json.sorted_object, List.map_cons, List.map_nil,
    Json.sorted_reread_texts]
  have inOrder : ["id", "labels", "properties"].Pairwise (· < ·) := by decide
  rw [SortedMap.entries_ofList]
  · rfl
  · exact inOrder

/-- A stored node is loaded with sorted properties, provided that they are finite. -/
theorem ofJson?_reread (node : Node) :
    ofJson? node.toJson.reread.sorted = if node.isFinite then some node.sorted else none := by
  rw [sorted_reread_toJson]
  cases finite : node.properties.isFinite <;>
    simp [ofJson?, Json.record?, Json.required?, Json.defaulted?, Json.asText?, Json.list?_texts,
      List.lookup, Properties.ofJson?_reread, isFinite, sorted, finite]

/-- Whether two nodes are alike up to the order of their properties. -/
def SameAs (left right : Node) : Prop :=
  left.id = right.id ∧ left.labels = right.labels ∧
    ∀ key, left.properties.get? key = right.properties.get? key

theorem sorted_sameAs (node : Node) : node.sorted.SameAs node :=
  ⟨rfl, rfl, node.get?_properties_sorted⟩

theorem SameAs.refl (node : Node) : node.SameAs node :=
  ⟨rfl, rfl, fun _ => rfl⟩

end Node

/-! ## Relationships -/

namespace Relationship

/-- Whether every value among the properties is finite. -/
def isFinite (relationship : Relationship) : Bool :=
  relationship.properties.isFinite

/-- The doubles among the properties. -/
def doubles (relationship : Relationship) : List Double :=
  relationship.properties.doubles

/-- The same relationship with its properties in the order of their keys. -/
def sorted (relationship : Relationship) : Relationship :=
  { relationship with properties := relationship.properties.sorted }

@[simp]
theorem get?_properties_sorted (relationship : Relationship) (key : String) :
    relationship.sorted.properties.get? key = relationship.properties.get? key :=
  relationship.properties.get?_sorted key

@[simp]
theorem isFinite_sorted (relationship : Relationship) :
    relationship.sorted.isFinite = relationship.isFinite :=
  relationship.properties.isFinite_sorted

theorem doubles_toJson (relationship : Relationship) :
    relationship.toJson.doubles = relationship.doubles := by
  simp [toJson, Json.doubles_object, Properties.doubles_toJson, doubles, Json.doubles]

theorem depth_toJson_le (relationship : Relationship) : relationship.toJson.depth ≤ 2 := by
  refine Json.depth_object_le fun field member => ?_
  simp only [List.mem_cons, List.not_mem_nil, or_false] at member
  rcases member with rfl | rfl | rfl | rfl | rfl
  · exact Nat.zero_le 1
  · exact Nat.zero_le 1
  · exact Nat.zero_le 1
  · exact Nat.zero_le 1
  · exact relationship.properties.depth_toJson_le

private theorem sortedFields (id source target type properties : Json) :
    (SortedMap.ofList [("id", id), ("start_node", source), ("end_node", target), ("type", type),
        ("properties", properties)]).entries =
      [("end_node", target), ("id", id), ("properties", properties), ("start_node", source),
        ("type", type)] := by
  simp +decide only [SortedMap.ofList, SortedMap.insert, SortedMap.insertEntry, SortedMap.empty,
    List.foldl_cons, List.foldl_nil, if_true, if_false]

/-- The document as which a stored relationship is read. -/
theorem sorted_reread_toJson (relationship : Relationship) :
    relationship.toJson.reread.sorted = .object
      [("end_node", .text relationship.endNode), ("id", .text relationship.id),
        ("properties", relationship.properties.toJson.reread.sorted),
        ("start_node", .text relationship.startNode), ("type", .text relationship.type)] := by
  simp only [toJson, Json.reread_object, Json.sorted_object, List.map_cons, List.map_nil]
  rw [sortedFields]
  rfl

/-- A stored relationship is loaded with sorted properties, provided that they are finite. -/
theorem ofJson?_reread (relationship : Relationship) :
    ofJson? relationship.toJson.reread.sorted =
      if relationship.isFinite then some relationship.sorted else none := by
  rw [sorted_reread_toJson]
  cases finite : relationship.properties.isFinite <;>
    simp [ofJson?, Json.record?, Json.required?, Json.defaulted?, Json.asText?, List.lookup,
      Properties.ofJson?_reread, isFinite, sorted, finite]

/-- Whether two relationships are alike up to the order of their properties. -/
def SameAs (left right : Relationship) : Prop :=
  left.id = right.id ∧ left.startNode = right.startNode ∧ left.endNode = right.endNode ∧
    left.type = right.type ∧ ∀ key, left.properties.get? key = right.properties.get? key

theorem sorted_sameAs (relationship : Relationship) :
    relationship.sorted.SameAs relationship :=
  ⟨rfl, rfl, rfl, rfl, relationship.get?_properties_sorted⟩

theorem SameAs.refl (relationship : Relationship) :
    relationship.SameAs relationship :=
  ⟨rfl, rfl, rfl, rfl, fun _ => rfl⟩

end Relationship
end GraphStore
