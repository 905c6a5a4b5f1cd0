import GraphStore.Proofs.Graph.Stored

/-!
# Entities as which written ones are read

A double that is saved may come back as one of its neighbours, so an entity with finite doubles is
loaded as it was saved but for some of its doubles.  Its id and the ids to which it refers stay as
they are, and they can be read even if the entity cannot be loaded.
-/

namespace GraphStore

/-! ## Documents -/

namespace Json

theorem recovered_array (items : List Json) :
    (array items).recovered = array (items.map recovered) := by
  have each : recoveredItems items = items.map recovered := by
    induction items with
    | nil => rfl
    | cons item rest ih => rw [recoveredItems, ih, List.map_cons]
  rw [recovered, each]

theorem recovered_object (fields : List (String × Json)) :
    (object fields).recovered = object (fields.map fun field => (field.1, field.2.recovered)) := by
  have each : recoveredFields fields = fields.map fun field => (field.1, field.2.recovered) := by
    induction fields with
    | nil => rfl
    | cons field rest ih => rw [recoveredFields, ih, List.map_cons]
  rw [recovered, each]

theorem recovered_texts (texts : List String) :
    (array (texts.map text)).recovered = array (texts.map text) := by
  rw [recovered_array, List.map_map]
  rfl

end Json

/-! ## Entities -/

namespace Value

/-- The value as which a written value is read, if it is read at all. -/
def recovered : Value → Value
  | double number => double number.recovered
  | value => value

theorem recovered_toJson (value : Value) : value.toJson.recovered = value.recovered.toJson := by
  cases value <;> rfl

theorem recovered_eq_self {value : Value} (readsBack : Json.ReadsBack value.doubles) :
    value.recovered = value := by
  cases value with
  | double number =>
      have same : number.recovered = number := by
        cases finite : number.isFinite with
        | true =>
            exact Double.recovered_of_isReadBack (readsBack number List.mem_cons_self finite)
        | false => exact Double.recovered_of_not_isFinite finite
      rw [recovered, same]
  | boolean | integer | text => rfl

theorem isFinite_recovered (value : Value) : value.recovered.isFinite = value.isFinite := by
  cases value with
  | double number =>
      change number.recovered.isFinite = number.isFinite
      cases finite : number.isFinite with
      | true => exact Double.isFinite_recovered finite
      | false => rw [Double.recovered_of_not_isFinite finite, finite]
  | boolean | integer | text => rfl

end Value

namespace Properties

/-- The properties as which written properties are read, if they are read at all. -/
def recovered (properties : Properties) : Properties :=
  ⟨properties.entries.map fun entry => (entry.1, entry.2.recovered), by
    have same : (properties.entries.map fun entry => (entry.1, entry.2.recovered)).map Prod.fst =
        properties.entries.map Prod.fst := by simp
    rw [same]
    exact properties.keys_nodup⟩

theorem recovered_toJson (properties : Properties) :
    properties.toJson.recovered = properties.recovered.toJson := by
  simp [toJson, recovered, Json.recovered_object, Function.comp_def, Value.recovered_toJson]

theorem recovered_eq_self {properties : Properties}
    (readsBack : Json.ReadsBack properties.doubles) : properties.recovered = properties := by
  refine ext_entries ?_
  have each : ∀ entry ∈ properties.entries, (entry.1, entry.2.recovered) = entry :=
    fun entry member => Prod.ext rfl (Value.recovered_eq_self (readsBack.of_subset
      fun number inValue => List.mem_flatMap.2 ⟨entry, member, inValue⟩))
  exact (List.map_congr_left each).trans (List.map_id _)

theorem isFinite_recovered (properties : Properties) :
    properties.recovered.isFinite = properties.isFinite := by
  simp [isFinite, recovered, List.all_map, Function.comp_def, Value.isFinite_recovered]

end Properties

namespace Node

/-- The node as which a written node is read, if it is read at all. -/
def recovered (node : Node) : Node :=
  { node with properties := node.properties.recovered }

@[simp]
theorem id_recovered (node : Node) : node.recovered.id = node.id := rfl

theorem recovered_eq_self {node : Node} (readsBack : Json.ReadsBack node.doubles) :
    node.recovered = node := by
  rw [recovered, Properties.recovered_eq_self readsBack]

theorem isFinite_recovered (node : Node) : node.recovered.isFinite = node.isFinite :=
  node.properties.isFinite_recovered

theorem recovered_toJson (node : Node) : node.toJson.recovered = node.recovered.toJson := by
  simp only [toJson, Json.recovered_object, List.map_cons, List.map_nil, Json.recovered_texts,
    Properties.recovered_toJson]
  rfl

/-- A written node is loaded, provided that it is finite. -/
theorem ofJson?_written (node : Node) :
    ofJson? node.toJson.recovered.reread.sorted =
      if node.isFinite then some node.recovered.sorted else none := by
  rw [recovered_toJson, ofJson?_reread, isFinite_recovered]

/-- The id of a stored node, whether or not the node can be loaded. -/
def idOfJson? (json : Json) : Option String := do
  let fields ← json.record? ["id", "labels", "properties"]
  Json.required? fields "id" Json.asText?

theorem idOfJson?_of_ofJson? {json : Json} {node : Node} (decoded : ofJson? json = some node) :
    idOfJson? json = some node.id := by
  simp only [ofJson?, Option.bind_eq_bind, Option.bind_eq_some_iff] at decoded
  obtain ⟨fields, record, id, named, _, -, _, -, same⟩ := decoded
  cases same
  simp only [idOfJson?, record, Option.bind_eq_bind, Option.bind_some, named]

theorem idOfJson?_written (node : Node) :
    idOfJson? node.toJson.recovered.reread.sorted = some node.id := by
  rw [recovered_toJson, sorted_reread_toJson]
  rfl

end Node

namespace Relationship

/-- The relationship as which a written relationship is read, if it is read at all. -/
def recovered (relationship : Relationship) : Relationship :=
  { relationship with properties := relationship.properties.recovered }

@[simp]
theorem startNode_recovered (relationship : Relationship) :
    relationship.recovered.startNode = relationship.startNode := rfl

@[simp]
theorem endNode_recovered (relationship : Relationship) :
    relationship.recovered.endNode = relationship.endNode := rfl

theorem recovered_eq_self {relationship : Relationship}
    (readsBack : Json.ReadsBack relationship.doubles) : relationship.recovered = relationship := by
  rw [recovered, Properties.recovered_eq_self readsBack]

theorem isFinite_recovered (relationship : Relationship) :
    relationship.recovered.isFinite = relationship.isFinite :=
  relationship.properties.isFinite_recovered

theorem recovered_toJson (relationship : Relationship) :
    relationship.toJson.recovered = relationship.recovered.toJson := by
  simp only [toJson, Json.recovered_object, List.map_cons, List.map_nil,
    Properties.recovered_toJson]
  rfl

/-- A written relationship is loaded, provided that it is finite. -/
theorem ofJson?_written (relationship : Relationship) :
    ofJson? relationship.toJson.recovered.reread.sorted =
      if relationship.isFinite then some relationship.recovered.sorted else none := by
  rw [recovered_toJson, ofJson?_reread, isFinite_recovered]

/-- The ids of the nodes at the ends. -/
def ends (relationship : Relationship) : List String :=
  [relationship.startNode, relationship.endNode]

/-- The ids of the nodes at the ends of a stored relationship, whether or not the relationship can
be loaded. -/
def endsOfJson? (json : Json) : Option (List String) := do
  let fields ← json.record? ["id", "start_node", "end_node", "type", "properties"]
  let startNode ← Json.required? fields "start_node" Json.asText?
  let endNode ← Json.required? fields "end_node" Json.asText?
  some [startNode, endNode]

theorem endsOfJson?_of_ofJson? {json : Json} {relationship : Relationship}
    (decoded : ofJson? json = some relationship) : endsOfJson? json = some relationship.ends := by
  simp only [ofJson?, Option.bind_eq_bind, Option.bind_eq_some_iff] at decoded
  obtain ⟨fields, record, _, -, _, starts, _, targets, _, -, _, -, same⟩ := decoded
  cases same
  simp only [endsOfJson?, record, Option.bind_eq_bind, Option.bind_some, starts, targets, ends]

theorem endsOfJson?_written (relationship : Relationship) :
    endsOfJson? relationship.toJson.recovered.reread.sorted = some relationship.ends := by
  rw [recovered_toJson, sorted_reread_toJson]
  rfl

end Relationship
end GraphStore
