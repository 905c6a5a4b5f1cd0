import GraphStore.Proofs.Json.Finite
import GraphStore.Proofs.Query.Readability

/-!
# Wire forms

Properties, nodes, relationships and responses are sent as JSON texts.  A text is decoded by the
shape of what it holds: a scalar becomes the value of its kind, fields that may be absent have
defaults, and a response is an answer whenever it can be read as one.  The main statement says that
none of this loses anything: what is decoded from the text of a value without infinite doubles is
that value, with its properties in their order.

The loaders of collections sort the fields of every object first, so they are not concerned here.
-/

namespace GraphStore

namespace Json

/-! ## Finite values -/

mutual

theorem reread_eq_self {json : Json} (finite : ∀ number ∈ json.doubles, number.isFinite)
    (readable : json.readable) : json.reread = json := by
  match json with
  | null | boolean _ | integer _ | text _ => rfl
  | double number =>
      have finite : number.isFinite := finite number (by simp [doubles])
      simp [reread, finite]
  | array items =>
      simpa [reread] using rereadItems_eq_self finite readable
  | object fields =>
      simpa [reread] using rereadFields_eq_self finite readable

theorem rereadItems_eq_self {items : List Json}
    (finite : ∀ number ∈ doublesOfItems items, number.isFinite) (readable : readableItems items) :
    rereadItems items = items := by
  match items with
  | [] => rfl
  | item :: items =>
      obtain ⟨itemReadable, restReadable⟩ := Bool.and_eq_true_iff.1 readable
      obtain ⟨itemFinite, restFinite⟩ := List.forall_mem_append.1 finite
      rw [rereadItems, reread_eq_self itemFinite itemReadable,
        rereadItems_eq_self restFinite restReadable]

theorem rereadFields_eq_self {fields : List (String × Json)}
    (finite : ∀ number ∈ doublesOfFields fields, number.isFinite)
    (readable : readableFields fields) : rereadFields fields = fields := by
  match fields with
  | [] => rfl
  | (key, value) :: fields =>
      obtain ⟨valueReadable, restReadable⟩ := Bool.and_eq_true_iff.1 readable
      obtain ⟨valueFinite, restFinite⟩ := List.forall_mem_append.1 finite
      rw [rereadFields, reread_eq_self valueFinite valueReadable,
        rereadFields_eq_self restFinite restReadable]

end

theorem doubles_text (value : String) : (text value).doubles = [] := rfl

@[simp]
theorem readable_text (value : String) : (text value).readable := rfl

theorem readable_array (items : List Json) :
    (array items).readable ↔ ∀ item ∈ items, item.readable := by
  rw [readable]
  induction items with
  | nil => simp [readableItems]
  | cons item items ih => simp [readableItems, ih]

theorem readable_object (fields : List (String × Json)) :
    (object fields).readable ↔ ∀ field ∈ fields, field.2.readable := by
  rw [readable]
  induction fields with
  | nil => simp [readableFields]
  | cons field fields ih => simp [readableFields, ih]

variable {json : Json}

/-- A finite value is read from its text. -/
theorem parse?_write_of_finite (style : Style) (readable : json.readable)
    (finite : ∀ number ∈ json.doubles, number.isFinite) (readsBack : ReadsBack json.doubles) :
    parse? (json.write style) = some json := by
  rw [parse?_write style json readsBack, reread_eq_self finite readable]

/-- A finite value that does not nest too deeply is a document. -/
theorem document?_write_of_finite (style : Style) (readable : json.readable)
    (shallow : json.depth ≤ nestingLimit) (finite : ∀ number ∈ json.doubles, number.isFinite)
    (readsBack : ReadsBack json.doubles) : document? (json.write style) = some json := by
  simp [document?, parse?_write_of_finite style readable finite readsBack, Option.filter, readable,
    shallow]

theorem list?_map {α : Type} {encode : α → Json} {decode : Json → Option α}
    (decoded : ∀ item, decode (encode item) = some item) (items : List α) :
    list? decode (array (items.map encode)) = some items := by
  simp only [list?, List.mapM_map, Function.comp_def, decoded]
  simpa using List.mapM_pure (m := Option) (l := items) (f := id)

end Json

/-! ## Properties, nodes and relationships -/

theorem Value.readable_toJson (value : Value) : value.toJson.readable := by
  cases value <;> rfl

namespace Properties

theorem readable_toJson (properties : Properties) : properties.toJson.readable := by
  rw [toJson, Json.readable_object, List.forall_mem_map]
  exact fun entry _ => entry.2.readable_toJson

@[simp]
theorem ofJson?_toJson (properties : Properties) : ofJson? properties.toJson = some properties := by
  have entries : properties.entries.mapM (fun entry : String × Value => some entry) =
      some properties.entries := by
    simpa using List.mapM_pure (m := Option) (l := properties.entries) (f := id)
  simp [ofJson?, toJson, List.mapM_map, Function.comp_def, entries, ofList_entries]

end Properties

namespace Node

theorem readable_toJson (node : Node) : node.toJson.readable := by
  simp [toJson, Json.readable_object, Json.readable_array,
    node.properties.readable_toJson]

@[simp]
theorem ofJson?_toJson (node : Node) : ofJson? node.toJson = some node := by
  simp [ofJson?, toJson, Json.record?, Json.required?, Json.defaulted?, Json.asText?,
    Json.list?_texts, List.lookup]

end Node

namespace Relationship

theorem readable_toJson (relationship : Relationship) : relationship.toJson.readable := by
  simp [toJson, Json.readable_object, relationship.properties.readable_toJson]

@[simp]
theorem ofJson?_toJson (relationship : Relationship) :
    ofJson? relationship.toJson = some relationship := by
  simp [ofJson?, toJson, Json.record?, Json.required?, Json.defaulted?, Json.asText?, List.lookup]

end Relationship

namespace Query

/-! ## Answers and responses -/

namespace Answer

theorem readable_toJson (answer : Answer) : answer.toJson.readable := by
  simp [toJson, Json.readable_object, Json.readable_array, Node.readable_toJson,
    Relationship.readable_toJson]

theorem doubles_toJson (answer : Answer) : answer.toJson.doubles = answer.doubles := by
  simp [toJson, doubles, Json.doubles_object, Json.doubles_array, Json.doubles_text, List.flatMap_map,
    Node.doubles_toJson, Relationship.doubles_toJson]

theorem depth_toJson_le (answer : Answer) : answer.toJson.depth ≤ 4 := by
  have nodes : (Json.array (answer.nodes.map Node.toJson)).depth ≤ 3 :=
    Json.depth_array_le (List.forall_mem_map.2 fun node _ => node.depth_toJson_le)
  have relationships : (Json.array (answer.relationships.map Relationship.toJson)).depth ≤ 3 :=
    Json.depth_array_le
      (List.forall_mem_map.2 fun relationship _ => relationship.depth_toJson_le)
  refine Json.depth_object_le (List.forall_mem_cons.2 ⟨Nat.zero_le 3, ?_⟩)
  exact List.forall_mem_cons.2 ⟨nodes, List.forall_mem_singleton.2 relationships⟩

@[simp]
theorem ofJson?_toJson (answer : Answer) : ofJson? answer.toJson = some answer := by
  simp [ofJson?, toJson, Json.record?, Json.required?, Json.asText?, List.lookup,
    Json.list?_map Node.ofJson?_toJson, Json.list?_map Relationship.ofJson?_toJson]

end Answer

namespace Response

/-- The doubles among the properties of what is sent. -/
def doubles : Response → List Double
  | success answer => answer.doubles
  | failure _ => []

theorem readable_toJson (response : Response) : response.toJson.readable := by
  cases response with
  | success answer => exact answer.readable_toJson
  | failure message => rfl

theorem doubles_toJson (response : Response) : response.toJson.doubles = response.doubles := by
  cases response with
  | success answer => exact answer.doubles_toJson
  | failure message => rfl

theorem depth_toJson_le (response : Response) : response.toJson.depth ≤ 4 := by
  cases response with
  | success answer => exact answer.depth_toJson_le
  | failure message => exact Nat.le_of_ble_eq_true rfl

/-- An answer is no failure, because all its fields are read first; a failure is no answer, because
it lacks them. -/
@[simp]
theorem ofJson?_toJson (response : Response) : ofJson? response.toJson = some response := by
  cases response with
  | success answer => simp [ofJson?, toJson]
  | failure message =>
      have noAnswer : Answer.ofJson? (toJson (failure message)) = none := by
        simp [Answer.ofJson?, toJson, Json.record?, Json.required?]
      rw [ofJson?, noAnswer]
      simp [toJson, failureOfJson?, Json.record?, Json.required?, Json.asObject?, Json.asText?,
        List.lookup]

end Response

/-- Every response, and all properties, nodes and relationships, without infinite doubles and
not-a-numbers, are decoded from their texts as they were, however the text is laid out, if the
doubles are read back. -/
theorem decoded_of_written (style : Json.Style) :
    (∀ response : Response, (∀ number ∈ response.doubles, number.isFinite) →
      Json.ReadsBack response.doubles →
      (Json.document? (response.toJson.write style)).bind Response.ofJson? = some response) ∧
    (∀ node : Node, (∀ number ∈ node.doubles, number.isFinite) → Json.ReadsBack node.doubles →
      (Json.parse? (node.toJson.write style)).bind Node.ofJson? = some node) ∧
    (∀ relationship : Relationship, (∀ number ∈ relationship.doubles, number.isFinite) →
      Json.ReadsBack relationship.doubles →
      (Json.parse? (relationship.toJson.write style)).bind Relationship.ofJson? =
        some relationship) ∧
    (∀ properties : Properties, (∀ number ∈ properties.doubles, number.isFinite) →
      Json.ReadsBack properties.doubles →
      (Json.document? (properties.toJson.write style)).bind Properties.ofJson? =
        some properties) := by
  refine ⟨fun response finite readsBack => ?_, fun node finite readsBack => ?_,
    fun relationship finite readsBack => ?_, fun properties finite readsBack => ?_⟩
  · rw [← response.doubles_toJson] at finite readsBack
    rw [Json.document?_write_of_finite style response.readable_toJson
      (response.depth_toJson_le.trans (by decide)) finite readsBack]
    exact response.ofJson?_toJson
  · rw [← node.doubles_toJson] at finite readsBack
    rw [Json.parse?_write_of_finite style node.readable_toJson finite readsBack]
    exact node.ofJson?_toJson
  · rw [← relationship.doubles_toJson] at finite readsBack
    rw [Json.parse?_write_of_finite style relationship.readable_toJson finite readsBack]
    exact relationship.ofJson?_toJson
  · rw [← properties.doubles_toJson] at finite readsBack
    rw [Json.document?_write_of_finite style properties.readable_toJson
      (properties.depth_toJson_le.trans (by decide)) finite readsBack]
    exact properties.ofJson?_toJson

/-- A failure that looks like an answer, properties that are not in the order of their keys, a
double without a fraction next to the same integer, and the least integer and positive double. -/
theorem decoded_of_written_of_look_alikes :
    let properties : Properties := .ofList [("z", .double (.ofInt 1)), ("a", .integer 1),
      ("m", .text "true"), ("b", .boolean true), ("", .integer Int64.minValue),
      ("s", .double (.ofScientific false 5 (-324)))]
    let node : Node := ⟨"\"\n", [], properties⟩
    let relationship : Relationship := ⟨"r", "\"\n", "n", "T", .ofList [("y", .double (.zero true))]⟩
    let responses : List Response :=
      [.success ⟨"error", [node], [relationship]⟩, .failure "\x7b\"message\":\"\"\x7d",
        .success ⟨"", [], []⟩]
    (∀ response ∈ responses, (Json.document? (response.toJson.write .compact)).bind
      Response.ofJson? = some response) ∧
    (Json.parse? (node.toJson.write .compact)).bind Node.ofJson? = some node ∧
    (Json.parse? (relationship.toJson.write .compact)).bind Relationship.ofJson? =
      some relationship ∧
    (Json.document? (properties.toJson.write .compact)).bind Properties.ofJson? =
      some properties := by
  intro properties node relationship responses
  have responsesPossible : ∀ response ∈ responses, ∀ number ∈ response.doubles,
      number.isFinite ∧ (number.isFinite → number.isReadBack) := by
    decide +kernel
  have nodePossible : ∀ number ∈ node.doubles,
      number.isFinite ∧ (number.isFinite → number.isReadBack) := by
    decide +kernel
  have relationshipPossible : ∀ number ∈ relationship.doubles,
      number.isFinite ∧ (number.isFinite → number.isReadBack) := by
    decide +kernel
  obtain ⟨ofResponse, ofNode, ofRelationship, ofProperties⟩ := decoded_of_written .compact
  refine ⟨fun response member => ?_, ?_, ?_, ?_⟩
  · exact ofResponse response (fun number within => (responsesPossible response member number within).1)
      fun number within => (responsesPossible response member number within).2
  · exact ofNode node (fun number within => (nodePossible number within).1)
      fun number within => (nodePossible number within).2
  · exact ofRelationship relationship (fun number within => (relationshipPossible number within).1)
      fun number within => (relationshipPossible number within).2
  · exact ofProperties properties (fun number within => (nodePossible number within).1)
      fun number within => (nodePossible number within).2

end Query
end GraphStore
