import GraphStore.Proofs.Index.Catalogs
import GraphStore.Proofs.Query.Indexing
import GraphStore.Proofs.Store.RoundTrips

/-!
# Documents of indexes

The document of the indexes may hold anything.  As long as no object in it repeats a key, which no
stored document does once it is loaded, probing it finds the ids that looking them up in the loaded
catalog finds, apart from repetitions.
-/

namespace GraphStore

theorem Json.InOrder.distinct {fields : List (String × Json)} (inOrder : (object fields).InOrder) :
    (fields.map Prod.fst).Nodup := by
  refine inOrder.keys.imp fun {first second} less same => ?_
  rw [same] at less
  exact String.lt_irrefl _ less

theorem Json.InOrder.field? {json value : Json} {key : String} (inOrder : json.InOrder)
    (found : json.field? key = some value) : value.InOrder := by
  cases json with
  | object fields =>
      exact inOrder.fields _ ((SortedMap.mem_iff_lookup inOrder.distinct key value).2 found)
  | _ => cases found

/-- The texts of a list; what is no list has none. -/
def Json.listedTexts : Json → List String
  | array items => items.filterMap asText?
  | _ => []

/-! ## One index -/

namespace PropertyIndex

/-- Filing ids in a bucket adds them to what was filed there. -/
theorem bucket_foldl_file_self {index : PropertyIndex} {key : String} {filed : List String}
    (holds : index.bucket key = filed.eraseDups) (ids : List String) :
    (ids.foldl (fun index id => index.file key id) index).bucket key =
      (filed ++ ids).eraseDups := by
  induction ids generalizing index filed with
  | nil => rw [List.foldl_nil, List.append_nil, holds]
  | cons id rest ih =>
      rw [List.foldl_cons, ih (bucket_file_self holds id), List.append_assoc, List.singleton_append]

theorem bucket_foldl_file_of_ne (index : PropertyIndex) {key other : String}
    (differs : other ≠ key) (ids : List String) :
    (ids.foldl (fun index id => index.file key id) index).bucket other = index.bucket other := by
  induction ids generalizing index with
  | nil => rfl
  | cons id rest ih => rw [List.foldl_cons, ih, bucket_file_of_ne differs]

theorem bucket_addField_self {index : PropertyIndex} {field : String × Json}
    (fresh : index.bucket field.1 = []) :
    (index.addField field).bucket field.1 = field.2.listedTexts.eraseDups := by
  rcases field with ⟨name, value⟩
  cases value with
  | array items =>
      exact bucket_foldl_file_self (show _ = ([] : List String).eraseDups from fresh)
        (items.filterMap Json.asText?)
  | _ => exact fresh

theorem bucket_addField_of_ne (index : PropertyIndex) {field : String × Json} {key : String}
    (differs : key ≠ field.1) : (index.addField field).bucket key = index.bucket key := by
  rcases field with ⟨name, value⟩
  cases value with
  | array items => exact bucket_foldl_file_of_ne index differs _
  | _ => rfl

/-- The ids of a bucket are the texts that are listed under its key, each once. -/
theorem bucket_ofFields {fields : List (String × Json)} (distinct : (fields.map Prod.fst).Nodup)
    (key : String) :
    (ofFields fields).bucket key =
      (((fields.lookup key).map Json.listedTexts).getD []).eraseDups := by
  suffices general : ∀ index : PropertyIndex, (∀ field ∈ fields, index.bucket field.1 = []) →
      (fields.foldl addField index).bucket key =
        ((fields.lookup key).map fun value => value.listedTexts.eraseDups).getD
          (index.bucket key) by
    rw [ofFields_eq, general empty fun _ _ => rfl]
    cases fields.lookup key <;> rfl
  induction fields with
  | nil => exact fun index _ => rfl
  | cons field rest ih =>
      obtain ⟨first, distinctRest⟩ := List.nodup_cons.1 distinct
      intro index fresh
      have others : ∀ other ∈ rest, other.1 ≠ field.1 := fun other member same =>
        first (List.mem_map.2 ⟨other, member, same⟩)
      have later := ih distinctRest (index.addField field) fun other member =>
        (bucket_addField_of_ne index (others other member)).trans
          (fresh other (List.mem_cons_of_mem field member))
      rw [List.foldl_cons, later, SortedMap.lookup_cons_eq]
      by_cases same : key = field.1
      · subst same
        have absent : rest.lookup field.1 = none := List.lookup_eq_none_iff.2 fun other member => by
          simpa using (others other member).symm
        rw [absent, if_pos rfl, Option.map_none, Option.getD_none, Option.map_some, Option.getD_some,
          bucket_addField_self (fresh field List.mem_cons_self)]
      · rw [if_neg same, bucket_addField_of_ne index same]

/-- Every index that is read is reduced. -/
theorem isReduced_ofFields (fields : List (String × Json)) : (ofFields fields).IsReduced := by
  refine List.foldlRecOn fields _ isReduced_empty fun index reduced field _ => ?_
  split
  · exact List.foldlRecOn _ _ reduced fun index reduced id _ => reduced.file field.1 id
  · exact reduced

end PropertyIndex

/-! ## Catalogs -/

namespace IndexCatalog

variable {label property : String}

/-- The index that the fields of an object give. -/
def indexOf? (json : Json) : Option PropertyIndex :=
  json.asObject?.map PropertyIndex.ofFields

theorem get?_addFields {fields : List (String × Json)} (distinct : (fields.map Prod.fst).Nodup)
    (catalog : IndexCatalog) (own : String) :
    (catalog.addFields own fields).get? label property =
      if label = own then ((fields.lookup property).bind indexOf?).or (catalog.get? label property)
      else catalog.get? label property := by
  induction fields generalizing catalog with
  | nil => simp [addFields]
  | cons field rest ih =>
      obtain ⟨first, distinctRest⟩ := List.nodup_cons.1 distinct
      obtain ⟨name, value⟩ := field
      have step : catalog.addFields own ((name, value) :: rest) =
          ((indexOf? value).elim catalog fun index => catalog.set own name index).addFields own
            rest := by
        cases value <;> rfl
      rw [step, ih distinctRest, SortedMap.lookup_cons_eq]
      by_cases same : property = name
      · subst same
        have absent : rest.lookup property = none := by
          refine List.lookup_eq_none_iff.2 fun other member => ?_
          have differs : property ≠ other.1 := fun equal =>
            first (List.mem_map.2 ⟨other, member, equal.symm⟩)
          simpa using differs
        cases given : indexOf? value with
        | none => simp [given, absent]
        | some index => by_cases same : label = own <;> simp [given, absent, get?_set, same]
      · cases indexOf? value with
        | none => simp [same]
        | some index => simp [same, get?_set]

/-- Reading a catalog takes over every index that its document has. -/
theorem get?_ofJson {json : Json} (inOrder : json.InOrder) :
    (ofJson json).get? label property =
      ((json.field? label).bind fun indexes => indexes.field? property).bind indexOf? := by
  cases json with
  | object fields =>
      have distinct := inOrder.distinct
      have inner : ∀ field ∈ fields, field.2.InOrder := inOrder.fields
      suffices general : ∀ catalog : IndexCatalog,
          (fields.foldl addField catalog).get? label property =
            (((fields.lookup label).bind fun indexes => indexes.field? property).bind
              indexOf?).or (catalog.get? label property) by
        rw [ofJson_object, general]
        exact Option.or_none
      clear inOrder
      induction fields with
      | nil => exact fun catalog => rfl
      | cons field rest ih =>
          obtain ⟨first, distinctRest⟩ := List.nodup_cons.1 distinct
          obtain ⟨name, value⟩ := field
          intro catalog
          rw [List.foldl_cons, ih distinctRest fun other member =>
            inner other (List.mem_cons_of_mem _ member), SortedMap.lookup_cons_eq]
          have added : (catalog.addField (name, value)).get? label property =
              if label = name then
                ((value.field? property).bind indexOf?).or (catalog.get? label property)
              else catalog.get? label property := by
            cases value with
            | object indexes =>
                exact get?_addFields (inner _ List.mem_cons_self).distinct catalog name
            | _ => simp [addField, Json.field?]
          rw [added]
          by_cases same : label = name
          · subst same
            have absent : rest.lookup label = none := by
              refine List.lookup_eq_none_iff.2 fun other member => ?_
              have differs : label ≠ other.1 := fun equal =>
                first (List.mem_map.2 ⟨other, member, equal.symm⟩)
              simpa using differs
            simp [absent]
          · simp [same]
  | _ => rfl

/-- Every catalog that is read is reduced. -/
theorem isReduced_ofJson (json : Json) : (ofJson json).IsReduced := by
  have fields : ∀ (catalog : IndexCatalog) (label : String) (fields : List (String × Json)),
      catalog.IsReduced → (catalog.addFields label fields).IsReduced := by
    intro catalog label fields reduced
    refine List.foldlRecOn fields _ reduced fun catalog reduced field _ => ?_
    split
    · exact reduced.set label field.1 (PropertyIndex.isReduced_ofFields _)
    · exact reduced
  cases json with
  | object labels =>
      refine List.foldlRecOn labels _ isReduced_empty fun catalog reduced field _ => ?_
      split
      · exact fields catalog field.1 _ reduced
      · exact reduced
  | _ => exact isReduced_empty

/-- Probing a document finds what looking it up in the catalog finds, apart from repetitions. -/
theorem eraseDups_probe {json : Json} (inOrder : json.InOrder) (value : Value) :
    (probe json label property value).eraseDups =
      (((ofJson json).get? label property).map fun index => index.lookup value).getD [] := by
  rw [get?_ofJson inOrder, probe, ← Option.bind_assoc]
  cases stored : (json.field? label).bind fun indexes => indexes.field? property with
  | none => rfl
  | some index =>
      obtain ⟨indexes, labelled, found⟩ := Option.bind_eq_some_iff.1 stored
      have inOrderIndex := (inOrder.field? labelled).field? found
      rw [Option.bind_some, Option.bind_some]
      cases index with
      | object fields =>
          have looked : PropertyIndex.lookup (.ofFields fields) value =
            (PropertyIndex.ofFields fields).bucket value.keyText := rfl
          rw [indexOf?, Json.asObject?, Option.map_some, Option.map_some, Option.getD_some, looked,
            PropertyIndex.bucket_ofFields inOrderIndex.distinct, Json.field?]
          cases fields.lookup value.keyText with
          | none => rfl
          | some ids => cases ids <;> rfl
      | _ => rfl

end IndexCatalog

namespace Store

theorem inOrder_of_indexDocument {store : Store} {directory : Path} {json : Json}
    (document : store.indexDocument directory = some json) : json.InOrder := by
  unfold indexDocument at document
  split at document
  · next loaded =>
      rw [document] at loaded
      obtain ⟨source, sorted⟩ := Document.exists_source_of_ofContent loaded
      exact Json.inOrder_of_sortedDocument? sorted
  · cases document

theorem isReduced_catalog (store : Store) (directory : Path) :
    (store.catalog directory).IsReduced := by
  unfold catalog
  split
  · exact IndexCatalog.isReduced_ofJson _
  · exact IndexCatalog.isReduced_empty

/-- Probing a store finds what looking a value up in its catalog finds, apart from repetitions. -/
theorem eraseDups_probe (store : Store) (directory : Path) (label property : String)
    (value : Value) :
    (store.probe directory label property value).eraseDups =
      (((store.catalog directory).get? label property).map fun index =>
        index.lookup value).getD [] := by
  unfold probe catalog
  cases document : store.indexDocument directory with
  | none => rfl
  | some json =>
      exact IndexCatalog.eraseDups_probe (inOrder_of_indexDocument document) value

theorem mem_probe_iff (store : Store) (directory : Path) (label property : String) (value : Value)
    (id : String) :
    id ∈ store.probe directory label property value ↔
      id ∈ (((store.catalog directory).get? label property).map fun index =>
        index.lookup value).getD [] := by
  rw [← eraseDups_probe, List.mem_eraseDups]

end Store
end GraphStore
