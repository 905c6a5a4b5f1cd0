import GraphStore.Index.PropertyIndex

/-!
# Index catalogs

An index catalog holds property indexes by label and property.  Reading one never fails: malformed
parts are skipped.
-/

namespace GraphStore

/-- Property indexes by label and property. -/
structure IndexCatalog where
  /-- For each label the indexes by property. -/
  labels : SortedMap (SortedMap PropertyIndex)
  deriving DecidableEq

namespace IndexCatalog

/-- The catalog without indexes. -/
def empty : IndexCatalog :=
  ⟨.empty⟩

/-- Whether there are no indexes. -/
def isEmpty (catalog : IndexCatalog) : Bool :=
  catalog.labels.isEmpty

/-- The index over a label and a property. -/
def get? (catalog : IndexCatalog) (label property : String) : Option PropertyIndex :=
  (catalog.labels.get? label).bind fun indexes => indexes.get? property

/-- Whether there is an index over a label and a property. -/
def contains (catalog : IndexCatalog) (label property : String) : Bool :=
  (catalog.get? label property).isSome

/-- Set the index over a label and a property. -/
def set (catalog : IndexCatalog) (label property : String) (index : PropertyIndex) :
    IndexCatalog :=
  ⟨catalog.labels.insert label (((catalog.labels.get? label).getD .empty).insert property index)⟩

/-- The pairs of label and property that are indexed, in order. -/
def definitions (catalog : IndexCatalog) : List (String × String) :=
  catalog.labels.entries.flatMap fun entry => entry.2.keys.map fun property => (entry.1, property)

/-- File a node in every index that it belongs to. -/
def addNode (catalog : IndexCatalog) (node : Node) : IndexCatalog :=
  ⟨catalog.labels.mapValues fun label indexes =>
    indexes.mapValues fun property index => index.add label property node⟩

/-- Whether filing a node would change one of the indexes. -/
def lacksNode (catalog : IndexCatalog) (node : Node) : Bool :=
  catalog.labels.entries.any fun entry =>
    entry.2.entries.any fun inner => inner.2.lacks entry.1 inner.1 node

/-- File several nodes. -/
def addNodes (catalog : IndexCatalog) (nodes : List Node) : IndexCatalog :=
  nodes.foldl addNode catalog

/-- Whether filing several nodes one after the other changes the catalog. -/
def lacksSome (catalog : IndexCatalog) : List Node → Bool
  | [] => false
  | node :: rest => catalog.lacksNode node || (catalog.addNode node).lacksSome rest

/-- The JSON form. -/
def toJson (catalog : IndexCatalog) : Json :=
  .object (catalog.labels.entries.map fun entry =>
    (entry.1, .object (entry.2.entries.map fun inner => (inner.1, inner.2.toJson))))

/-- Read the indexes of one label from the fields of an object, skipping what is no object. -/
def addFields (catalog : IndexCatalog) (label : String) (fields : List (String × Json)) :
    IndexCatalog :=
  fields.foldl (fun catalog field =>
    match field.2 with
    | .object buckets => catalog.set label field.1 (PropertyIndex.ofFields buckets)
    | _ => catalog) catalog

/-- Read a catalog, skipping whatever is malformed. -/
def ofJson : Json → IndexCatalog
  | .object fields =>
    fields.foldl (fun catalog field =>
      match field.2 with
      | .object properties => catalog.addFields field.1 properties
      | _ => catalog) empty
  | _ => empty

/-- Probe a catalog in its JSON form for the ids under a value, without reading the rest. -/
def probe (json : Json) (label property : String) (value : Value) : List String :=
  match (json.field? label).bind fun indexes =>
      (indexes.field? property).bind fun index => index.field? value.keyText with
  | some (.array ids) => ids.filterMap Json.asText?
  | _ => []

end IndexCatalog
end GraphStore
