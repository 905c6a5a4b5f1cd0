import GraphStore.Graph.Node
import GraphStore.SortedMap

/-!
# Property indexes

A property index files node ids under the key texts of their values.  The ids of a bucket stand in
the order in which they were filed, each once.
-/

namespace GraphStore

/-- Buckets of node ids by key text. -/
structure PropertyIndex where
  /-- The buckets. -/
  buckets : SortedMap (List String)
  deriving DecidableEq

namespace PropertyIndex

/-- The index without buckets. -/
def empty : PropertyIndex :=
  ⟨.empty⟩

/-- The ids under a key text. -/
def bucket (index : PropertyIndex) (key : String) : List String :=
  (index.buckets.get? key).getD []

/-- The ids under the key text of a value. -/
def lookup (index : PropertyIndex) (value : Value) : List String :=
  index.bucket value.keyText

/-- The number of key texts. -/
def size (index : PropertyIndex) : Nat :=
  index.buckets.size

/-- Whether there are no key texts. -/
def isEmpty (index : PropertyIndex) : Bool :=
  index.buckets.isEmpty

/-- File an id under a key text, unless it is there already. -/
def file (index : PropertyIndex) (key id : String) : PropertyIndex :=
  if (index.bucket key).contains id then index
  else ⟨index.buckets.insert key (index.bucket key ++ [id])⟩

/-- Whether an id is filed under a value. -/
def contains (index : PropertyIndex) (value : Value) (id : String) : Bool :=
  (index.lookup value).contains id

/-- File an id under a value. -/
def insert (index : PropertyIndex) (value : Value) (id : String) : PropertyIndex :=
  index.file value.keyText id

/-- The value under which a node is filed in an index over a label and a property. -/
def indexed? (node : Node) (label property : String) : Option Value :=
  if node.hasLabel label then node.properties.get? property else none

/-- File a node, if it carries the label and has the property. -/
def add (index : PropertyIndex) (label property : String) (node : Node) : PropertyIndex :=
  match indexed? node label property with
  | some value => index.insert value node.id
  | none => index

/-- Whether filing a node would change the index. -/
def lacks (index : PropertyIndex) (label property : String) (node : Node) : Bool :=
  match indexed? node label property with
  | some value => !index.contains value node.id
  | none => false

/-- The index of a list of nodes over a label and a property. -/
def build (nodes : List Node) (label property : String) : PropertyIndex :=
  nodes.foldl (fun index node => index.add label property node) empty

/-- The JSON form. -/
def toJson (index : PropertyIndex) : Json :=
  .object (index.buckets.entries.map fun entry => (entry.1, .array (entry.2.map .text)))

/-- Read an index from the fields of an object.  Whatever is not a list is skipped, and so are
the items of a list that are no texts. -/
def ofFields (fields : List (String × Json)) : PropertyIndex :=
  fields.foldl (fun index field =>
    match field.2 with
    | .array ids => (ids.filterMap Json.asText?).foldl (fun index id => index.file field.1 id) index
    | _ => index) empty

end PropertyIndex
end GraphStore
