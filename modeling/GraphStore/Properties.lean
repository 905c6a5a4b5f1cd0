import GraphStore.Value

/-!
# Properties

The properties of an entity are a map from keys to values that remembers the order in which keys
were first set.
-/

namespace GraphStore

/-- A map from keys to values in the order of first insertion. -/
structure Properties where
  /-- The keys with their values. -/
  entries : List (String × Value)
  /-- No key occurs twice. -/
  keys_nodup : (entries.map Prod.fst).Nodup

namespace Properties

/-- No properties. -/
def empty : Properties :=
  ⟨[], by simp⟩

instance : Inhabited Properties :=
  ⟨empty⟩

instance : EmptyCollection Properties :=
  ⟨empty⟩

instance : DecidableEq Properties := fun left right =>
  if equal : left.entries = right.entries then
    isTrue (by cases left; cases right; simp_all)
  else
    isFalse (fun same => equal (congrArg entries same))

/-- The keys in order. -/
def keys (properties : Properties) : List String :=
  properties.entries.map Prod.fst

/-- The value under a key. -/
def get? (properties : Properties) (key : String) : Option Value :=
  properties.entries.lookup key

/-- Whether a key has a value. -/
def contains (properties : Properties) (key : String) : Bool :=
  (properties.get? key).isSome

/-- Replace the value of a key where it stands, or add the key at the end. -/
def insertEntry (key : String) (value : Value) :
    List (String × Value) → List (String × Value)
  | [] => [(key, value)]
  | entry :: rest =>
    if entry.1 = key then (key, value) :: rest else entry :: insertEntry key value rest

theorem mem_keys_insertEntry (key other : String) (value : Value)
    (entries : List (String × Value)) :
    other ∈ (insertEntry key value entries).map Prod.fst ↔
      other = key ∨ other ∈ entries.map Prod.fst := by
  induction entries with
  | nil => simp [insertEntry]
  | cons entry rest ih =>
    by_cases same : entry.1 = key
    · simp [insertEntry, same]
    · simp only [insertEntry, same, if_false, List.map_cons, List.mem_cons, ih]
      grind

theorem nodup_keys_insertEntry (key : String) (value : Value) (entries : List (String × Value))
    (distinct : (entries.map Prod.fst).Nodup) :
    ((insertEntry key value entries).map Prod.fst).Nodup := by
  induction entries with
  | nil => simp [insertEntry]
  | cons entry rest ih =>
    obtain ⟨fresh, distinctRest⟩ := List.nodup_cons.1 distinct
    by_cases same : entry.1 = key
    · simpa [insertEntry, same] using distinct
    · simp only [insertEntry, same, if_false, List.map_cons]
      refine List.nodup_cons.2 ⟨fun member => ?_, ih distinctRest⟩
      rcases (mem_keys_insertEntry key entry.1 value rest).1 member with equal | member
      · exact same equal
      · exact fresh member

/-- Set the value of a key. -/
def insert (properties : Properties) (key : String) (value : Value) : Properties :=
  ⟨insertEntry key value properties.entries,
    nodup_keys_insertEntry key value properties.entries properties.keys_nodup⟩

/-- Set keys one after the other. -/
def ofList (entries : List (String × Value)) : Properties :=
  entries.foldl (fun properties entry => properties.insert entry.1 entry.2) empty

/-- Whether every required property is present with a loosely equal value. -/
def satisfies (actual required : Properties) : Bool :=
  required.entries.all fun entry =>
    match actual.get? entry.1 with
    | some value => value.looselyEquals entry.2
    | none => false

end Properties
end GraphStore
