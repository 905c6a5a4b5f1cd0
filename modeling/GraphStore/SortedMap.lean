/-!
# Sorted maps

A map from strings to values whose keys are kept in order.  The order of strings is by code points,
which is also the order of their bytes.
-/

namespace GraphStore

/-- A map whose keys are strictly increasing. -/
structure SortedMap (α : Type) where
  /-- The keys with their values. -/
  entries : List (String × α)
  /-- Every key is less than the keys after it. -/
  keys_sorted : (entries.map Prod.fst).Pairwise (· < ·)

namespace SortedMap

variable {α : Type}

/-- The map without keys. -/
def empty : SortedMap α :=
  ⟨[], by simp⟩

instance : Inhabited (SortedMap α) :=
  ⟨empty⟩

instance [DecidableEq α] : DecidableEq (SortedMap α) := fun left right =>
  if equal : left.entries = right.entries then
    isTrue (by cases left; cases right; simp_all)
  else
    isFalse (fun same => equal (congrArg entries same))

/-- The keys in order. -/
def keys (map : SortedMap α) : List String :=
  map.entries.map Prod.fst

/-- The value under a key. -/
def get? (map : SortedMap α) (key : String) : Option α :=
  map.entries.lookup key

/-- The number of keys. -/
def size (map : SortedMap α) : Nat :=
  map.entries.length

/-- Whether there are no keys. -/
def isEmpty (map : SortedMap α) : Bool :=
  map.entries.isEmpty

/-- Set a key in sorted entries. -/
def insertEntry (key : String) (value : α) : List (String × α) → List (String × α)
  | [] => [(key, value)]
  | entry :: rest =>
    if key < entry.1 then (key, value) :: entry :: rest
    else if key = entry.1 then (key, value) :: rest
    else entry :: insertEntry key value rest

theorem mem_keys_insertEntry (key other : String) (value : α) (entries : List (String × α)) :
    other ∈ (insertEntry key value entries).map Prod.fst ↔
      other = key ∨ other ∈ entries.map Prod.fst := by
  induction entries with
  | nil => simp [insertEntry]
  | cons entry rest ih =>
    unfold insertEntry
    split
    · simp
    · split
      · simp_all
      · simp only [List.map_cons, List.mem_cons, ih]
        grind

theorem keys_sorted_insertEntry (key : String) (value : α) (entries : List (String × α))
    (sorted : (entries.map Prod.fst).Pairwise (· < ·)) :
    ((insertEntry key value entries).map Prod.fst).Pairwise (· < ·) := by
  induction entries with
  | nil => simp [insertEntry]
  | cons entry rest ih =>
    obtain ⟨first, sortedRest⟩ := List.pairwise_cons.1 sorted
    unfold insertEntry
    split
    · next less =>
      refine List.pairwise_cons.2 ⟨fun other member => ?_, sorted⟩
      rcases List.mem_cons.1 member with rfl | member
      · exact less
      · exact String.lt_trans less (first other member)
    · split
      · next equal =>
        subst equal
        exact sorted
      · next notLess notEqual =>
        refine List.pairwise_cons.2 ⟨fun other member => ?_, ih sortedRest⟩
        rcases (mem_keys_insertEntry key other value rest).1 member with rfl | member
        · grind
        · exact first other member

/-- Set the value of a key. -/
def insert (map : SortedMap α) (key : String) (value : α) : SortedMap α :=
  ⟨insertEntry key value map.entries, keys_sorted_insertEntry key value map.entries map.keys_sorted⟩

/-- Set keys one after the other. -/
def ofList (entries : List (String × α)) : SortedMap α :=
  entries.foldl (fun map entry => map.insert entry.1 entry.2) empty

/-- Change every value. -/
def mapValues {β : Type} (change : String → α → β) (map : SortedMap α) : SortedMap β :=
  ⟨map.entries.map fun entry => (entry.1, change entry.1 entry.2), by
    have same : (map.entries.map fun entry => (entry.1, change entry.1 entry.2)).map Prod.fst =
        map.entries.map Prod.fst := by simp
    rw [same]
    exact map.keys_sorted⟩

end SortedMap
end GraphStore
