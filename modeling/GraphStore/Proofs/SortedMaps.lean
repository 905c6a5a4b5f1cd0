import Mathlib
import GraphStore.SortedMap

/-!
# Theory of sorted maps

A sorted map is determined by the values under its keys.
-/

namespace GraphStore

namespace SortedMap

variable {α β : Type}

theorem lookup_cons_eq (key : String) (entry : String × α) (entries : List (String × α)) :
    (entry :: entries).lookup key = if key = entry.1 then some entry.2 else entries.lookup key := by
  obtain ⟨first, value⟩ := entry
  by_cases same : key = first
  · simp [same]
  · have skip : (key == first) = false := by simpa using same
    simp [List.lookup_cons, skip, same]

theorem lookup_insertEntry (key other : String) (value : α) (entries : List (String × α)) :
    (insertEntry key value entries).lookup other =
      if other = key then some value else entries.lookup other := by
  induction entries with
  | nil => simp [insertEntry, lookup_cons_eq]
  | cons entry rest ih =>
      unfold insertEntry
      split
      · rw [lookup_cons_eq]
      · split
        · next equal =>
            subst equal
            simp only [lookup_cons_eq]
            split <;> rfl
        · next notEqual =>
            simp only [lookup_cons_eq, ih]
            grind

@[simp]
theorem get?_empty (key : String) : (empty : SortedMap α).get? key = none := rfl

theorem get?_insert (map : SortedMap α) (key other : String) (value : α) :
    (map.insert key value).get? other = if other = key then some value else map.get? other :=
  lookup_insertEntry key other value map.entries

theorem ext_entries {left right : SortedMap α} (same : left.entries = right.entries) :
    left = right := by
  cases left
  cases right
  cases same
  rfl

theorem keys_nodup (map : SortedMap α) : (map.entries.map Prod.fst).Nodup := by
  refine List.Pairwise.imp ?_ map.keys_sorted
  intro left right less equal
  exact String.lt_irrefl right (equal ▸ less)

theorem mem_insertEntry {key : String} {value : α} {entry : String × α}
    {entries : List (String × α)} (member : entry ∈ insertEntry key value entries) :
    entry = (key, value) ∨ entry ∈ entries := by
  induction entries with
  | nil => exact Or.inl (List.mem_singleton.1 member)
  | cons first rest ih =>
      rw [insertEntry] at member
      split at member
      · exact List.mem_cons.1 member
      · split at member
        · rcases List.mem_cons.1 member with same | member
          · exact Or.inl same
          · exact Or.inr (List.mem_cons_of_mem first member)
        · rcases List.mem_cons.1 member with rfl | member
          · exact Or.inr List.mem_cons_self
          · exact (ih member).imp id (List.mem_cons_of_mem first)

theorem mem_of_mem_ofList {entries : List (String × α)}
    {entry : String × α} (member : entry ∈ (ofList entries).entries) : entry ∈ entries := by
  suffices general : ∀ map : SortedMap α,
      entry ∈ (entries.foldl (fun map entry => map.insert entry.1 entry.2) map).entries →
        entry ∈ entries ∨ entry ∈ map.entries by
    rcases general empty member with found | impossible
    · exact found
    · cases impossible
  clear member
  induction entries with
  | nil => exact fun map member => Or.inr member
  | cons first rest ih =>
      intro map member
      rcases ih _ member with found | found
      · exact Or.inl (List.mem_cons_of_mem first found)
      · rcases mem_insertEntry found with rfl | found
        · exact Or.inl List.mem_cons_self
        · exact Or.inr found

theorem insertEntry_of_lt {key : String} {value : α} {entries : List (String × α)}
    (last : ∀ entry ∈ entries, entry.1 < key) :
    insertEntry key value entries = entries ++ [(key, value)] := by
  induction entries with
  | nil => rfl
  | cons entry rest ih =>
      have less := last entry List.mem_cons_self
      have notLess : ¬key < entry.1 := fun greater => String.lt_asymm less greater
      have notEqual : key ≠ entry.1 := fun equal => String.lt_irrefl _ (equal ▸ less)
      rw [insertEntry, if_neg notLess, if_neg notEqual,
        ih fun other member => last other (List.mem_cons_of_mem entry member)]
      rfl

theorem foldl_insert_entries (entries done : List (String × α))
    (sorted : ((done ++ entries).map Prod.fst).Pairwise (· < ·)) (map : SortedMap α)
    (start : map.entries = done) :
    (entries.foldl (fun map entry => map.insert entry.1 entry.2) map).entries =
      done ++ entries := by
  induction entries generalizing done map with
  | nil => simpa using start
  | cons entry rest ih =>
      have before : ∀ other ∈ done, other.1 < entry.1 := by
        intro other member
        simp only [List.map_append, List.map_cons, List.pairwise_append] at sorted
        exact sorted.2.2 other.1 (List.mem_map_of_mem member) entry.1 List.mem_cons_self
      have inserted : (map.insert entry.1 entry.2).entries = done ++ [entry] := by
        simp only [insert, start]
        exact insertEntry_of_lt before
      simpa using ih (done ++ [entry]) (by simpa using sorted) _ inserted

/-- Entries in strictly increasing order are those of the map of them. -/
theorem entries_ofList {entries : List (String × α)}
    (sorted : (entries.map Prod.fst).Pairwise (· < ·)) : (ofList entries).entries = entries := by
  exact foldl_insert_entries entries [] (by simpa using sorted) empty rfl

theorem ofList_entries (map : SortedMap α) : ofList map.entries = map :=
  ext_entries (entries_ofList map.keys_sorted)

theorem insertEntry_map (change : α → β) (key : String) (value : α)
    (entries : List (String × α)) :
    insertEntry key (change value) (entries.map fun entry => (entry.1, change entry.2)) =
      (insertEntry key value entries).map fun entry => (entry.1, change entry.2) := by
  induction entries with
  | nil => rfl
  | cons entry rest ih =>
      simp only [List.map_cons, insertEntry, ih]
      split
      · rfl
      · split <;> rfl

theorem entries_ofList_map (change : α → β) (entries : List (String × α)) :
    (ofList (entries.map fun entry => (entry.1, change entry.2))).entries =
      (ofList entries).entries.map fun entry => (entry.1, change entry.2) := by
  suffices general : ∀ (left : SortedMap β) (right : SortedMap α),
      left.entries = right.entries.map (fun entry => (entry.1, change entry.2)) →
      ((entries.map fun entry => (entry.1, change entry.2)).foldl
        (fun map entry => map.insert entry.1 entry.2) left).entries =
      (entries.foldl (fun map entry => map.insert entry.1 entry.2) right).entries.map
        fun entry => (entry.1, change entry.2) from general empty empty rfl
  induction entries with
  | nil => exact fun _ _ same => same
  | cons entry rest ih =>
      intro left right same
      refine ih _ _ ?_
      simp only [insert, same, insertEntry_map]

/-- Of entries with different keys, the map of them holds each. -/
theorem get?_ofList {entries : List (String × α)} (distinct : (entries.map Prod.fst).Nodup)
    (key : String) : (ofList entries).get? key = entries.lookup key := by
  suffices general : ∀ map : SortedMap α,
      (entries.foldl (fun map entry => map.insert entry.1 entry.2) map).get? key =
        (entries.lookup key).or (map.get? key) by
    rw [ofList, general, get?_empty, Option.or_none]
  induction entries with
  | nil => simp
  | cons entry rest ih =>
      intro map
      simp only [List.map_cons, List.nodup_cons] at distinct
      have absent : rest.lookup entry.1 = none := by
        refine List.lookup_eq_none_iff.2 fun other member => ?_
        have differs : entry.1 ≠ other.1 :=
          fun same => distinct.1 (List.mem_map.2 ⟨other, member, same.symm⟩)
        simpa using differs
      rw [List.foldl_cons, ih distinct.2, get?_insert, lookup_cons_eq]
      by_cases same : key = entry.1
      · simp [same, absent]
      · simp [same]

theorem mem_iff_lookup {entries : List (String × α)} (distinct : (entries.map Prod.fst).Nodup)
    (key : String) (value : α) : (key, value) ∈ entries ↔ entries.lookup key = some value := by
  induction entries with
  | nil => simp
  | cons entry rest ih =>
      obtain ⟨first, distinctRest⟩ := List.nodup_cons.1 distinct
      rw [lookup_cons_eq, List.mem_cons, ih distinctRest]
      by_cases same : key = entry.1
      · have absent : rest.lookup key ≠ some value := fun found =>
          first (List.mem_map.2 ⟨(key, value), (ih distinctRest).2 found, same⟩)
        rw [if_pos same]
        constructor
        · rintro (rfl | found)
          · rfl
          · exact absurd found absent
        · intro equal
          exact Or.inl (Prod.ext same (Option.some.inj equal).symm)
      · rw [if_neg same]
        constructor
        · rintro (rfl | found)
          · exact absurd rfl same
          · exact found
        · exact Or.inr

theorem mem_entries_iff (map : SortedMap α) (key : String) (value : α) :
    (key, value) ∈ map.entries ↔ map.get? key = some value :=
  mem_iff_lookup map.keys_nodup key value

/-- Maps with the same values under all keys are equal. -/
theorem ext_get? {left right : SortedMap α} (same : ∀ key, left.get? key = right.get? key) :
    left = right := by
  have members : ∀ entry, entry ∈ left.entries ↔ entry ∈ right.entries := by
    rintro ⟨key, value⟩
    rw [mem_entries_iff, mem_entries_iff, same]
  refine ext_entries ?_
  have increasing : ∀ map : SortedMap α,
      map.entries.Pairwise fun first second => first.1 < second.1 :=
    fun map => List.pairwise_map.1 map.keys_sorted
  have distinct : ∀ map : SortedMap α, map.entries.Nodup := by
    intro map
    refine (increasing map).imp fun {first second} less equal => ?_
    rw [equal] at less
    exact String.lt_irrefl _ less
  have permuted := (List.perm_ext_iff_of_nodup (distinct left) (distinct right)).2 members
  refine permuted.eq_of_pairwise (fun first second _ _ less more => ?_) (increasing left)
    (increasing right)
  exact absurd more (String.lt_asymm less)

@[simp]
theorem insert_insert (map : SortedMap α) (key : String) (value other : α) :
    (map.insert key value).insert key other = map.insert key other := by
  refine ext_get? fun key => ?_
  simp only [get?_insert]
  split <;> rfl

theorem insert_of_get? {map : SortedMap α} {key : String} {value : α}
    (found : map.get? key = some value) : map.insert key value = map := by
  refine ext_get? fun other => ?_
  rw [get?_insert]
  split
  · next same => rw [same, found]
  · rfl

theorem get?_mapValues (change : String → α → β) (map : SortedMap α) (key : String) :
    (map.mapValues change).get? key = (map.get? key).map (change key) := by
  obtain ⟨entries, sorted⟩ := map
  simp only [get?, mapValues]
  induction entries with
  | nil => rfl
  | cons entry rest ih =>
      rw [List.map_cons, lookup_cons_eq, lookup_cons_eq, ih (List.pairwise_cons.1 sorted).2]
      split
      · next same => rw [same, Option.map_some]
      · rfl

end SortedMap

end GraphStore
