import GraphStore.Proofs.Disk.Entries

/-!
# Changes one after the other

Of two changes at one place only the second one counts, and changes below an entry that was just put
somewhere are changes of this entry.  In a tree whose names are in order, what was put where nothing
stood can be taken away again.
-/

namespace GraphStore

/-! ## Entries -/

namespace SortedMap

variable {α : Type}

theorem insertEntry_insertEntry (key : String) (value other : α) (entries : List (String × α)) :
    insertEntry key other (insertEntry key value entries) = insertEntry key other entries := by
  induction entries with
  | nil => simp [insertEntry]
  | cons entry rest ih =>
      by_cases less : key < entry.1
      · simp [insertEntry, less]
      · by_cases equal : key = entry.1
        · simp [insertEntry, equal]
        · simp [insertEntry, less, equal, ih]

theorem filter_insertEntry (key : String) (value : α) (entries : List (String × α)) :
    (insertEntry key value entries).filter (fun entry => entry.1 != key) =
      entries.filter fun entry => entry.1 != key := by
  induction entries with
  | nil => simp [insertEntry]
  | cons entry rest ih =>
      by_cases less : key < entry.1
      · simp [insertEntry, less]
      · by_cases equal : key = entry.1
        · simp [insertEntry, equal]
        · simp [insertEntry, less, equal, ih, List.filter_cons]

theorem insert_comm (map : SortedMap α) {key other : String} (differs : key ≠ other)
    (value value' : α) :
    (map.insert key value).insert other value' = (map.insert other value').insert key value := by
  refine ext_get? fun looked => ?_
  simp only [get?_insert]
  split
  · next same => rw [if_neg fun equal => differs (equal.symm.trans same)]
  · rfl

theorem insertEntry_of_lookup {key : String} {value : α} {entries : List (String × α)}
    (sorted : (entries.map Prod.fst).Pairwise (· < ·)) (found : entries.lookup key = some value) :
    insertEntry key value entries = entries :=
  congrArg SortedMap.entries (@insert_of_get? α ⟨entries, sorted⟩ key value found)

end SortedMap

namespace Tree

variable {tree entry : Tree} {place target : List String} {name : String}

/-! ## Places that do not matter -/

/-- What is found at a place does not depend on changes at places that are not at or above it, unless
it is a directory. -/
theorem find_update_of_apart (apart : ¬target <+: place) (free : ¬tree.HasDirectory place)
    (entry : Option Tree) : (tree.update target entry).find place = tree.find place := by
  induction place generalizing tree target with
  | nil =>
      cases tree with
      | file content => rw [update]
      | directory entries => exact absurd ⟨entries, find_nil _⟩ free
  | cons name rest ih =>
      cases tree with
      | file content => rw [update]
      | directory entries =>
          cases target with
          | nil => exact absurd List.nil_prefix apart
          | cons first more =>
              by_cases same : name = first
              · subst same
                cases more with
                | nil => exact absurd (List.cons_prefix_cons.2 ⟨rfl, List.nil_prefix⟩) apart
                | cons next more =>
                    have below : ¬next :: more <+: rest := fun isPrefix =>
                      apart (List.cons_prefix_cons.2 ⟨rfl, isPrefix⟩)
                    rw [update]
                    split
                    · rfl
                    · next child looked =>
                        cases short : fits name with
                        | false => simp [find, short]
                        | true =>
                            have freeBelow : ¬child.HasDirectory rest := by
                              rintro ⟨others, found⟩
                              exact free ⟨others, by rw [find, if_pos short, looked]; exact found⟩
                            simp only [find, SortedMap.lookup_insertEntry, if_true, looked,
                              ih below freeBelow]
              · rw [find_update_of_ne entries same]

theorem HasDirectory.read_eq (stands : tree.HasDirectory place) :
    tree.read place = .error .obstructed := by
  obtain ⟨entries, found⟩ := stands
  rw [read, found]

/-- What is read at a place does not depend on changes at places that are not at or above it. -/
theorem read_update_of_apart (apart : ¬target <+: place) (entry : Option Tree) :
    (tree.update target entry).read place = tree.read place := by
  by_cases stands : tree.HasDirectory place
  · rw [stands.read_eq, (stands.update apart entry).read_eq]
  · rw [read, find_update_of_apart apart stands, read]

/-! ## Two changes -/

/-- Of two changes at one place the second one counts. -/
theorem update_update_same (tree : Tree) (place : List String) (first : Tree)
    (second : Option Tree) :
    (tree.update place (some first)).update place second = tree.update place second := by
  induction place generalizing tree with
  | nil => cases tree <;> rfl
  | cons name rest ih =>
      cases tree with
      | file content => rfl
      | directory entries =>
          cases rest with
          | nil =>
              simp only [update, setEntry]
              cases second with
              | none => exact congrArg directory (SortedMap.filter_insertEntry name first entries)
              | some other =>
                  exact congrArg directory
                    (SortedMap.insertEntry_insertEntry name first other entries)
          | cons next rest =>
              simp only [update]
              cases looked : entries.lookup name with
              | none => simp only [update, looked]
              | some child =>
                  simp only [update, SortedMap.lookup_insertEntry, if_true, ih,
                    SortedMap.insertEntry_insertEntry]

/-- A change below an entry that was just put at a place is a change of this entry. -/
theorem update_update_below (tree : Tree) (place : List String) (name : String) (entry : Tree)
    {rest : List String} (below : rest ≠ []) (change : Option Tree) :
    (tree.update (place ++ [name]) (some entry)).update (place ++ [name] ++ rest) change =
      tree.update (place ++ [name]) (some (entry.update rest change)) := by
  induction place generalizing tree with
  | nil =>
      cases tree with
      | file content => cases rest <;> rfl
      | directory entries =>
          obtain ⟨next, more, rfl⟩ := List.exists_cons_of_ne_nil below
          simp only [List.nil_append, List.singleton_append, update, setEntry,
            SortedMap.lookup_insertEntry, if_true, SortedMap.insertEntry_insertEntry]
  | cons first above ih =>
      cases tree with
      | file content => cases rest <;> rfl
      | directory entries =>
          obtain ⟨next, more, same⟩ := concat_eq_cons above name
          simp only [List.cons_append, same, update] at ih ⊢
          cases looked : entries.lookup first with
          | none => simp only [update, looked]
          | some child =>
              simp only [update, SortedMap.lookup_insertEntry, if_true, ih,
                SortedMap.insertEntry_insertEntry]

/-! ## Trees in order -/

/-- Whether the names in every directory of a tree are in order. -/
def IsOrdered (tree : Tree) : Prop :=
  ∀ place entries, tree.find place = .ok (directory entries) →
    (entries.map Prod.fst).Pairwise (· < ·)

theorem IsOrdered.find (ordered : tree.IsOrdered) (found : tree.find place = .ok entry) :
    entry.IsOrdered :=
  fun below entries there => ordered (place ++ below) entries
    ((find_append_of_ok found below).trans there)

theorem isOrdered_file (content : Content) : (file content).IsOrdered := by
  intro place entries found
  cases place <;> cases found

theorem isOrdered_directory {entries : List (String × Tree)} :
    (directory entries).IsOrdered ↔ (entries.map Prod.fst).Pairwise (· < ·) ∧
      ∀ name child, fits name → entries.lookup name = some child → child.IsOrdered := by
  constructor
  · intro ordered
    refine ⟨ordered [] entries rfl, fun name child short looked => ?_⟩
    refine @IsOrdered.find _ child [name] ordered ?_
    rw [find_singleton, if_pos short, looked]
  · rintro ⟨sorted, children⟩ place others found
    cases place with
    | nil =>
        cases found
        exact sorted
    | cons name rest =>
        simp only [Tree.find] at found
        split at found
        · next short =>
            split at found
            · cases found
            · next child looked => exact children name child short looked rest others found
        · cases found

theorem isOrdered_emptyDirectory : emptyDirectory.IsOrdered :=
  isOrdered_directory.2 ⟨List.Pairwise.nil, fun _ _ _ looked => by cases looked⟩

theorem IsOrdered.insertEntry {entries : List (String × Tree)}
    (ordered : (directory entries).IsOrdered) (name : String)
    (orderedEntry : fits name → entry.IsOrdered) :
    (directory (SortedMap.insertEntry name entry entries)).IsOrdered := by
  obtain ⟨sorted, children⟩ := isOrdered_directory.1 ordered
  refine isOrdered_directory.2
    ⟨SortedMap.keys_sorted_insertEntry name entry entries sorted, fun other child short looked => ?_⟩
  rw [SortedMap.lookup_insertEntry] at looked
  split at looked
  · next same =>
      subst same
      exact Option.some.inj looked ▸ orderedEntry short
  · exact children other child short looked

theorem IsOrdered.update (ordered : tree.IsOrdered) (place : List String)
    (orderedEntry : entry.IsOrdered) : (tree.update place (some entry)).IsOrdered := by
  induction place generalizing tree with
  | nil => cases tree <;> exact ordered
  | cons name rest ih =>
      cases tree with
      | file content => exact ordered
      | directory entries =>
          cases rest with
          | nil => exact ordered.insertEntry name fun _ => orderedEntry
          | cons next rest =>
              simp only [Tree.update]
              cases looked : entries.lookup name with
              | none => exact ordered
              | some child =>
                  exact ordered.insertEntry name fun short =>
                    ih ((isOrdered_directory.1 ordered).2 name child short looked)

/-- Entries that are put under two names of a directory may be put in either order. -/
theorem IsOrdered.update_comm (ordered : tree.IsOrdered) (stands : tree.HasDirectory place)
    {first second : String} (differs : first ≠ second) (left right : Tree) :
    (tree.update (place ++ [first]) (some left)).update (place ++ [second]) (some right) =
      (tree.update (place ++ [second]) (some right)).update (place ++ [first]) (some left) := by
  induction place generalizing tree with
  | nil =>
      cases tree with
      | file content => rfl
      | directory entries =>
          have sorted := (isOrdered_directory.1 ordered).1
          have swap := SortedMap.insert_comm ⟨entries, sorted⟩ differs left right
          exact congrArg (fun map => directory map.entries) swap
  | cons name above ih =>
      cases tree with
      | file content => rfl
      | directory entries =>
          obtain ⟨next, more, same⟩ := concat_eq_cons above first
          obtain ⟨next', more', same'⟩ := concat_eq_cons above second
          obtain ⟨others, found⟩ := stands
          simp only [Tree.find] at found
          split at found
          · next short =>
              split at found
              · cases found
              · next child looked =>
                  have swap := ih ((isOrdered_directory.1 ordered).2 name child short looked)
                    ⟨others, found⟩
                  simp only [List.cons_append, same, same', Tree.update, looked,
                    SortedMap.lookup_insertEntry, if_true,
                    SortedMap.insertEntry_insertEntry] at swap ⊢
                  rw [swap]
          · cases found

/-- Directories are made in order. -/
theorem IsOrdered.makeAlong (ordered : tree.IsOrdered) (place : List String) (steps : List Step) :
    (tree.makeAlong place steps).2.IsOrdered := by
  induction steps generalizing tree place with
  | nil => exact ordered
  | cons step rest ih =>
      rw [Tree.makeAlong]
      split
      · exact ih ordered _
      · split
        · exact ordered
        · exact ih (ordered.update _ isOrdered_emptyDirectory) _
      · exact ordered

theorem IsOrdered.makeDirectoriesAt (ordered : tree.IsOrdered) (path : Path) :
    (tree.makeDirectoriesAt path).2.IsOrdered := by
  rw [Tree.makeDirectoriesAt]
  split
  · exact ordered.makeAlong [] path.steps
  · exact ordered

/-- What was never there need not be taken away. -/
theorem IsOrdered.update_none_of_missing (ordered : tree.IsOrdered)
    (missing : tree.find place = .error .missing) : tree.update place none = tree := by
  induction place generalizing tree with
  | nil =>
      rw [find_nil] at missing
      cases missing
  | cons name rest ih =>
      cases tree with
      | file content => rfl
      | directory entries =>
          simp only [Tree.find] at missing
          split at missing
          · next short =>
              cases looked : entries.lookup name with
              | none =>
                  cases rest with
                  | nil =>
                      simp only [Tree.update, setEntry]
                      refine congrArg directory (List.filter_eq_self.2 fun other member => ?_)
                      exact bne_iff_ne.2 fun same => by
                        simpa [same] using List.lookup_eq_none_iff.1 looked other member
                  | cons next rest => simp only [Tree.update, looked]
              | some child =>
                  rw [looked] at missing
                  obtain ⟨sorted, children⟩ := isOrdered_directory.1 ordered
                  cases rest with
                  | nil =>
                      simp only [find_nil] at missing
                      cases missing
                  | cons next rest =>
                      simp only [Tree.update, looked, ih (children name child short looked) missing,
                        SortedMap.insertEntry_of_lookup sorted looked]
          · cases missing

end Tree
end GraphStore
