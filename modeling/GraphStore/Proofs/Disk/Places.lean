import GraphStore.Disk.Location
import GraphStore.Proofs.Json.Sorted

/-!
# Places in changing trees

What a change at one place does to what is found at others.  A change below a directory is a change
of the tree that stands there, and a directory stays one unless a change is made at it or above it.
-/

namespace GraphStore
namespace Tree

/-! ## Finding -/

@[simp]
theorem find_nil (tree : Tree) : tree.find [] = .ok tree := by
  cases tree <;> rfl

theorem find_append (tree : Tree) (place rest : List String) :
    tree.find (place ++ rest) =
      match tree.find place with
      | .ok entry => entry.find rest
      | .error fault => .error fault := by
  induction place generalizing tree with
  | nil => simp
  | cons name place ih =>
      cases tree with
      | file content => rfl
      | directory entries =>
          simp only [List.cons_append, find]
          split
          · split
            · rfl
            · exact ih _
          · rfl

theorem find_append_of_ok {tree entry : Tree} {place : List String}
    (found : tree.find place = .ok entry) (rest : List String) :
    tree.find (place ++ rest) = entry.find rest := by
  rw [find_append, found]

/-- Whether a directory stands at a place. -/
def HasDirectory (tree : Tree) (place : List String) : Prop :=
  ∃ entries, tree.find place = .ok (directory entries)

theorem HasDirectory.of_append {tree : Tree} {place rest : List String}
    (stands : tree.HasDirectory (place ++ rest)) : tree.HasDirectory place := by
  obtain ⟨entries, found⟩ := stands
  rw [find_append] at found
  cases above : tree.find place with
  | error fault =>
      rw [above] at found
      cases found
  | ok entry =>
      rw [above] at found
      cases entry with
      | directory others => exact ⟨others, above⟩
      | file content =>
          cases rest with
          | nil => simp at found
          | cons name rest => cases found

theorem kind?_eq_some_directory {tree : Tree} {place : List String} :
    tree.kind? place = some .directory ↔ tree.HasDirectory place := by
  unfold kind? HasDirectory
  cases tree.find place with
  | error fault => simp
  | ok entry => cases entry <;> simp [kind]

theorem not_hasDirectory_of_kind? {tree : Tree} {place : List String}
    (free : tree.kind? place = none) : ¬tree.HasDirectory place := by
  intro stands
  rw [kind?_eq_some_directory.2 stands] at free
  cases free

/-! ## Changing one entry of a directory -/

theorem lookup_filter_ne (name other : String) (entries : List (String × Tree)) :
    (entries.filter fun entry => entry.1 != name).lookup other =
      if other = name then none else entries.lookup other := by
  induction entries with
  | nil => simp
  | cons entry rest ih =>
      by_cases removed : entry.1 = name
      · rw [List.filter_cons_of_neg (by simpa using removed), ih, SortedMap.lookup_cons_eq]
        by_cases same : other = name
        · simp [same]
        · simp [same, removed]
      · rw [List.filter_cons_of_pos (by simpa using removed), SortedMap.lookup_cons_eq,
          SortedMap.lookup_cons_eq, ih]
        by_cases first : other = entry.1
        · simp [first, removed]
        · simp [first]

theorem lookup_setEntry (name other : String) (entry : Option Tree)
    (entries : List (String × Tree)) :
    (setEntry name entry entries).lookup other =
      if other = name then entry else entries.lookup other := by
  cases entry with
  | none => exact lookup_filter_ne name other entries
  | some entry => exact SortedMap.lookup_insertEntry name other entry entries

theorem find_singleton (entries : List (String × Tree)) (name : String) :
    (directory entries).find [name] =
      if fits name then
        match entries.lookup name with
        | none => .error .missing
        | some entry => .ok entry
      else .error .obstructed := by
  rw [find]
  cases entries.lookup name with
  | none => rfl
  | some entry => simp only [find_nil]

theorem find_update_self {entries : List (String × Tree)} {name : String} (short : fits name)
    (entry : Tree) : ((directory entries).update [name] (some entry)).find [name] = .ok entry := by
  rw [update, find_singleton, if_pos short, lookup_setEntry, if_pos rfl]

theorem find_update_none {entries : List (String × Tree)} {name : String} (short : fits name) :
    ((directory entries).update [name] none).find [name] = .error .missing := by
  rw [update, find_singleton, if_pos short, lookup_setEntry, if_pos rfl]

/-- A change at or below one entry of a directory leaves the other entries alone. -/
theorem find_update_of_ne (entries : List (String × Tree)) {name other : String}
    (differs : other ≠ name) (rest more : List String) (entry : Option Tree) :
    ((directory entries).update (name :: rest) entry).find (other :: more) =
      (directory entries).find (other :: more) := by
  cases rest with
  | nil => rw [update, find, find, lookup_setEntry, if_neg differs]
  | cons next rest =>
      rw [update]
      split
      · rfl
      · rw [find, find, SortedMap.lookup_insertEntry, if_neg differs]

theorem update_directory (entries : List (String × Tree)) (place : List String)
    (entry : Option Tree) : ∃ others, (directory entries).update place entry = directory others := by
  match place with
  | [] => exact ⟨entries, rfl⟩
  | [name] => exact ⟨_, rfl⟩
  | name :: next :: rest =>
      rw [update]
      split <;> exact ⟨_, rfl⟩

/-! ## Changing what stands below a place -/

/-- A change below a place is a change of the tree at the place. -/
theorem find_update_append {tree entry : Tree} {place : List String}
    (found : tree.find place = .ok entry) {rest : List String} (below : rest ≠ [])
    (new : Option Tree) : (tree.update (place ++ rest) new).find place = .ok (entry.update rest new) := by
  induction place generalizing tree with
  | nil =>
      simp only [find_nil, Except.ok.injEq] at found
      simp [found]
  | cons name place ih =>
      cases tree with
      | file content => cases found
      | directory entries =>
          rw [find] at found
          split at found
          · next short =>
              split at found
              · cases found
              · next child looked =>
                  obtain ⟨next, others, more⟩ : ∃ next others, place ++ rest = next :: others := by
                    cases shape : place ++ rest with
                    | nil => exact absurd (List.append_eq_nil_iff.1 shape).2 below
                    | cons next others => exact ⟨next, others, rfl⟩
                  rw [List.cons_append, more, update, looked]
                  simp only
                  rw [find, if_pos short, SortedMap.lookup_insertEntry, if_pos rfl, ← more]
                  exact ih found
          · cases found

/-- A directory stays one unless a change is made at it or above it. -/
theorem HasDirectory.update {tree : Tree} {place other : List String}
    (stands : tree.HasDirectory other) (apart : ¬place <+: other) (entry : Option Tree) :
    (tree.update place entry).HasDirectory other := by
  induction other generalizing tree place with
  | nil =>
      obtain ⟨entries, found⟩ := stands
      simp only [find_nil, Except.ok.injEq] at found
      subst found
      obtain ⟨others, same⟩ := update_directory entries place entry
      exact ⟨others, by rw [same, find_nil]⟩
  | cons name other ih =>
      obtain ⟨entries, found⟩ := stands
      cases tree with
      | file content => cases found
      | directory all =>
          match place with
          | [] => exact absurd List.nil_prefix apart
          | first :: rest =>
              by_cases same : name = first
              · subst same
                have apartBelow : ¬rest <+: other :=
                  fun isPrefix => apart (List.cons_prefix_cons.2 ⟨rfl, isPrefix⟩)
                rw [find] at found
                split at found
                · next short =>
                    split at found
                    · cases found
                    · next child looked =>
                        obtain ⟨others, after⟩ := ih ⟨entries, found⟩ apartBelow
                        cases rest with
                        | nil => exact absurd List.nil_prefix apartBelow
                        | cons next rest =>
                            refine ⟨others, ?_⟩
                            rw [Tree.update, looked]
                            simp only
                            rw [find, if_pos short, SortedMap.lookup_insertEntry, if_pos rfl]
                            exact after
                · cases found
              · exact ⟨entries, by rw [find_update_of_ne all same, found]⟩

theorem HasDirectory.find_update_of_ne {tree : Tree} {place : List String}
    (stands : tree.HasDirectory place) {name other : String} (differs : other ≠ name)
    (rest more : List String) (entry : Option Tree) :
    (tree.update (place ++ name :: rest) entry).find (place ++ other :: more) =
      tree.find (place ++ other :: more) := by
  obtain ⟨entries, found⟩ := stands
  rw [find_append_of_ok (find_update_append found (List.cons_ne_nil name rest) entry),
    find_append_of_ok found, Tree.find_update_of_ne entries differs]

theorem HasDirectory.find_update_self {tree : Tree} {place : List String}
    (stands : tree.HasDirectory place) {name : String} (short : fits name) (entry : Tree) :
    (tree.update (place ++ [name]) (some entry)).find (place ++ [name]) = .ok entry := by
  obtain ⟨entries, found⟩ := stands
  rw [find_append_of_ok (find_update_append found (List.cons_ne_nil name []) (some entry)),
    Tree.find_update_self short]

theorem HasDirectory.find_update_none {tree : Tree} {place : List String}
    (stands : tree.HasDirectory place) {name : String} (short : fits name) :
    (tree.update (place ++ [name]) none).find (place ++ [name]) = .error .missing := by
  obtain ⟨entries, found⟩ := stands
  rw [find_append_of_ok (find_update_append found (List.cons_ne_nil name []) none),
    Tree.find_update_none short]

/-- Whether every directory of a tree is still a directory of another one. -/
def KeepsDirectories (before after : Tree) : Prop :=
  ∀ place, before.HasDirectory place → after.HasDirectory place

theorem KeepsDirectories.refl (tree : Tree) : tree.KeepsDirectories tree :=
  fun _ stands => stands

theorem KeepsDirectories.trans {first second third : Tree} (left : first.KeepsDirectories second)
    (right : second.KeepsDirectories third) : first.KeepsDirectories third :=
  fun place stands => right place (left place stands)

/-- Changes at or below a place where no directory stood keep the directories. -/
theorem KeepsDirectories.update {before after : Tree} (keeps : before.KeepsDirectories after)
    {place : List String} (free : ¬before.HasDirectory place) (rest : List String)
    (entry : Option Tree) : before.KeepsDirectories (after.update (place ++ rest) entry) := by
  intro other stands
  refine (keeps other stands).update ?_ entry
  intro isPrefix
  obtain ⟨more, rfl⟩ := (List.prefix_append place rest).trans isPrefix
  exact free stands.of_append

theorem keepsDirectories_update {tree : Tree} {place : List String}
    (free : ¬tree.HasDirectory place) (entry : Option Tree) :
    tree.KeepsDirectories (tree.update place entry) := by
  have keeps := (KeepsDirectories.refl tree).update free [] entry
  rwa [List.append_nil] at keeps

end Tree
end GraphStore
