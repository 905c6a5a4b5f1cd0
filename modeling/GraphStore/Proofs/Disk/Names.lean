import GraphStore.Proofs.Disk.Entries
import GraphStore.Proofs.Disk.Lengths

/-!
# Names in directories

The names in a directory stay in order when an entry is put into it, and a change further below
leaves them alone.  A directory that is missing can be made first and its entries then, or all with
one path.
-/

namespace GraphStore

/-- A file can be replaced where its directory has room and a file may stand. -/
theorem Path.Fits.canReplace {path : Path} {name : String}
    (fits : path.Fits (name.utf8ByteSize + Replacement.temporaryExtra + 1))
    (clean : '\x00' ∉ name.toList)
    (short : name.utf8ByteSize + Replacement.temporaryExtra ≤ Tree.nameLimit) {tree : Tree}
    {place : List String} (accepts : tree.acceptsFile (place ++ [name])) :
    tree.CanReplace path place name := by
  refine ⟨fits.trimmed.isUsable, ?_, Replacement.hasTemporary_of_fits clean short fits, accepts⟩
  refine Path.Fits.isUsable (Path.Fits.child ?_ clean : (path.child name).Fits 0)
  exact fits.mono (by omega)

namespace Tree

variable {tree : Tree} {path : Path} {place : List String} {name : String}

/-! ## Names in order -/

/-- Whether the names in the directory at a place are in order and are those with a property. -/
def Lists (tree : Tree) (place : List String) (property : String → Prop) : Prop :=
  ∃ names, tree.list place = .ok names ∧ names.Pairwise (· < ·) ∧
    ∀ name, name ∈ names ↔ property name

theorem Lists.congr {property other : String → Prop} (lists : tree.Lists place property)
    (same : ∀ name, property name ↔ other name) : tree.Lists place other := by
  obtain ⟨names, listed, sorted, members⟩ := lists
  exact ⟨names, listed, sorted, fun name => (members name).trans (same name)⟩

theorem Lists.hasDirectory {property : String → Prop} (lists : tree.Lists place property) :
    tree.HasDirectory place := by
  obtain ⟨names, listed, -⟩ := lists
  rw [list] at listed
  split at listed
  · next entries found => exact ⟨entries, found⟩
  · cases listed
  · cases listed

/-- An entry that is put at or below a name of a directory. -/
theorem Lists.update {property : String → Prop} (lists : tree.Lists place property)
    (rest : List String) (entry : Tree) :
    (tree.update (place ++ name :: rest) (some entry)).Lists place fun other =>
      property other ∨ rest = [] ∧ other = name := by
  obtain ⟨entries, found⟩ := lists.hasDirectory
  obtain ⟨names, listed, sorted, members⟩ := lists
  rw [list, found] at listed
  cases listed
  have below := find_update_append found (List.cons_ne_nil name rest) (some entry)
  unfold Lists
  rw [list, below]
  -- What stands under the name is replaced as a whole, or changed if it is there.
  have put : ∀ value, ((directory (SortedMap.insertEntry name value entries)).entries.map
      Prod.fst).Pairwise (· < ·) ∧ ∀ other, other ∈ (directory (SortedMap.insertEntry name value
      entries)).entries.map Prod.fst ↔ other = name ∨ property other := by
    intro value
    refine ⟨SortedMap.keys_sorted_insertEntry name value entries sorted, fun other => ?_⟩
    rw [← members]
    exact SortedMap.mem_keys_insertEntry name other value entries
  cases rest with
  | nil =>
      obtain ⟨ordered, membersAfter⟩ := put entry
      refine ⟨_, rfl, ordered, fun other => (membersAfter other).trans ?_⟩
      simp [or_comm]
  | cons next more =>
      simp only [Tree.update]
      cases looked : entries.lookup name with
      | none => exact ⟨_, rfl, sorted, fun other => (members other).trans (by simp)⟩
      | some child =>
          obtain ⟨ordered, membersAfter⟩ := put (child.update (next :: more) (some entry))
          refine ⟨_, rfl, ordered, fun other => (membersAfter other).trans ?_⟩
          have here : property name := by
            rw [← members]
            obtain ⟨before, after, rfl, -⟩ := List.lookup_eq_some_iff.1 looked
            simp
          constructor
          · rintro (rfl | there)
            · exact Or.inl here
            · exact Or.inl there
          · rintro (there | ⟨impossible, -⟩)
            · exact Or.inr there
            · cases impossible

/-! ## Directories that are missing -/

theorem isUsable_of_listAt {names : List String} (lists : tree.listAt path = .ok names) :
    path.isUsable ∧ path.text ≠ "" := by
  cases usable : path.isUsable with
  | false => simp [listAt, findAt, locate, usable] at lists
  | true =>
      refine ⟨rfl, fun blank => ?_⟩
      simp [listAt, findAt, locate, usable, blank] at lists

/-- Directories are made only below a directory. -/
theorem hasDirectory_of_makeDirectoriesAt {made : Tree} {names : List String}
    (makes : tree.makeDirectoriesAt path = (true, made)) (lists : made.listAt path = .ok names) :
    tree.HasDirectory [] := by
  cases tree with
  | directory entries => exact ⟨entries, find_nil _⟩
  | file content =>
      exfalso
      have steps : path.steps = [] := by
        unfold makeDirectoriesAt at makes
        split at makes
        · cases shape : path.steps with
          | nil => rfl
          | cons step rest =>
              rw [shape, makeAlong_file] at makes
              cases makes
        · cases makes
      have same : made = file content := by
        unfold makeDirectoriesAt at makes
        rw [steps] at makes
        split at makes
        · cases makes
          rfl
        · cases makes
      obtain ⟨place, ⟨follows, entries, found⟩, -⟩ := LeadsTo.of_listAt lists
      rw [steps] at follows
      cases follows
      rw [same, find_nil] at found
      cases found

/-- Nothing stands below a directory that is missing. -/
theorem kindAt?_child_of_missing (named : path.text ≠ "")
    (missing : tree.listAt path = .error .missing) (name : String) :
    tree.kindAt? (path.child name) = none := by
  have gone : tree.findAt path = .error .missing := by
    rw [listAt] at missing
    split at missing
    · cases missing
    · cases missing
    · next found =>
        cases missing
        exact found
  have stops : ∃ fault, tree.follow [] (path.child name).steps = .error fault := by
    simp only [Path.child, follow_append]
    cases follows : tree.follow [] path.steps with
    | error fault => exact ⟨fault, rfl⟩
    | ok place =>
        cases usable : path.isUsable with
        | false => simp [findAt, locate, usable] at gone
        | true =>
            have located : tree.locate path = .ok place := by simp [locate, usable, named, follows]
            rw [findAt, located] at gone
            simp only [follow]
            split
            · next found => simp [found] at gone
            · exact ⟨_, rfl⟩
            · exact ⟨_, rfl⟩
  obtain ⟨fault, stopped⟩ := stops
  obtain ⟨other, located⟩ := locate_of_follow_eq_error stopped
  rw [kindAt?, findAt, located]

/-- Making an entry of a directory makes the directory first, if it is missing. -/
theorem makeAlong_concat {steps : List Step} {made : Tree} (stands : tree.HasDirectory place)
    (makes : tree.makeAlong place steps = (true, made)) (name : String) :
    tree.makeAlong place (steps ++ [.down name]) = made.makeAlong place (steps ++ [.down name]) := by
  induction steps generalizing tree place with
  | nil =>
      cases makes
      rfl
  | cons step rest ih =>
      obtain ⟨keeps, -⟩ := makeAlong_eq_true stands makes
      have goes : ∀ {next : Tree}, next.HasDirectory (step.follow place) →
          next.makeAlong (step.follow place) rest = (true, made) →
          next.makeAlong (step.follow place) (rest ++ [.down name]) =
            made.makeAlong place (step :: rest ++ [.down name]) := by
        intro next standsNext makesRest
        obtain ⟨entries, found⟩ := (makeAlong_eq_true standsNext makesRest).1 _ standsNext
        rw [ih standsNext makesRest, List.cons_append, makeAlong]
        simp only [found]
      rw [makeAlong] at makes
      rw [List.cons_append, makeAlong]
      split at makes
      · next found => exact goes ⟨_, found⟩ makes
      · next missing =>
          split at makes
          · cases makes
          · rw [if_neg (by simp)]
            exact goes (stands.made missing).2 makes
      · cases makes

end Tree
end GraphStore
