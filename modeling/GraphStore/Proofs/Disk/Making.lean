import GraphStore.Disk.Stages
import GraphStore.Proofs.Disk.Renames
import GraphStore.Proofs.Disk.Updates

/-!
# Making directories

While the missing directories of a path are made one after the other, nothing else on the disk
changes, and what was made stays.
-/

namespace GraphStore

/-! ## Looking at places -/

namespace Tree

variable {tree middle after entry : Tree} {path : Path} {place target : List String}
  {name : String} {steps : List Step} {step : Step}

/-- What stands at a place, if anything: a file with its content, or a directory. -/
def look (tree : Tree) (place : List String) : Option (Option Content) :=
  match tree.find place with
  | .ok (file content) => some (some content)
  | .ok (directory _) => some none
  | .error _ => none

theorem look_eq_some_none : tree.look place = some none ↔ tree.HasDirectory place := by
  unfold look HasDirectory
  cases tree.find place with
  | error fault => simp
  | ok entry => cases entry <;> simp

theorem look_append_of_ok (found : tree.find place = .ok entry) (rest : List String) :
    tree.look (place ++ rest) = entry.look rest := by
  rw [look, find_append_of_ok found, look]

/-- Nothing stands below what is no directory. -/
theorem look_below (free : ¬tree.HasDirectory place) {rest : List String} (below : rest ≠ []) :
    tree.look (place ++ rest) = none := by
  obtain ⟨name, more, rfl⟩ := List.exists_cons_of_ne_nil below
  rw [look, find_append]
  cases found : tree.find place with
  | error fault => rfl
  | ok entry =>
      cases entry with
      | file content => rfl
      | directory entries => exact absurd ⟨entries, found⟩ free

theorem look_update_of_apart (apart : ¬target <+: place) (entry : Option Tree) :
    (tree.update target entry).look place = tree.look place := by
  by_cases stands : tree.HasDirectory place
  · rw [look_eq_some_none.2 stands, look_eq_some_none.2 (stands.update apart entry)]
  · rw [look, find_update_of_apart apart stands, look]

/-- A file or an empty directory that is put where no directory stands is all that changes. -/
theorem HasDirectory.look_update (stands : tree.HasDirectory place) (short : fits name)
    (free : ¬tree.HasDirectory (place ++ [name])) (bare : entry.entries = [])
    (other : List String) :
    (tree.update (place ++ [name]) (some entry)).look other =
      if other = place ++ [name] then entry.look [] else tree.look other := by
  by_cases below : place ++ [name] <+: other
  · obtain ⟨rest, rfl⟩ := below
    rw [look_append_of_ok (stands.find_update_self short entry)]
    cases rest with
    | nil => rw [List.append_nil, if_pos rfl]
    | cons next more =>
        have longer : place ++ [name] ++ next :: more ≠ place ++ [name] := by simp
        rw [if_neg longer, look_below free (List.cons_ne_nil next more), look]
        cases entry with
        | file content => rfl
        | directory entries =>
            obtain rfl : entries = [] := bare
            cases shortNext : fits next <;> simp [find, shortNext]
  · have apart : other ≠ place ++ [name] := fun same => below (same ▸ List.prefix_rfl)
    rw [if_neg apart, look_update_of_apart below]

theorem not_hasDirectory_of_missing (missing : tree.find place = .error .missing) :
    ¬tree.HasDirectory place := by
  rintro ⟨entries, found⟩
  rw [missing] at found
  cases found

/-! ## Making directories -/

/-- Whether one tree comes from another by making directories to which some of the steps lead. -/
def GrowsAlong (before after : Tree) (place : List String) (steps : List Step) : Prop :=
  ∀ other, after.look other = before.look other ∨
    before.look other = none ∧ after.look other = some none ∧
      ∃ passed, passed <+: steps ∧ Path.placeOf place passed = other

theorem GrowsAlong.refl (tree : Tree) (place : List String) (steps : List Step) :
    tree.GrowsAlong tree place steps :=
  fun _ => .inl rfl

/-- A first step that makes at most the directory to which it leads. -/
theorem GrowsAlong.cons (grows : middle.GrowsAlong after (step.follow place) steps)
    (first : ∀ other, middle.look other = tree.look other ∨
      tree.look other = none ∧ middle.look other = some none ∧ other = step.follow place) :
    tree.GrowsAlong after place (step :: steps) := by
  intro other
  rcases grows other with same | ⟨free, stands, passed, isPrefix, leads⟩
  · rcases first other with sameFirst | ⟨free, made, rfl⟩
    · exact .inl (same.trans sameFirst)
    · exact .inr ⟨free, same.trans made, [step], by simp, rfl⟩
  · rcases first other with sameFirst | ⟨-, made, -⟩
    · exact .inr ⟨sameFirst ▸ free, stands, step :: passed, List.cons_prefix_cons.2 ⟨rfl, isPrefix⟩,
        leads⟩
    · rw [free] at made
      cases made

theorem GrowsAlong.keepsDirectories (grows : tree.GrowsAlong after place steps) :
    tree.KeepsDirectories after := by
  intro other stands
  rw [← look_eq_some_none] at stands ⊢
  rcases grows other with same | ⟨free, -⟩
  · exact same.trans stands
  · rw [free] at stands
    cases stands

/-- What changes where a missing directory is made one step away. -/
theorem HasDirectory.look_made (stands : tree.HasDirectory place)
    (missing : tree.find (step.follow place) = .error .missing) (other : List String) :
    (tree.update (step.follow place) (some emptyDirectory)).look other =
      if other = step.follow place then some none else tree.look other := by
  have free : ¬tree.HasDirectory (step.follow place) := not_hasDirectory_of_missing missing
  cases step with
  | stay => exact absurd stands free
  | up =>
      obtain ⟨last, whole⟩ := List.dropLast_prefix place
      exact absurd (HasDirectory.of_append (whole.symm ▸ stands)) free
  | down name => exact stands.look_update (stands.fits_of_missing missing) free rfl other

/-- While directories are made along steps, nothing else changes. -/
theorem growsAlong_of_mem_makings (stands : tree.HasDirectory place)
    (member : after ∈ tree.makings place steps) : tree.GrowsAlong after place steps := by
  induction steps generalizing tree place with
  | nil => cases member
  | cons step rest ih =>
      simp only [makings] at member
      split at member
      · next entries found => exact (ih ⟨entries, found⟩ member).cons fun _ => .inl rfl
      · next missing =>
          have first : ∀ other,
              (tree.update (step.follow place) (some emptyDirectory)).look other = tree.look other ∨
              tree.look other = none ∧
                (tree.update (step.follow place) (some emptyDirectory)).look other = some none ∧
                other = step.follow place := by
            intro other
            rw [stands.look_made missing]
            by_cases here : other = step.follow place
            · exact .inr ⟨by rw [here, look, missing], if_pos here, here⟩
            · exact .inl (if_neg here)
          split at member
          · cases member
          · rcases List.mem_cons.1 member with rfl | later
            · exact (GrowsAlong.refl _ _ _).cons first
            · exact (ih (stands.made missing).2 later).cons first
      · cases member

/-- The last tree is the one with all directories that could be made. -/
theorem getLastD_makings (tree : Tree) (place : List String) (steps : List Step) :
    (tree.makings place steps).getLastD tree = (tree.makeAlong place steps).2 := by
  induction steps generalizing tree place with
  | nil => rfl
  | cons step rest ih =>
      rw [makings, makeAlong]
      rcases found : tree.find (step.follow place) with (_ | _) | (_ | entries)
      · simp only
        split
        · rfl
        · rw [List.getLastD_cons, ih]
      · rfl
      · rfl
      · exact ih _ _

theorem mem_makeAlong (tree : Tree) (place : List String) (steps : List Step) :
    (tree.makeAlong place steps).2 ∈ tree :: tree.makings place steps :=
  getLastD_makings tree place steps ▸ List.getLastD_mem_cons

/-- A directory that was made is still there when all are made. -/
theorem keepsDirectories_of_mem_makings (stands : tree.HasDirectory place)
    (member : after ∈ tree.makings place steps) :
    after.KeepsDirectories (tree.makeAlong place steps).2 := by
  induction steps generalizing tree place with
  | nil => cases member
  | cons step rest ih =>
      rw [makings] at member
      rw [makeAlong]
      rcases found : tree.find (step.follow place) with (_ | _) | (_ | entries)
      · simp only [found] at member ⊢
        split at member
        · cases member
        · next goesOn =>
            rw [if_neg goesOn]
            have standsThere := (stands.made found).2
            rcases List.mem_cons.1 member with rfl | later
            · rcases List.mem_cons.1 (mem_makeAlong _ (step.follow place) rest) with same | among
              · rw [same]
                exact .refl _
              · exact (growsAlong_of_mem_makings standsThere among).keepsDirectories
            · exact ih standsThere later
      · simp [found] at member
      · simp [found] at member
      · simp only [found] at member ⊢
        exact ih ⟨entries, found⟩ member

theorem getLastD_makingsAt (tree : Tree) (path : Path) :
    (tree.makingsAt path).getLastD tree = (tree.makeDirectoriesAt path).2 := by
  rw [makingsAt, makeDirectoriesAt]
  split
  · exact getLastD_makings tree [] path.steps
  · rfl

theorem makingsAt_file (content : Content) (path : Path) : (file content).makingsAt path = [] := by
  rw [makingsAt]
  split
  · cases path.steps with
    | nil => rfl
    | cons step rest => cases step <;> rfl
  · rfl

/-- All trees through which a disk passes while directories are made for a path. -/
theorem growsAlong_of_mem_makingsAt (member : after ∈ tree :: tree.makingsAt path) :
    tree.GrowsAlong after [] path.steps ∧
      after.KeepsDirectories (tree.makeDirectoriesAt path).2 := by
  cases tree with
  | directory entries =>
      have root : (directory entries).HasDirectory [] := ⟨entries, find_nil _⟩
      have grows : ∀ {between}, between ∈ (directory entries).makings [] path.steps →
          (directory entries).GrowsAlong between [] path.steps := growsAlong_of_mem_makings root
      rw [makingsAt] at member
      rw [makeDirectoriesAt]
      split at member
      · next usable =>
          rw [if_pos usable]
          rcases List.mem_cons.1 member with rfl | member
          · refine ⟨.refl _ _ _, ?_⟩
            rcases List.mem_cons.1 (mem_makeAlong (directory entries) [] path.steps) with same | among
            · rw [same]
              exact .refl _
            · exact (grows among).keepsDirectories
          · exact ⟨grows member, keepsDirectories_of_mem_makings root member⟩
      · next unusable =>
          rw [if_neg unusable]
          obtain rfl := List.mem_singleton.1 member
          exact ⟨.refl _ _ _, .refl _⟩
  | file content =>
      have last := getLastD_makingsAt (file content) path
      rw [makingsAt_file] at member last
      obtain rfl := List.mem_singleton.1 member
      rw [← last]
      exact ⟨.refl _ _ _, .refl _⟩

theorem mem_makeDirectoriesAt (tree : Tree) (path : Path) :
    (tree.makeDirectoriesAt path).2 ∈ tree :: tree.makingsAt path :=
  getLastD_makingsAt tree path ▸ List.getLastD_mem_cons

end Tree
end GraphStore
