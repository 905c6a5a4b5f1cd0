import GraphStore.Proofs.Disk.Directories

/-!
# Entries of directories

Making, moving and removing an entry of an existing directory by its path is a change at the place
of the entry.
-/

namespace GraphStore
namespace Tree

theorem namesEntry_child (path : Path) (name : String) : (path.child name).namesEntry := by
  simp [Path.namesEntry, Path.child, Step.isDown]

theorem concat_eq_cons (place : List String) (name : String) :
    ∃ first rest, place ++ [name] = first :: rest := by
  cases place with
  | nil => exact ⟨_, _, rfl⟩
  | cons first rest => exact ⟨_, _, rfl⟩

variable {tree : Tree} {path : Path} {place : List String} {name : String}

theorem HasDirectory.fits_of_missing (stands : tree.HasDirectory place)
    (missing : tree.find (place ++ [name]) = .error .missing) : fits name := by
  obtain ⟨entries, found⟩ := stands
  rw [find_append_of_ok found, find_singleton] at missing
  split at missing
  · next short => exact short
  · cases missing

theorem HasDirectory.fits_of_ok (stands : tree.HasDirectory place) {entry : Tree}
    (found : tree.find (place ++ [name]) = .ok entry) : fits name := by
  obtain ⟨entries, above⟩ := stands
  rw [find_append_of_ok above, find_singleton] at found
  split at found
  · next short => exact short
  · cases found

theorem HasDirectory.find_of_not_fits (stands : tree.HasDirectory place) (long : fits name = false) :
    tree.find (place ++ [name]) = .error .obstructed := by
  obtain ⟨entries, above⟩ := stands
  rw [find_append_of_ok above, find_singleton, if_neg (by simp [long])]

theorem HasDirectory.find_of_kind?_none (stands : tree.HasDirectory place) (short : fits name)
    (free : tree.kind? (place ++ [name]) = none) :
    tree.find (place ++ [name]) = .error .missing := by
  obtain ⟨entries, above⟩ := stands
  rw [kind?, find_append_of_ok above, find_singleton, if_pos short] at free
  rw [find_append_of_ok above, find_singleton, if_pos short]
  cases looked : entries.lookup name with
  | none => rfl
  | some entry =>
      rw [looked] at free
      cases free

theorem HasDirectory.read_ne_obstructed (stands : tree.HasDirectory place) (short : fits name)
    (regular : tree.kind? (place ++ [name]) ≠ some .directory) :
    tree.read (place ++ [name]) ≠ .error .obstructed := by
  obtain ⟨entries, above⟩ := stands
  rw [kind?] at regular
  rw [read]
  rw [find_append_of_ok above, find_singleton, if_pos short] at regular ⊢
  cases looked : entries.lookup name with
  | none => rintro ⟨⟩
  | some entry =>
      rw [looked] at regular
      cases entry with
      | file content => rintro ⟨⟩
      | directory others => exact absurd rfl regular

/-- A file can be put where a file stands or nothing. -/
theorem HasDirectory.acceptsFile_of_read (stands : tree.HasDirectory place)
    (regular : tree.read (place ++ [name]) ≠ .error .obstructed) :
    tree.acceptsFile (place ++ [name]) := by
  obtain ⟨entries, above⟩ := stands
  rw [read] at regular
  rw [acceptsFile_child above, ← find_append_of_ok above]
  cases found : tree.find (place ++ [name]) with
  | ok entry =>
      cases entry with
      | file content => rfl
      | directory others =>
          rw [found] at regular
          exact absurd rfl regular
  | error fault =>
      cases fault with
      | missing => rfl
      | obstructed =>
          rw [found] at regular
          exact absurd rfl regular

section

variable (leads : tree.LeadsTo path place)

include leads

theorem LeadsTo.makeDirectoriesAt_child (usable : (path.child name).isUsable)
    (missing : tree.find (place ++ [name]) = .error .missing) :
    tree.makeDirectoriesAt (path.child name) =
      (true, tree.update (place ++ [name]) (some emptyDirectory)) := by
  have steps : (path.child name).steps = path.steps ++ [.down name] := rfl
  rw [makeDirectoriesAt, if_pos usable, steps, makeAlong_append leads.1 leads.2, makeAlong]
  simp only [Step.follow, missing]
  rfl

variable (named : name ≠ "") (usable : (path.child name).isUsable)

include named usable

theorem LeadsTo.changeAt_child (change : List String → Bool × Tree) :
    tree.changeAt (path.child name) change = change (place ++ [name]) := by
  simp only [changeAt, leads.locate_child named, usable, if_true, namesEntry_child]

theorem LeadsTo.removeFileAt_child {content : Content}
    (found : tree.find (place ++ [name]) = .ok (.file content)) :
    tree.removeFileAt (path.child name) = (true, tree.update (place ++ [name]) none) := by
  have plain : (path.child name).endsInSlash = false := rfl
  simp only [removeFileAt, plain, leads.changeAt_child named usable, removeFile, found,
    Bool.false_eq_true, if_false]

theorem LeadsTo.removeDirectoryAt_child
    (found : tree.find (place ++ [name]) = .ok emptyDirectory) :
    tree.removeDirectoryAt (path.child name) = (true, tree.update (place ++ [name]) none) := by
  obtain ⟨first, rest, cons⟩ := concat_eq_cons place name
  rw [removeDirectoryAt, leads.changeAt_child named usable]
  unfold removeDirectory
  rw [found, emptyDirectory]
  simp only [cons]

theorem LeadsTo.listAt_child {entries : List (String × Tree)}
    (found : tree.find (place ++ [name]) = .ok (.directory entries)) :
    tree.listAt (path.child name) = .ok (entries.map Prod.fst) := by
  rw [listAt, leads.findAt_child named usable, found]

end

/-- Nothing stands at a path if nothing stands at its place. -/
theorem LeadsTo.kindAt?_child_of_none (leads : tree.LeadsTo path place) (named : name ≠ "")
    (free : tree.kind? (place ++ [name]) = none) : tree.kindAt? (path.child name) = none := by
  cases usable : (path.child name).isUsable with
  | true => rw [leads.kindAt?_child named usable, free]
  | false => simp [kindAt?, findAt, leads.locate_child named, usable]

/-- An entry that cannot be made is not made, and the tree stays as it is. -/
theorem LeadsTo.makeDirectoriesAt_child_of_obstructed (leads : tree.LeadsTo path place)
    (refused : (path.child name).isUsable → tree.find (place ++ [name]) = .error .obstructed) :
    tree.makeDirectoriesAt (path.child name) = (false, tree) := by
  have steps : (path.child name).steps = path.steps ++ [.down name] := rfl
  unfold makeDirectoriesAt
  split
  · next usable =>
      rw [steps, makeAlong_append leads.1 leads.2, makeAlong]
      simp only [Step.follow, refused usable]
  · rfl

theorem LeadsTo.listAt_child_of_obstructed (leads : tree.LeadsTo path place) (named : name ≠ "")
    (refused : (path.child name).isUsable → tree.find (place ++ [name]) = .error .obstructed) :
    tree.listAt (path.child name) = .error .obstructed := by
  cases usable : (path.child name).isUsable with
  | true => rw [listAt, leads.findAt_child named usable, refused usable]
  | false => simp [listAt, findAt, leads.locate_child named, usable]

/-- A directory is moved to a free name of the same directory. -/
theorem LeadsTo.renameAt_child (leads : tree.LeadsTo path place) {target : String}
    (named : name ≠ "") (namedTarget : target ≠ "") (usable : (path.child name).isUsable)
    (usableTarget : (path.child target).isUsable) {entries : List (String × Tree)}
    (found : tree.find (place ++ [name]) = .ok (.directory entries))
    (free : tree.find (place ++ [target]) = .error .missing) :
    tree.renameAt (path.child name) (path.child target) =
      (true, (tree.update (place ++ [name]) none).update (place ++ [target])
        (some (.directory entries))) := by
  have differs : place ++ [name] ≠ place ++ [target] := by
    intro same
    rw [same, free] at found
    cases found
  have apart : (place ++ [name]).isPrefixOf (place ++ [target]) = false := by
    rw [Bool.eq_false_iff, ne_eq, List.isPrefixOf_iff_prefix]
    intro isPrefix
    exact differs (isPrefix.eq_of_length (by simp))
  have accepted : tree.accepts (place ++ [target]) (.directory entries) := by
    have above := kind?_eq_some_directory.2 leads.2
    have nonempty : (place ++ [target] != []) = true := by
      cases place <;> rfl
    simp only [accepts, nonempty, List.dropLast_concat, above, free]
    rfl
  have may : mayRename (.ok (.directory entries)) (path.child name) (path.child target) := by
    simp [mayRename, namesEntry_child]
  simp only [renameAt, leads.locate_child named, leads.locate_child namedTarget, usable,
    usableTarget, if_true, found, may]
  unfold rename
  obtain ⟨first, rest, cons⟩ := concat_eq_cons place name
  rw [found]
  simp only [if_neg differs, apart]
  simp only [cons]
  rw [accepted]
  rfl

/-! ## Making directories -/

/-- A missing directory that is made one step away is a directory, and no other is lost. -/
theorem HasDirectory.made (stands : tree.HasDirectory place) {step : Step}
    (missing : tree.find (step.follow place) = .error .missing) :
    tree.KeepsDirectories (tree.update (step.follow place) (some emptyDirectory)) ∧
      (tree.update (step.follow place) (some emptyDirectory)).HasDirectory (step.follow place) := by
  have free : ¬tree.HasDirectory (step.follow place) := by
    rintro ⟨entries, found⟩
    rw [missing] at found
    cases found
  refine ⟨keepsDirectories_update free _, ?_⟩
  cases step with
  | stay => exact absurd stands free
  | up =>
      have above : tree.HasDirectory place.dropLast := by
        obtain ⟨last, whole⟩ := List.dropLast_prefix place
        rw [← whole] at stands
        exact stands.of_append
      exact absurd above free
  | down name => exact ⟨[], stands.find_update_self (stands.fits_of_missing missing) _⟩

/-- If all steps were taken, they lead to a directory now, and no directory is lost. -/
theorem makeAlong_eq_true {steps : List Step} {after : Tree} (stands : tree.HasDirectory place)
    (made : tree.makeAlong place steps = (true, after)) :
    tree.KeepsDirectories after ∧
      ∃ target, after.follow place steps = .ok target ∧ after.HasDirectory target := by
  induction steps generalizing tree place with
  | nil =>
      cases made
      exact ⟨.refl _, place, rfl, stands⟩
  | cons step rest ih =>
      have goes : ∀ {next : Tree}, tree.KeepsDirectories next →
          next.KeepsDirectories after ∧ (∃ target,
            after.follow (step.follow place) rest = .ok target ∧ after.HasDirectory target) →
          tree.KeepsDirectories after ∧
            ∃ target, after.follow place (step :: rest) = .ok target ∧ after.HasDirectory target := by
        rintro next first ⟨second, target, follows, standsThere⟩
        have keeps := first.trans second
        obtain ⟨entries, found⟩ := keeps place stands
        refine ⟨keeps, target, ?_, standsThere⟩
        rw [follow, found]
        exact follows
      rw [makeAlong] at made
      split at made
      · next found => exact goes (.refl tree) (ih ⟨_, found⟩ made)
      · next missing =>
          split at made
          · cases made
          · obtain ⟨keeps, new⟩ := stands.made missing
            exact goes keeps (ih new made)
      · cases made

/-- Nothing can be made below a file. -/
theorem makeAlong_file (content : Content) (step : Step) (rest : List Step) :
    (file content).makeAlong [] (step :: rest) = (false, file content) := by
  cases step <;> rfl

/-- Where directories were made, the path leads to one. -/
theorem LeadsTo.of_makeDirectoriesAt {after : Tree}
    (made : tree.makeDirectoriesAt (path.child name) = (true, after)) :
    ∃ place, after.LeadsTo (path.child name) place := by
  unfold makeDirectoriesAt at made
  split at made
  · cases tree with
    | directory entries =>
        obtain ⟨-, target, follows, stands⟩ := makeAlong_eq_true ⟨entries, find_nil _⟩ made
        exact ⟨target, follows, stands⟩
    | file content =>
        exfalso
        have steps : (path.child name).steps = path.steps ++ [.down name] := rfl
        rw [steps] at made
        cases shape : path.steps with
        | nil =>
            rw [shape, List.nil_append, makeAlong_file] at made
            cases made
        | cons step rest =>
            rw [shape, List.cons_append, makeAlong_file] at made
            cases made
  · cases made

/-- A path at which names are listed leads to a directory with these names. -/
theorem LeadsTo.of_listAt {names : List String} (lists : tree.listAt path = .ok names) :
    ∃ place, tree.LeadsTo path place ∧ tree.list place = .ok names := by
  unfold listAt findAt at lists
  cases located : tree.locate path with
  | error fault =>
      rw [located] at lists
      cases lists
  | ok place =>
      have follows : tree.follow [] path.steps = .ok place := by
        unfold locate at located
        split at located
        · cases located
        · split at located
          · cases located
          · exact located
      rw [located] at lists
      simp only at lists
      cases found : tree.find place with
      | error fault =>
          rw [found] at lists
          cases lists
      | ok entry =>
          rw [found] at lists
          cases entry with
          | directory entries =>
              refine ⟨place, ⟨follows, entries, found⟩, ?_⟩
              rw [list, found]
              exact lists
          | file content =>
              simp only at lists
              cases ends : path.endsInSlash with
              | true =>
                  rw [if_pos ends] at lists
                  cases lists
              | false =>
                  rw [if_neg (by simp [ends])] at lists
                  cases lists

theorem LeadsTo.listAt (leads : tree.LeadsTo path place) (usable : path.isUsable)
    (named : path.text ≠ "") :
    ∃ names, tree.listAt path = .ok names ∧ tree.list place = .ok names := by
  obtain ⟨follows, entries, found⟩ := leads
  have located : tree.locate path = .ok place := by
    unfold locate
    rw [usable, if_neg named, follows]
    rfl
  refine ⟨entries.map Prod.fst, ?_, ?_⟩
  · simp only [Tree.listAt, findAt, located, found]
  · rw [list, found]

/-- A directory that is made in an existing one is empty. -/
theorem LeadsTo.of_makeDirectoriesAt_child (leads : tree.LeadsTo path place) (named : name ≠ "")
    (free : tree.kindAt? (path.child name) = none) {after : Tree}
    (made : tree.makeDirectoriesAt (path.child name) = (true, after)) :
    (path.child name).isUsable ∧ after.LeadsTo (path.child name) (place ++ [name]) ∧
      after.list (place ++ [name]) = .ok [] := by
  cases usable : (path.child name).isUsable with
  | false =>
      rw [makeDirectoriesAt, usable, if_neg Bool.false_ne_true] at made
      cases made
  | true =>
      rw [leads.kindAt?_child named usable, kind?] at free
      cases found : tree.find (place ++ [name]) with
      | ok entry =>
          rw [found] at free
          cases free
      | error fault =>
          cases fault with
          | obstructed =>
              rw [leads.makeDirectoriesAt_child_of_obstructed fun _ => found] at made
              cases made
          | missing =>
              rw [leads.makeDirectoriesAt_child usable found] at made
              cases made
              have new := leads.2.find_update_self (leads.2.fits_of_missing found) emptyDirectory
              have keeps : tree.KeepsDirectories
                  (tree.update (place ++ [name]) (some emptyDirectory)) :=
                keepsDirectories_update (not_hasDirectory_of_kind? (by rw [kind?, found])) _
              exact ⟨rfl, (leads.keep keeps).child ⟨[], new⟩, by rw [list, new]; rfl⟩

theorem HasDirectory.list_update (stands : tree.HasDirectory place) {names : List String}
    (lists : tree.list place = .ok names) (name : String) (entry : Tree) :
    ∃ others, (tree.update (place ++ [name]) (some entry)).list place = .ok others ∧
      others ⊆ name :: names := by
  obtain ⟨entries, found⟩ := stands
  rw [list, found] at lists
  cases lists
  refine ⟨(SortedMap.insertEntry name entry entries).map Prod.fst, ?_, fun other member => ?_⟩
  · rw [list, find_update_append found (List.cons_ne_nil name [])]
    rfl
  · obtain ⟨item, inside, rfl⟩ := List.mem_map.1 member
    rcases SortedMap.mem_insertEntry inside with rfl | old
    · exact List.mem_cons_self
    · exact List.mem_cons_of_mem name (List.mem_map_of_mem old)

theorem LeadsTo.unique {other : List String} (leads : tree.LeadsTo path place)
    (leadsThere : tree.LeadsTo path other) : place = other :=
  Except.ok.inj (leads.1.symm.trans leadsThere.1)

theorem HasDirectory.kind?_of_not_mem (stands : tree.HasDirectory place) {names : List String}
    (lists : tree.list place = .ok names) (absent : name ∉ names) :
    tree.kind? (place ++ [name]) = none := by
  obtain ⟨entries, found⟩ := stands
  rw [list, found] at lists
  cases lists
  rw [kind?, find_append_of_ok found, find_singleton]
  cases fits name with
  | false => rfl
  | true =>
      have free : entries.lookup name = none := by
        rw [List.lookup_eq_none_iff]
        intro entry member
        rw [bne_iff_ne]
        exact fun same => absent (same ▸ List.mem_map_of_mem member)
      rw [free]
      rfl

/-- Below a file nothing can be read. -/
theorem LeadsTo.readAt_below_file (leads : tree.LeadsTo path place) {content : Content}
    (found : tree.find (place ++ [name]) = .ok (.file content)) (other : String) :
    ∃ fault, tree.readAt ((path.child name).child other) = .error fault := by
  have stops : tree.follow [] ((path.child name).child other).steps = .error .obstructed := by
    obtain ⟨follows, entries, here⟩ := leads
    simp only [Path.child, follow_append, follows, follow, here, Step.follow, found]
  obtain ⟨fault, located⟩ := locate_of_follow_eq_error stops
  exact ⟨fault, by rw [readAt, findAt, located]⟩

end Tree
end GraphStore
