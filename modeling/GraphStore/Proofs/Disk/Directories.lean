import GraphStore.Disk.Replacement
import GraphStore.Proofs.Disk.Places

/-!
# Paths to directories

A path that leads to a directory goes on leading there for as long as directories stay directories,
and what is asked about the entries of the directory by path is answered by what stands there.
-/

namespace GraphStore
namespace Tree

/-! ## Following -/

theorem follow_append (tree : Tree) (place : List String) (first second : List Step) :
    tree.follow place (first ++ second) =
      match tree.follow place first with
      | .ok between => tree.follow between second
      | .error fault => .error fault := by
  induction first generalizing place with
  | nil => rfl
  | cons step rest ih =>
      simp only [List.cons_append, follow]
      split
      · exact ih _
      · rfl
      · rfl

theorem follow_of_locate {tree : Tree} {path : Path} {target : List String}
    (located : tree.locate path = .ok target) : tree.follow [] path.steps = .ok target := by
  unfold locate at located
  split at located
  · cases located
  · split at located
    · cases located
    · exact located

theorem locate_of_follow_eq_error {tree : Tree} {path : Path} {fault : Fault}
    (stops : tree.follow [] path.steps = .error fault) :
    ∃ fault, tree.locate path = .error fault := by
  unfold locate
  split
  · exact ⟨_, rfl⟩
  · split
    · exact ⟨_, rfl⟩
    · exact ⟨_, stops⟩

theorem KeepsDirectories.follow {before after : Tree} (keeps : before.KeepsDirectories after)
    {place target : List String} {steps : List Step}
    (leads : before.follow place steps = .ok target) : after.follow place steps = .ok target := by
  induction steps generalizing place with
  | nil => exact leads
  | cons step rest ih =>
      rw [Tree.follow] at leads ⊢
      split at leads
      · next found =>
          obtain ⟨entries, stands⟩ := keeps place ⟨_, found⟩
          rw [stands]
          exact ih leads
      · cases leads
      · cases leads

/-- Whether a path leads to a directory at a place. -/
def LeadsTo (tree : Tree) (path : Path) (place : List String) : Prop :=
  tree.follow [] path.steps = .ok place ∧ tree.HasDirectory place

theorem LeadsTo.keep {before after : Tree} {path : Path} {place : List String}
    (leads : before.LeadsTo path place) (keeps : before.KeepsDirectories after) :
    after.LeadsTo path place :=
  ⟨keeps.follow leads.1, keeps place leads.2⟩

/-! ## Entries of a directory -/

theorem child_text_ne_empty (path : Path) {name : String} (named : name ≠ "") :
    (path.child name).text ≠ "" := by
  intro blank
  have letters : name.toList ≠ [] := fun none => named (String.toList_eq_nil_iff.1 none)
  have none := congrArg String.toList blank
  simp only [Path.child, Path.joinText] at none
  split at none
  · simp only [String.toList_append, String.toList_empty, List.append_eq_nil_iff] at none
    exact letters none.2
  · simp only [String.toList_append, String.toList_empty, List.append_eq_nil_iff] at none
    exact letters none.2

section

variable {tree : Tree} {path : Path} {place : List String}

theorem LeadsTo.locate_child (leads : tree.LeadsTo path place) {name : String} (named : name ≠ "") :
    tree.locate (path.child name) =
      if (path.child name).isUsable then .ok (place ++ [name]) else .error .obstructed := by
  have steps : tree.follow [] (path.child name).steps = .ok (place ++ [name]) := by
    obtain ⟨follows, entries, found⟩ := leads
    simp only [Path.child, follow_append, follows, follow, found]
    rfl
  unfold locate
  rw [if_neg (child_text_ne_empty path named), steps]
  cases (path.child name).isUsable <;> rfl

/-- The directory of an entry that a path locates. -/
theorem LeadsTo.of_locate_child {name : String} {target : List String}
    (located : tree.locate (path.child name) = .ok target) :
    ∃ place, tree.LeadsTo path place ∧ target = place ++ [name] ∧
      (path.child name).isUsable := by
  have usable : (path.child name).isUsable := by
    cases usable : (path.child name).isUsable with
    | true => rfl
    | false => simp [locate, usable] at located
  have follows := follow_of_locate located
  simp only [Path.child, follow_append] at follows
  split at follows
  · next place reached =>
      rw [follow] at follows
      split at follows
      · next entries found =>
          exact ⟨place, ⟨reached, entries, found⟩, (Except.ok.inj follows).symm, usable⟩
      · cases follows
      · cases follows
  · cases follows

theorem LeadsTo.findAt_child (leads : tree.LeadsTo path place) {name : String} (named : name ≠ "")
    (usable : (path.child name).isUsable) :
    tree.findAt (path.child name) = tree.find (place ++ [name]) := by
  rw [findAt, leads.locate_child named, if_pos usable]
  simp only [Path.child]
  cases tree.find (place ++ [name]) with
  | error fault => rfl
  | ok entry => cases entry <;> rfl

theorem LeadsTo.readAt_child (leads : tree.LeadsTo path place) {name : String} (named : name ≠ "")
    (usable : (path.child name).isUsable) :
    tree.readAt (path.child name) = tree.read (place ++ [name]) := by
  rw [readAt, leads.findAt_child named usable]
  rfl

theorem LeadsTo.readAt_child_of_not_usable (leads : tree.LeadsTo path place) {name : String}
    (named : name ≠ "") (unusable : (path.child name).isUsable = false) :
    tree.readAt (path.child name) = .error .obstructed := by
  rw [readAt, findAt, leads.locate_child named, if_neg (by simp [unusable])]

theorem LeadsTo.kindAt?_child (leads : tree.LeadsTo path place) {name : String} (named : name ≠ "")
    (usable : (path.child name).isUsable) :
    tree.kindAt? (path.child name) = tree.kind? (place ++ [name]) := by
  rw [kindAt?, leads.findAt_child named usable]
  rfl

theorem LeadsTo.child (leads : tree.LeadsTo path place) {name : String}
    (stands : tree.HasDirectory (place ++ [name])) :
    tree.LeadsTo (path.child name) (place ++ [name]) := by
  obtain ⟨follows, entries, found⟩ := leads
  refine ⟨?_, stands⟩
  simp only [Path.child, follow_append, follows, follow, found]
  rfl

/-! ## Directories that exist -/

theorem follow_replicate_stay {count : Nat} {target : List String}
    (leads : tree.follow place (List.replicate count .stay) = .ok target) : place = target := by
  induction count with
  | zero => exact Except.ok.inj leads
  | succ count ih =>
      rw [List.replicate_succ, follow] at leads
      split at leads
      · exact ih leads
      · cases leads
      · cases leads

/-- Steps without those at the end that stay lead to the same place. -/
theorem follow_dropStays {steps : List Step} {target : List String}
    (leads : tree.follow place steps = .ok target) :
    tree.follow place (steps.reverse.dropWhile (· == .stay)).reverse = .ok target := by
  have split := List.takeWhile_append_dropWhile (p := (· == Step.stay)) (l := steps.reverse)
  have whole := congrArg List.reverse split
  rw [List.reverse_append, List.reverse_reverse] at whole
  have stays : (steps.reverse.takeWhile (· == .stay)).reverse =
      List.replicate (steps.reverse.takeWhile (· == .stay)).length .stay := by
    refine List.eq_replicate_iff.2 ⟨List.length_reverse, fun step member => ?_⟩
    have every := List.all_takeWhile (p := (· == Step.stay)) (l := steps.reverse)
    exact beq_iff_eq.1 (List.all_eq_true.1 every step (List.mem_reverse.1 member))
  rw [← whole, follow_append, stays] at leads
  cases between : tree.follow place (steps.reverse.dropWhile (· == .stay)).reverse with
  | error fault =>
      rw [between] at leads
      cases leads
  | ok middle =>
      rw [between] at leads
      rw [follow_replicate_stay leads]

/-- Where directories exist already, none are made. -/
theorem makeAlong_append {steps : List Step} {target : List String}
    (leads : tree.follow place steps = .ok target) (stands : tree.HasDirectory target)
    (more : List Step) : tree.makeAlong place (steps ++ more) = tree.makeAlong target more := by
  induction steps generalizing place with
  | nil => rw [Except.ok.inj leads, List.nil_append]
  | cons step rest ih =>
      rw [follow] at leads
      split at leads
      · next here =>
          have next : tree.HasDirectory (step.follow place) := by
            cases rest with
            | nil => exact Except.ok.inj leads ▸ stands
            | cons other rest =>
                rw [follow] at leads
                split at leads
                · next found => exact ⟨_, found⟩
                · cases leads
                · cases leads
          obtain ⟨entries, found⟩ := next
          rw [List.cons_append, makeAlong]
          simp only [found]
          exact ih leads
      · cases leads
      · cases leads

theorem makeAlong_of_follow {steps : List Step} {target : List String}
    (leads : tree.follow place steps = .ok target) (stands : tree.HasDirectory target) :
    tree.makeAlong place steps = (true, tree) := by
  have whole := makeAlong_append leads stands []
  rwa [List.append_nil] at whole

theorem LeadsTo.makeDirectoriesAt_trimmed (leads : tree.LeadsTo path place) :
    tree.makeDirectoriesAt path.trimmed = (path.trimmed.isUsable, tree) := by
  unfold makeDirectoriesAt
  rw [Path.trimmed, makeAlong_of_follow (follow_dropStays leads.1) leads.2]
  split
  · next usable => rw [usable]
  · next unusable =>
      have refused := Bool.eq_false_iff.2 unusable
      rw [refused]

/-! ## Replacing files of a directory -/

/-- How replacing a file of a directory ends, whatever is to be written. -/
def replacement (tree : Tree) (path : Path) (name : String) : Replacement :=
  (tree.replace path name (.text "")).1

/-- How the replacement of a file ends does not depend on what is written. -/
theorem fst_replace (tree : Tree) (path : Path) (name : String) (content : Content) :
    (tree.replace path name content).1 = tree.replacement path name := by
  unfold replacement replace
  rcases tree.makeDirectoriesAt path.trimmed with ⟨made, withDirectory⟩
  cases made with
  | false => rfl
  | true =>
      simp only [Bool.not_true, Bool.false_eq_true, if_false]
      cases withDirectory.locate (path.child name) with
      | error => rfl
      | ok target => simp only [apply_ite Prod.fst]

/-- Whether the file of a name in a directory can be replaced. -/
def CanReplace (tree : Tree) (path : Path) (place : List String) (name : String) : Prop :=
  path.trimmed.isUsable ∧ (path.child name).isUsable ∧ Replacement.hasTemporary path name ∧
    tree.acceptsFile (place ++ [name])

/-- Replacing a file of an existing directory writes the file or leaves the tree as it is. -/
theorem LeadsTo.replace_cases (leads : tree.LeadsTo path place) {name : String}
    (named : name ≠ "") (content : Content) :
    tree.CanReplace path place name ∧ tree.replacement path name = .done ∧
        tree.replace path name content =
          (.done, tree.update (place ++ [name]) (some (.file content))) ∨
      ¬tree.CanReplace path place name ∧ tree.replacement path name ≠ .done ∧
        tree.replace path name content = (tree.replacement path name, tree) := by
  unfold replacement replace CanReplace
  simp only [leads.makeDirectoriesAt_trimmed, leads.locate_child named]
  cases path.trimmed.isUsable with
  | false => simp
  | true =>
      cases (path.child name).isUsable with
      | false => simp
      | true =>
          cases Replacement.hasTemporary path name with
          | false => simp
          | true => cases accepts : tree.acceptsFile (place ++ [name]) <;> simp [accepts]

theorem LeadsTo.replacement_eq (leads : tree.LeadsTo path place) {name : String}
    (named : name ≠ "") :
    tree.replacement path name =
      if path.trimmed.isUsable then
        if (path.child name).isUsable && Replacement.hasTemporary path name &&
            tree.acceptsFile (place ++ [name]) then .done
        else .noFile
      else .noDirectory := by
  unfold replacement replace
  simp only [leads.makeDirectoriesAt_trimmed, leads.locate_child named]
  cases path.trimmed.isUsable with
  | false => rfl
  | true =>
      cases (path.child name).isUsable with
      | false => rfl
      | true =>
          cases Replacement.hasTemporary path name with
          | false => rfl
          | true =>
              simp only [Bool.true_and, if_true, Bool.not_true, Bool.false_eq_true, if_false]
              split <;> rfl

/-! ## A directory in which files are replaced -/

theorem acceptsFile_child {entry : Tree} (found : tree.find place = .ok entry) (name : String) :
    tree.acceptsFile (place ++ [name]) =
      (entry.kind == .directory &&
        match entry.find [name] with
        | .ok other => other.kind == .file
        | .error fault => fault == .missing) := by
  have above : tree.kind? place = some entry.kind := by rw [kind?, found]
  have nonempty : (place ++ [name] != []) = true := by
    cases place <;> rfl
  rw [acceptsFile, nonempty, List.dropLast_concat, above, find_append_of_ok found]
  cases entry.kind <;> rfl

theorem fits_of_acceptsFile {name : String} (accepts : tree.acceptsFile (place ++ [name])) :
    fits name := by
  cases found : tree.find place with
  | error fault => simp [acceptsFile, kind?, found] at accepts
  | ok entry =>
      rw [acceptsFile_child found] at accepts
      cases entry with
      | file content => cases accepts
      | directory entries =>
          rw [find_singleton] at accepts
          cases short : fits name with
          | true => rfl
          | false => simp [short] at accepts

theorem not_hasDirectory_of_acceptsFile {name : String}
    (accepts : tree.acceptsFile (place ++ [name])) : ¬tree.HasDirectory (place ++ [name]) := by
  rintro ⟨entries, found⟩
  simp [acceptsFile, found, kind] at accepts

theorem LeadsTo.find_update (leads : tree.LeadsTo path place) {name : String} (short : fits name)
    (entry : Tree) (other : String) :
    (tree.update (place ++ [name]) (some entry)).find (place ++ [other]) =
      if other = name then .ok entry else tree.find (place ++ [other]) := by
  split
  · next same => rw [same, leads.2.find_update_self short]
  · next differs => rw [leads.2.find_update_of_ne differs]

/-- What changes when a file of a directory is replaced. -/
theorem LeadsTo.replaced (leads : tree.LeadsTo path place) {name : String} (content : Content)
    (possible : tree.CanReplace path place name) :
    (tree.update (place ++ [name]) (some (.file content))).LeadsTo path place ∧
      ∀ other, (tree.update (place ++ [name]) (some (.file content))).find (place ++ [other]) =
        if other = name then .ok (.file content) else tree.find (place ++ [other]) := by
  obtain ⟨-, -, -, accepts⟩ := possible
  exact ⟨leads.keep (keepsDirectories_update (not_hasDirectory_of_acceptsFile accepts) _),
    leads.find_update (fits_of_acceptsFile accepts) _⟩

theorem LeadsTo.readAt_congr {after : Tree} (leads : tree.LeadsTo path place)
    (leadsAfter : after.LeadsTo path place) {name : String} (named : name ≠ "")
    (same : after.find (place ++ [name]) = tree.find (place ++ [name])) :
    after.readAt (path.child name) = tree.readAt (path.child name) := by
  cases usable : (path.child name).isUsable with
  | false =>
      rw [leads.readAt_child_of_not_usable named usable,
        leadsAfter.readAt_child_of_not_usable named usable]
  | true =>
      rw [leads.readAt_child named usable, leadsAfter.readAt_child named usable, read, same, read]

theorem LeadsTo.replacement_congr {after : Tree} (leads : tree.LeadsTo path place)
    (leadsAfter : after.LeadsTo path place) {name : String} (named : name ≠ "")
    (same : after.acceptsFile (place ++ [name]) = tree.acceptsFile (place ++ [name])) :
    after.replacement path name = tree.replacement path name := by
  rw [leads.replacement_eq named, leadsAfter.replacement_eq named, same]

theorem LeadsTo.acceptsFile_replaced (leads : tree.LeadsTo path place) {name : String}
    (content : Content) (possible : tree.CanReplace path place name) (other : String) :
    (tree.update (place ++ [name]) (some (.file content))).acceptsFile (place ++ [other]) =
      tree.acceptsFile (place ++ [other]) := by
  obtain ⟨leadsAfter, finds⟩ := leads.replaced content possible
  have accepts := possible.2.2.2
  obtain ⟨-, entries, found⟩ := leads
  obtain ⟨-, others, foundAfter⟩ := leadsAfter
  have same := finds other
  rw [find_append_of_ok found, find_append_of_ok foundAfter] at same
  rw [acceptsFile_child found, acceptsFile_child foundAfter, same]
  by_cases equal : other = name
  · subst equal
    rw [acceptsFile_child found] at accepts
    rw [if_pos rfl, accepts]
    rfl
  · rw [if_neg equal]
    rfl

/-- A file that was replaced has its new content, also where its directory had to be made. -/
theorem readAt_replace_self {name : String} {content : Content} {after : Tree} (named : name ≠ "")
    (replaced : tree.replace path name content = (.done, after)) :
    after.readAt (path.child name) = .ok content := by
  unfold replace at replaced
  generalize tree.makeDirectoriesAt path.trimmed = making at replaced
  obtain ⟨made, withDirectory⟩ := making
  cases made with
  | false => cases replaced
  | true =>
      cases located : withDirectory.locate (path.child name) with
      | error fault => simp [located] at replaced
      | ok target =>
          obtain ⟨place, leads, rfl, usable⟩ := LeadsTo.of_locate_child located
          have room : (Replacement.hasTemporary path name &&
              withDirectory.acceptsFile (place ++ [name])) = true := by
            by_contra refused
            simp [located, refused] at replaced
          have accepts := (Bool.and_eq_true_iff.1 room).2
          have kept := leads.keep
            (keepsDirectories_update (not_hasDirectory_of_acceptsFile accepts)
              (some (.file content)))
          obtain rfl : withDirectory.update (place ++ [name]) (some (.file content)) = after := by
            simpa [located, room] using replaced
          rw [kept.readAt_child named usable, read,
            leads.2.find_update_self (fits_of_acceptsFile accepts)]

/-- A file that can be replaced can be read afterwards. -/
theorem readAt_of_replacement {name : String} (named : name ≠ "")
    (possible : tree.replacement path name = .done) (content : Content) :
    ∃ after, tree.replace path name content = (.done, after) ∧
      after.readAt (path.child name) = .ok content := by
  have replaced : tree.replace path name content = (.done, (tree.replace path name content).2) :=
    Prod.ext ((tree.fst_replace path name content).trans possible) rfl
  exact ⟨_, replaced, readAt_replace_self named replaced⟩

end

/-! ## Changes below one entry of a directory -/

/-- Whether one tree comes from another by changes at or below one entry of the directory at a
place. -/
structure AltersOnly (place : List String) (name : String) (before after : Tree) : Prop where
  stands : after.HasDirectory place
  same : ∀ other, other ≠ name → ∀ more,
    after.find (place ++ other :: more) = before.find (place ++ other :: more)
  keeps : ∀ base : Tree, ¬base.HasDirectory (place ++ [name]) →
    base.KeepsDirectories before → base.KeepsDirectories after

theorem AltersOnly.refl {tree : Tree} {place : List String} (stands : tree.HasDirectory place)
    (name : String) : AltersOnly place name tree tree :=
  ⟨stands, fun _ _ _ => rfl, fun _ _ keeps => keeps⟩

theorem AltersOnly.trans {first second third : Tree} {place : List String} {name : String}
    (left : AltersOnly place name first second) (right : AltersOnly place name second third) :
    AltersOnly place name first third :=
  ⟨right.stands,
    fun other differs more => (right.same other differs more).trans (left.same other differs more),
    fun base free keeps => right.keeps base free (left.keeps base free keeps)⟩

theorem HasDirectory.altersOnly {tree : Tree} {place : List String}
    (stands : tree.HasDirectory place) (name : String) (rest : List String)
    (entry : Option Tree) :
    AltersOnly place name tree (tree.update (place ++ name :: rest) entry) := by
  refine ⟨?_, fun other differs more => stands.find_update_of_ne differs rest more entry, ?_⟩
  · obtain ⟨entries, found⟩ := stands
    obtain ⟨others, same⟩ := update_directory entries (name :: rest) entry
    exact ⟨others, by rw [find_update_append found (List.cons_ne_nil name rest), same]⟩
  · intro base free keeps
    have kept := keeps.update free rest entry
    simpa using kept

end Tree
end GraphStore
