import GraphStore.Proofs.Disk.Entries
import GraphStore.Proofs.Disk.Lengths

/-!
# Renaming directories

A directory is moved to another name of the same directory only if nothing or an empty directory
stands there.  The path of the directory above goes on leading there, unless it leads through the
name that is given up.
-/

namespace GraphStore

/-! ## Entries below an entry -/

/-- The written form of an entry of a directory below another one. -/
theorem Path.text_child_child (base : Path) {name : String} (plain : IsPlain name)
    (entry : String) :
    ((base.child name).child entry).text = joinText base.text name ++ "/" ++ entry := by
  have ends := base.textEndsInSlash_child plain
  have nonempty := Tree.child_text_ne_empty base plain.1
  have bare : ¬((base.child name).text = "" ∨ textEndsInSlash (base.child name).text) := by
    simp [ends, nonempty]
  exact if_neg bare

/-- A path through a directory may be asked for if it may through one with a longer name. -/
theorem Path.isUsable_child_child {base : Path} {short long entry : String} (plain : IsPlain short)
    (plainLong : IsPlain long) (less : short.utf8ByteSize ≤ long.utf8ByteSize)
    (clean : '\x00' ∈ short.toList → '\x00' ∈ long.toList)
    (usable : ((base.child long).child entry).isUsable) :
    ((base.child short).child entry).isUsable := by
  rw [isUsable_iff_fits, Fits, text_child_child base plainLong] at usable
  rw [isUsable_iff_fits, Fits, text_child_child base plain]
  obtain ⟨size, letters⟩ := usable
  unfold joinText at size letters ⊢
  split at size
  · next bare =>
      rw [if_pos bare] at letters
      rw [if_pos bare]
      simp only [String.utf8ByteSize_append, String.toList_append, List.mem_append] at size letters ⊢
      exact ⟨by omega, fun inside => letters (by tauto)⟩
  · next bare =>
      rw [if_neg bare] at letters
      rw [if_neg bare]
      simp only [String.utf8ByteSize_append, String.toList_append, List.mem_append] at size letters ⊢
      exact ⟨by omega, fun inside => letters (by tauto)⟩

theorem Path.isUsable_of_child {base : Path} {name : String} (usable : (base.child name).isUsable) :
    base.isUsable := by
  rw [isUsable_iff_fits, Fits] at usable ⊢
  obtain ⟨size, letters⟩ := usable
  refine ⟨?_, fun inside => letters ?_⟩
  · have less := utf8ByteSize_le_child base name
    omega
  · simp only [child, joinText]
    split
    · exact String.toList_append ▸ List.mem_append_left _ inside
    · rw [String.toList_append, String.toList_append]
      exact List.mem_append_left _ (List.mem_append_left _ inside)

namespace Path

/-- The place to which steps lead from a place, if all places on the way are directories. -/
def placeOf (start : List String) (steps : List Step) : List String :=
  steps.foldl Step.follow start

/-- Whether a path does not pass through an entry of the directory to which it leads. -/
def Avoids (path : Path) (name : String) : Prop :=
  ∀ passed, passed <+: path.steps → ¬placeOf [] path.steps ++ [name] <+: placeOf [] passed

theorem mem_placeOf {start : List String} {steps : List Step} {name : String}
    (member : name ∈ placeOf start steps) : name ∈ start ∨ Step.down name ∈ steps := by
  induction steps generalizing start with
  | nil => exact .inl member
  | cons step rest ih =>
      rcases ih member with passed | later
      · cases step with
        | down other =>
            rcases List.mem_append.1 passed with before | here
            · exact .inl before
            · exact .inr (List.mem_singleton.1 here ▸ List.mem_cons_self)
        | stay => exact .inl passed
        | up => exact .inl (List.mem_of_mem_dropLast passed)
      · exact .inr (List.mem_cons_of_mem step later)

/-- A path that does not name an entry does not pass through it. -/
theorem avoids_of_not_mem {path : Path} {name : String} (absent : Step.down name ∉ path.steps) :
    path.Avoids name := by
  intro passed isPrefix isPassed
  rcases mem_placeOf (isPassed.subset (List.mem_append_right _ List.mem_cons_self)) with
    none | member
  · exact List.not_mem_nil none
  · exact absent (isPrefix.subset member)

/-- A path of short names does not pass through what is staged under a name that is no shorter. -/
theorem avoids_temporaryName {path : Path} {name : String}
    (short : ∀ passed, Step.down passed ∈ path.steps → passed.utf8ByteSize ≤ name.utf8ByteSize)
    (number : Nat) : path.Avoids (Replacement.temporaryName name (Identifier.token number)) := by
  refine avoids_of_not_mem fun member => ?_
  have size := short _ member
  rw [Replacement.utf8ByteSize_temporaryName _ (Identifier.utf8ByteSize_token number),
    Replacement.temporaryExtra] at size
  omega

end Path

namespace Tree

variable {tree after : Tree} {path : Path} {place : List String} {name target : String}

/-! ## Paths past an entry -/

/-- Whatever is at or below an entry, it does not matter to a path that does not pass it. -/
theorem follow_update_of_avoids {start reached above : List String} {steps : List Step}
    (avoids : ∀ passed, passed <+: steps → ¬above ++ [name] <+: Path.placeOf start passed)
    (leads : tree.follow start steps = .ok reached) (entry : Option Tree) :
    (tree.update (above ++ [name]) entry).follow start steps = .ok reached := by
  induction steps generalizing start with
  | nil => exact leads
  | cons step rest ih =>
      rw [follow] at leads
      split at leads
      · next entries found =>
          obtain ⟨others, stands⟩ :=
            HasDirectory.update ⟨entries, found⟩ (avoids [] List.nil_prefix) entry
          rw [follow, stands]
          exact ih (fun passed isPrefix =>
            avoids (step :: passed) (List.cons_prefix_cons.2 ⟨rfl, isPrefix⟩)) leads
      · cases leads
      · cases leads

theorem placeOf_of_follow {start reached : List String} {steps : List Step}
    (leads : tree.follow start steps = .ok reached) : Path.placeOf start steps = reached := by
  induction steps generalizing start with
  | nil => exact Except.ok.inj leads
  | cons step rest ih =>
      rw [follow] at leads
      split at leads
      · exact ih leads
      · cases leads
      · cases leads

theorem LeadsTo.update_of_avoids (leads : tree.LeadsTo path place) (avoids : path.Avoids name)
    (entry : Option Tree) : (tree.update (place ++ [name]) entry).LeadsTo path place := by
  refine ⟨follow_update_of_avoids ?_ leads.1 entry, leads.2.update ?_ entry⟩
  · rw [← placeOf_of_follow leads.1]
    exact avoids
  · exact fun isPrefix => absurd isPrefix.length_le (by simp)

/-! ## Moving a directory -/

/-- A directory takes the place of an empty one. -/
theorem keepsDirectories_update_of_empty (stands : tree.HasDirectory place)
    (empty : tree.find (place ++ [name]) = .ok emptyDirectory) (entries : List (String × Tree)) :
    tree.KeepsDirectories (tree.update (place ++ [name]) (some (.directory entries))) := by
  intro other standsThere
  by_cases below : place ++ [name] <+: other
  · obtain ⟨rest, rfl⟩ := below
    cases rest with
    | nil =>
        rw [List.append_nil]
        exact ⟨entries, stands.find_update_self (stands.fits_of_ok empty) _⟩
    | cons first rest =>
        obtain ⟨others, found⟩ := standsThere
        rw [find_append_of_ok empty, emptyDirectory, find] at found
        split at found <;> cases found
  · exact standsThere.update below _

/-- What it takes to move a directory to another name, and what comes of it. -/
theorem LeadsTo.of_renameAt_child (leads : tree.LeadsTo path place) (named : name ≠ "")
    (namedTarget : target ≠ "") (differs : name ≠ target) {entries : List (String × Tree)}
    (found : tree.find (place ++ [name]) = .ok (.directory entries))
    (renamed : tree.renameAt (path.child name) (path.child target) = (true, after)) :
    (path.child target).isUsable ∧
      (tree.find (place ++ [target]) = .error .missing ∨
        tree.find (place ++ [target]) = .ok emptyDirectory) ∧
      after = (tree.update (place ++ [name]) none).update (place ++ [target])
        (some (.directory entries)) := by
  rw [renameAt, leads.locate_child named, leads.locate_child namedTarget] at renamed
  cases usable : (path.child name).isUsable with
  | false => simp [usable] at renamed
  | true =>
      cases usableTarget : (path.child target).isUsable with
      | false => simp [usable, usableTarget] at renamed
      | true =>
          have apart : place ++ [name] ≠ place ++ [target] := by simpa using differs
          obtain ⟨first, rest, cons⟩ := concat_eq_cons place name
          simp only [usable, usableTarget, if_true, found] at renamed
          split at renamed
          · unfold rename at renamed
            rw [found] at renamed
            simp only [if_neg apart] at renamed
            simp only [cons] at renamed
            split at renamed
            · next accepted =>
                refine ⟨rfl, ?_, by rw [cons]; exact (congrArg Prod.snd renamed).symm⟩
                rw [Bool.and_eq_true, accepts, Bool.and_eq_true] at accepted
                obtain ⟨-, -, free⟩ := accepted
                split at free
                · next entry there =>
                    cases entry with
                    | file content => cases free
                    | directory others =>
                        cases others with
                        | nil => exact .inr there
                        | cons other others => cases free
                · next fault there =>
                    cases fault with
                    | missing => exact .inl there
                    | obstructed => cases free
            · cases renamed
          · cases renamed

/-- A directory that was moved stands under its new name. -/
theorem LeadsTo.renamed (leads : tree.LeadsTo path place) (avoids : path.Avoids name)
    (differs : name ≠ target) {entries : List (String × Tree)}
    (free : tree.find (place ++ [target]) = .error .missing ∨
      tree.find (place ++ [target]) = .ok emptyDirectory) :
    let after := (tree.update (place ++ [name]) none).update (place ++ [target])
      (some (.directory entries))
    after.LeadsTo path place ∧ after.find (place ++ [target]) = .ok (.directory entries) := by
  have leadsBetween := leads.update_of_avoids avoids none
  have same : (tree.update (place ++ [name]) none).find (place ++ [target]) =
      tree.find (place ++ [target]) := leads.2.find_update_of_ne differs.symm [] [] none
  rcases free with missing | empty
  · have free : ¬(tree.update (place ++ [name]) none).HasDirectory (place ++ [target]) := by
      rintro ⟨others, found⟩
      rw [same, missing] at found
      cases found
    exact ⟨leadsBetween.keep (keepsDirectories_update free _),
      leadsBetween.2.find_update_self (leads.2.fits_of_missing missing) _⟩
  · exact ⟨leadsBetween.keep
        (keepsDirectories_update_of_empty leadsBetween.2 (same.trans empty) entries),
      leadsBetween.2.find_update_self (leads.2.fits_of_ok empty) _⟩

end Tree
end GraphStore
