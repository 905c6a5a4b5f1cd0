import GraphStore.Disk.Stages
import GraphStore.Proofs.Disk.Descents
import GraphStore.Proofs.Disk.Updates

/-!
# Targets

A path that names a file is the path of a directory followed by a name.  What is written beside the
target under a longer name can be moved to it.
-/

namespace GraphStore

namespace Path

variable {path : Path} {name : String}

theorem placeOf_append (start : List String) (first second : List Step) :
    placeOf start (first ++ second) = placeOf (placeOf start first) second :=
  List.foldl_append

theorem placeOf_trimmed (path : Path) :
    placeOf [] path.trimmed.steps = placeOf [] path.steps := by
  obtain ⟨count, whole⟩ := Tree.exists_trimmed_append_stays path
  have stays : ∀ (count : Nat) (start : List String),
      placeOf start (List.replicate count .stay) = start := by
    intro count
    induction count with
    | zero => exact fun _ => rfl
    | succ count ih => exact fun start => ih start
  rw [whole, placeOf_append, stays]

theorem trimmed_steps_of_moves {steps : List Step} {last : Step}
    (ends : path.steps = steps ++ [last]) (moves : last ≠ .stay) :
    path.trimmed.steps = path.steps := by
  rw [trimmed, ends]
  simp [moves]

theorem parent_steps_of_trimmed {steps : List Step} {last : Step}
    (ends : path.trimmed.steps = steps ++ [last]) : path.parent.steps = steps := by
  unfold parent
  split
  · next none => simp [none] at ends
  · next => rw [ends, List.dropLast_concat]

/-- A path that names an entry leads to its directory first. -/
theorem steps_of_namesEntry (names : path.namesEntry) :
    path.steps = path.parent.steps ++ [.down path.fileName] := by
  rw [namesEntry, Option.any_eq_true] at names
  obtain ⟨last, found, down⟩ := names
  obtain ⟨front, ends⟩ := List.getLast?_eq_some_iff.1 found
  cases last with
  | stay => cases down
  | up => cases down
  | down name =>
      have same := trimmed_steps_of_moves ends (by simp)
      have named : path.fileName = name := by
        rw [fileName, same, found]
      rw [parent_steps_of_trimmed (same.trans ends), named, ends]

/-- The temporary file of a target stands at another place than the target. -/
theorem placeOf_ne_temporary (path : Path) {token : String}
    (length : token.utf8ByteSize = Replacement.tokenLength) :
    placeOf [] path.steps ≠
      placeOf [] path.parent.steps ++ [Replacement.temporaryName path.fileName token] := by
  rw [← placeOf_trimmed path]
  rcases List.eq_nil_or_concat path.trimmed.steps with none | ⟨front, last, ends⟩
  · rw [none]
    exact fun same => by simp [placeOf] at same
  · rw [List.concat_eq_append] at ends
    rw [parent_steps_of_trimmed ends, ends, placeOf_append]
    cases last with
    | stay => exact fun same => by simpa [placeOf, Step.follow] using congrArg List.length same
    | up =>
        intro same
        have lengths := congrArg List.length same
        simp only [placeOf, List.foldl_cons, List.foldl_nil, Step.follow, List.length_dropLast,
          List.length_append, List.length_singleton] at lengths
        omega
    | down name =>
        have named : path.fileName = name := by simp [fileName, ends]
        rw [named]
        intro same
        have sizes := congrArg String.utf8ByteSize
          (List.singleton_inj.1 (List.append_cancel_left same))
        rw [Replacement.utf8ByteSize_temporaryName name length, Replacement.temporaryExtra] at sizes
        omega

/-- Whether a path passes a place on its way, or leads there. -/
def Passes (path : Path) (place : List String) : Prop :=
  ∃ passed, passed <+: path.steps ∧ placeOf [] passed = place

theorem Passes.of_trimmed {place : List String} (passes : path.trimmed.Passes place) :
    path.Passes place := by
  obtain ⟨passed, isPrefix, leads⟩ := passes
  obtain ⟨count, whole⟩ := Tree.exists_trimmed_append_stays path
  exact ⟨passed, isPrefix.trans (whole ▸ List.prefix_append _ _), leads⟩

/-- Whether a path may be that of a file. -/
def namesFile (path : Path) : Bool :=
  path.namesEntry && !path.endsInSlash && path.isUsable && path.text != ""

theorem frontText_joinText (base : String) (plain : IsPlain name) :
    frontText (joinText base name) =
      if base = "" ∨ textEndsInSlash base then base else base ++ "/" := by
  have single := Text.splitAt_of_not_mem plain.2.2.2
  have front : ∀ before : List Char,
      frontText (String.ofList (before ++ '/' :: name.toList)) = String.ofList before ++ "/" := by
    intro before
    have some : (Text.splitAt '/' before).map String.ofList ≠ [] := by
      simpa using Text.splitAt_ne_nil '/' before
    rw [frontText, String.toList_ofList, Text.splitAt_append, single, List.dropLast_concat,
      if_neg some]
    exact congrArg (· ++ "/") (String.toList_injective ((Text.joinWith_splitAt '/' before).trans
      String.toList_ofList.symm))
  unfold joinText
  split
  · next bare =>
      by_cases blank : base = ""
      · rw [blank, String.empty_append, frontText, single]
        rfl
      · obtain ⟨before, text⟩ := List.getLast?_eq_some_iff.1
          (beq_iff_eq.1 (bare.resolve_left blank))
        have whole : base ++ name = String.ofList (before ++ '/' :: name.toList) :=
          String.toList_injective (by simp [text])
        rw [whole, front]
        exact String.toList_injective (by simp [text])
  · have whole : base ++ "/" ++ name = String.ofList (base.toList ++ '/' :: name.toList) :=
      String.toList_injective (by simp)
    rw [whole, front, String.ofList_toList]

/-- A slash at the end is trimmed. -/
theorem trimText_append_slash {text : String} (notBlank : text ≠ "") :
    trimText (text ++ "/") = trimText text := by
  have split : Text.splitAt '/' (text ++ "/").toList = Text.splitAt '/' text.toList ++ [[]] := by
    rw [String.toList_append, show "/".toList = '/' :: [] from rfl, Text.splitAt_append]
    rfl
  have start : (text ++ "/").toList.take 1 = text.toList.take 1 := by
    obtain ⟨c, rest, letters⟩ := List.exists_cons_of_ne_nil
      (fun none => notBlank (String.toList_eq_nil_iff.1 none))
    simp [letters]
  have dropped : ((Text.splitAt '/' text.toList ++ [[]]).map String.ofList).reverse.dropWhile
      (fun part => decide (part = "" ∨ part = ".")) =
        ((Text.splitAt '/' text.toList).map String.ofList).reverse.dropWhile
          fun part => decide (part = "" ∨ part = ".") := by
    rw [List.map_append, List.reverse_append]
    rfl
  simp only [trimText, split, start, dropped]

theorem parent_child_trimmed (directory : Path) (plain : IsPlain name) :
    (directory.child name).parent.trimmed = directory.trimmed := by
  have steps : (directory.child name).trimmed.steps = directory.steps ++ [.down name] :=
    trimmed_steps_of_moves rfl (by simp)
  have text : (directory.child name).parent.text = frontText (joinText directory.text name) := by
    unfold parent
    split
    · next none => simp [none] at steps
    · rw [text_trimmed_child directory plain]
      rfl
  rw [trimmed, parent_steps_of_trimmed steps, text, frontText_joinText _ plain, trimmed]
  split
  · rfl
  · next bare => rw [trimText_append_slash (not_or.1 bare).1]

theorem fileName_child (directory : Path) (name : String) :
    (directory.child name).fileName = name := by
  have steps : (directory.child name).trimmed.steps = directory.steps ++ [.down name] :=
    trimmed_steps_of_moves rfl (by simp)
  simp [fileName, steps]

end Path

/-! ## Targets in a tree -/

namespace Tree

variable {tree : Tree} {path target : Path} {place : List String} {name token : String}
  {content : Content}

theorem LeadsTo.trimmed_iff : tree.LeadsTo path.trimmed place ↔ tree.LeadsTo path place := by
  constructor
  · rintro ⟨follows, stands⟩
    obtain ⟨count, whole⟩ := exists_trimmed_append_stays path
    refine ⟨?_, stands⟩
    rw [whole, follow_append, follows]
    exact follow_stays stands count
  · rintro ⟨follows, stands⟩
    exact ⟨follow_dropStays follows, stands⟩

theorem LeadsTo.writeAt_child (leads : tree.LeadsTo path place) (named : name ≠ "")
    (usable : (path.child name).isUsable) (content : Content) :
    tree.writeAt (path.child name) content = tree.write (place ++ [name]) content := by
  have plain : (path.child name).endsInSlash = false := rfl
  simp only [writeAt, plain, leads.changeAt_child named usable, Bool.false_eq_true, if_false]

theorem LeadsTo.removeFileAt_child_of_missing (leads : tree.LeadsTo path place) (named : name ≠ "")
    (free : tree.kindAt? (path.child name) = none) :
    tree.removeFileAt (path.child name) = (false, tree) := by
  have plain : (path.child name).endsInSlash = false := rfl
  cases usable : (path.child name).isUsable with
  | false => simp [removeFileAt, changeAt, leads.locate_child named, usable]
  | true =>
      rw [leads.kindAt?_child named usable, kind?] at free
      simp only [removeFileAt, plain, leads.changeAt_child named usable, removeFile]
      cases found : tree.find (place ++ [name]) with
      | ok entry => simp [found] at free
      | error fault => rfl

theorem LeadsTo.kindAt?_congr {after : Tree} (leads : tree.LeadsTo path place)
    (leadsAfter : after.LeadsTo path place) (named : name ≠ "")
    (same : after.find (place ++ [name]) = tree.find (place ++ [name])) :
    after.kindAt? (path.child name) = tree.kindAt? (path.child name) := by
  cases usable : (path.child name).isUsable with
  | false => simp [kindAt?, findAt, leads.locate_child named, leadsAfter.locate_child named, usable]
  | true =>
      rw [leads.kindAt?_child named usable, leadsAfter.kindAt?_child named usable, kind?, same, kind?]

/-- The place of a target whose directory stands. -/
theorem LeadsTo.locate_target (leads : tree.LeadsTo target.parent place)
    (names : target.namesFile) : tree.locate target = .ok (place ++ [target.fileName]) := by
  simp only [Path.namesFile, Bool.and_eq_true, bne_iff_ne] at names
  obtain ⟨⟨⟨namesEntry, -⟩, usable⟩, named⟩ := names
  obtain ⟨follows, entries, found⟩ := leads
  rw [locate, usable, if_neg named, Path.steps_of_namesEntry namesEntry, follow_append, follows]
  simp only [Bool.not_true, Bool.false_eq_true, if_false, follow, found, Step.follow]

/-- A file is moved to a target if the target may be that of a file. -/
theorem LeadsTo.renameAt_target (leads : tree.LeadsTo target.parent place) (named : name ≠ "")
    (usable : (target.parent.trimmed.child name).isUsable) (differs : name ≠ target.fileName)
    (found : tree.find (place ++ [name]) = .ok (.file content)) :
    tree.renameAt (target.parent.trimmed.child name) target =
      if target.namesFile && tree.acceptsFile (place ++ [target.fileName]) then
        (true, (tree.update (place ++ [name]) none).update (place ++ [target.fileName])
          (some (.file content)))
      else (false, tree) := by
  have origin : tree.locate (target.parent.trimmed.child name) = .ok (place ++ [name]) := by
    rw [(LeadsTo.trimmed_iff.2 leads).locate_child named, if_pos usable]
  have may : mayRename (.ok (.file content)) (target.parent.trimmed.child name) target =
      (target.namesEntry && !target.endsInSlash) := by
    rw [mayRename, namesEntry_child, Bool.true_and]
    rfl
  cases names : target.namesFile with
  | false =>
      rw [Bool.false_and, if_neg Bool.false_ne_true, renameAt, origin]
      cases goal : tree.locate target with
      | error fault => rfl
      | ok other =>
          have refused : (target.namesEntry && !target.endsInSlash) = false := by
            unfold locate at goal
            split at goal
            · cases goal
            · next usableTarget =>
                split at goal
                · cases goal
                · next notBlank =>
                    rw [Bool.not_eq_true, Bool.not_eq_false'] at usableTarget
                    simpa [Path.namesFile, usableTarget, notBlank] using names
          simp only [found, may, refused, Bool.false_eq_true, if_false]
  | true =>
      have apart : place ++ [name] ≠ place ++ [target.fileName] := by simpa using differs
      have notAbove : (place ++ [name]).isPrefixOf (place ++ [target.fileName]) = false := by
        rw [Bool.eq_false_iff, ne_eq, List.isPrefixOf_iff_prefix]
        exact fun isPrefix => apart (isPrefix.eq_of_length (by simp))
      have given : (target.namesEntry && !target.endsInSlash) = true := by
        simp only [Path.namesFile, Bool.and_eq_true] at names
        rw [Bool.and_eq_true]
        exact names.1.1
      simp only [renameAt, origin, leads.locate_target names, found, may, given, if_true]
      unfold rename
      obtain ⟨first, rest, cons⟩ := concat_eq_cons place name
      rw [found]
      simp only [if_neg apart, notAbove]
      simp only [cons]
      rfl

theorem write_of_file {other : Content} (accepts : tree.acceptsFile (place ++ [name]))
    (stands : tree.HasDirectory place) :
    (tree.update (place ++ [name]) (some (.file content))).write (place ++ [name]) other =
      (true, tree.update (place ++ [name]) (some (.file other))) := by
  have keeps := keepsDirectories_update (not_hasDirectory_of_acceptsFile accepts)
    (some (Tree.file content))
  have found := stands.find_update_self (fits_of_acceptsFile accepts) (.file content)
  have again : (tree.update (place ++ [name]) (some (.file content))).acceptsFile
      (place ++ [name]) := (keeps place stands).acceptsFile_of_read (by
    rw [read, found]
    rintro ⟨⟩)
  rw [write, if_pos again, update_update_same]

theorem HasDirectory.acceptsFile_update_of_ne (stands : tree.HasDirectory place) {other : String}
    (differs : other ≠ name) (entry : Option Tree) :
    (tree.update (place ++ [name]) entry).acceptsFile (place ++ [other]) =
      tree.acceptsFile (place ++ [other]) := by
  have longer : ¬place ++ [name] <+: place := fun isPrefix =>
    absurd isPrefix.length_le (by simp)
  rw [acceptsFile, acceptsFile, List.dropLast_concat, kind?_eq_some_directory.2 stands,
    kind?_eq_some_directory.2 (stands.update longer entry), stands.find_update_of_ne differs]

end Tree
end GraphStore
