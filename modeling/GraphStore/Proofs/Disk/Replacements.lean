import GraphStore.Proofs.Disk.Making
import GraphStore.Proofs.Disk.Targets

/-!
# Replacements

A file is replaced as a whole or not at all.  Whoever looks at the disk while it is replaced finds
what stood there before, directories that are made on the way, and the temporary file.  Only where
the path of the target goes up through the target itself a directory comes to stand in its place.
-/

namespace GraphStore
namespace Replacement

variable {tree made : Tree} {target : Path} {place : List String} {token : String}
  {content : Content}

theorem stages_of_not_made (makes : tree.makeDirectoriesAt target.parent.trimmed = (false, made)) :
    stages tree target token content = (.noDirectory, tree.makingsAt target.parent.trimmed) := by
  simp [stages, makes]

theorem temporaryName_ne_empty (name token : String) : temporaryName name token ≠ "" := by
  intro blank
  have letters := congrArg String.toList blank
  simp [temporaryName] at letters

theorem temporaryName_ne_self (name : String) (length : token.utf8ByteSize = tokenLength) :
    temporaryName name token ≠ name := by
  intro same
  have sizes := utf8ByteSize_temporaryName name length
  rw [same, temporaryExtra] at sizes
  omega

/-- Where the directory cannot be found although it was made, nothing is written. -/
theorem stages_of_not_leads (makes : tree.makeDirectoriesAt target.parent.trimmed = (true, made))
    (lost : ¬∃ place, made.LeadsTo target.parent place) :
    stages tree target token content =
      (.noFile, tree.makingsAt target.parent.trimmed ++ [made]) := by
  have located : ∃ fault, made.locate (temporary target.parent target.fileName token) =
      .error fault := by
    cases located : made.locate (temporary target.parent target.fileName token) with
    | error fault => exact ⟨fault, rfl⟩
    | ok other =>
        obtain ⟨place, leads, -⟩ := Tree.LeadsTo.of_locate_child located
        exact absurd ⟨place, Tree.LeadsTo.trimmed_iff.1 leads⟩ lost
  obtain ⟨fault, located⟩ := located
  simp [stages, makes, Tree.writeAt, Tree.removeFileAt, Tree.changeAt, located]

/-- Whether the temporary file of a target can be written. -/
def hasRoom (target : Path) (token : String) : Bool :=
  (temporary target.parent target.fileName token).isUsable &&
    Tree.fits (temporaryName target.fileName token)

section

variable (leads : made.LeadsTo target.parent place)
  (free : made.kindAt? (temporary target.parent target.fileName token) = none)

include leads free

theorem missing_of_hasRoom (room : hasRoom target token) :
    made.find (place ++ [temporaryName target.fileName token]) = .error .missing := by
  obtain ⟨usable, short⟩ := Bool.and_eq_true_iff.1 room
  refine leads.2.find_of_kind?_none short ?_
  rw [← free, temporary, (Tree.LeadsTo.trimmed_iff.2 leads).kindAt?_child
    (temporaryName_ne_empty _ _) usable]

theorem acceptsFile_of_hasRoom (room : hasRoom target token) :
    made.acceptsFile (place ++ [temporaryName target.fileName token]) := by
  refine leads.2.acceptsFile_of_read ?_
  rw [Tree.read, missing_of_hasRoom leads free room]
  rintro ⟨⟩

theorem writeAt_temporary (content : Content) :
    made.writeAt (temporary target.parent target.fileName token) content =
      if hasRoom target token then
        (true, made.update (place ++ [temporaryName target.fileName token]) (some (.file content)))
      else (false, made) := by
  have leadsTrimmed := Tree.LeadsTo.trimmed_iff.2 leads
  have named := temporaryName_ne_empty target.fileName token
  by_cases room : hasRoom target token
  · rw [if_pos room, temporary, leadsTrimmed.writeAt_child named (Bool.and_eq_true_iff.1 room).1,
      Tree.write, if_pos (acceptsFile_of_hasRoom leads free room)]
  · rw [if_neg room, temporary]
    cases usable : (target.parent.trimmed.child (temporaryName target.fileName token)).isUsable with
    | false =>
        simp [Tree.writeAt, Tree.changeAt, leadsTrimmed.locate_child named, usable]
    | true =>
        have long : ¬Tree.fits (temporaryName target.fileName token) := fun short =>
          room (Bool.and_eq_true_iff.2 ⟨usable, short⟩)
        have refused : ¬made.acceptsFile (place ++ [temporaryName target.fileName token]) :=
          fun accepts => long (Tree.fits_of_acceptsFile accepts)
        rw [leadsTrimmed.writeAt_child named usable, Tree.write, if_neg refused]

/-- Without room for the temporary file nothing is written. -/
theorem stages_of_not_hasRoom (makes : tree.makeDirectoriesAt target.parent.trimmed = (true, made))
    (full : ¬hasRoom target token) :
    stages tree target token content =
      (.noFile, tree.makingsAt target.parent.trimmed ++ [made]) := by
  have writes := writeAt_temporary leads free (.text "")
  have removes : made.removeFileAt (temporary target.parent target.fileName token) = (false, made) :=
    (Tree.LeadsTo.trimmed_iff.2 leads).removeFileAt_child_of_missing (temporaryName_ne_empty _ _) free
  rw [if_neg full] at writes
  simp only [stages, makes, writes, removes]
  rfl

/-- The trees through which a target is replaced, if there is room for the temporary file. -/
theorem stages_of_hasRoom (makes : tree.makeDirectoriesAt target.parent.trimmed = (true, made))
    (ordered : made.IsOrdered) (length : token.utf8ByteSize = tokenLength)
    (room : hasRoom target token) :
    stages tree target token content =
      if target.namesFile && made.acceptsFile (place ++ [target.fileName]) then
        (.done, tree.makingsAt target.parent.trimmed ++
          [made.update (place ++ [temporaryName target.fileName token]) (some (.file (.text ""))),
            made.update (place ++ [temporaryName target.fileName token]) (some (.file content)),
            made.update (place ++ [target.fileName]) (some (.file content))])
      else
        (.noFile, tree.makingsAt target.parent.trimmed ++
          [made.update (place ++ [temporaryName target.fileName token]) (some (.file (.text ""))),
            made.update (place ++ [temporaryName target.fileName token]) (some (.file content)),
            made]) := by
  have named := temporaryName_ne_empty target.fileName token
  have usable := (Bool.and_eq_true_iff.1 room).1
  have missing := missing_of_hasRoom leads free room
  have accepts := acceptsFile_of_hasRoom leads free room
  have keeps := fun entry => leads.keep
    (Tree.keepsDirectories_update (Tree.not_hasDirectory_of_acceptsFile accepts) (some entry))
  have found := leads.2.find_update_self (Tree.fits_of_acceptsFile accepts) (.file content)
  have creates := writeAt_temporary leads free (.text "")
  rw [if_pos room] at creates
  have writes : (made.update (place ++ [temporaryName target.fileName token])
      (some (.file (.text "")))).writeAt (temporary target.parent target.fileName token) content =
        (true, made.update (place ++ [temporaryName target.fileName token])
          (some (.file content))) := by
    rw [temporary, (Tree.LeadsTo.trimmed_iff.2 (keeps _)).writeAt_child named usable,
      Tree.write_of_file accepts leads.2]
  -- Taking the temporary file away leaves the tree as it was before.
  have undone : (made.update (place ++ [temporaryName target.fileName token])
      (some (.file content))).update (place ++ [temporaryName target.fileName token]) none =
        made := by
    rw [Tree.update_update_same, ordered.update_none_of_missing missing]
  have removes : (made.update (place ++ [temporaryName target.fileName token])
      (some (.file content))).removeFileAt (temporary target.parent target.fileName token) =
        (true, made) := by
    rw [temporary, (Tree.LeadsTo.trimmed_iff.2 (keeps _)).removeFileAt_child named usable found,
      undone]
  have differs := temporaryName_ne_self target.fileName length
  have renames := (keeps (.file content)).renameAt_target named usable differs found
  rw [undone, leads.2.acceptsFile_update_of_ne differs.symm] at renames
  simp only [stages, makes, creates, writes, show (target.parent.trimmed.child
    (temporaryName target.fileName token)) = temporary target.parent target.fileName token from rfl]
    at renames ⊢
  rw [renames]
  cases target.namesFile && made.acceptsFile (place ++ [target.fileName]) with
  | true => rfl
  | false => simp [removes]

end

/-! ## The step as a whole -/

theorem mem_temporaryName_iff (name : String) (clean : '\x00' ∉ token.toList) :
    '\x00' ∈ (temporaryName name token).toList ↔ '\x00' ∈ name.toList := by
  refine ⟨fun member => ?_, fun member => by simp [temporaryName, member]⟩
  by_contra absent
  exact not_mem_temporaryName absent clean (by decide) member

theorem temporary_child (directory : Path) {name : String} (plain : Path.IsPlain name)
    (token : String) :
    temporary (directory.child name).parent (directory.child name).fileName token =
      temporary directory name token := by
  rw [temporary, temporary, directory.parent_child_trimmed plain, directory.fileName_child]

/-- There is room for a temporary file if there is for any with a token. -/
theorem hasTemporary_eq_hasRoom (directory : Path) {name : String} (plain : Path.IsPlain name)
    (length : token.utf8ByteSize = tokenLength) (clean : '\x00' ∉ token.toList) :
    hasTemporary directory name = hasRoom (directory.child name) token := by
  have zeros : (String.ofList (List.replicate tokenLength '0')).utf8ByteSize = tokenLength := by
    decide
  have noNul : '\x00' ∉ (String.ofList (List.replicate tokenLength '0')).toList := by decide
  have sizes := (utf8ByteSize_temporaryName name zeros).trans
    (utf8ByteSize_temporaryName name length).symm
  have letters := (mem_temporaryName_iff name noNul).trans (mem_temporaryName_iff name clean).symm
  have usable : (temporary directory name (String.ofList (List.replicate tokenLength '0'))).isUsable =
      (temporary directory name token).isUsable := by
    rw [Bool.eq_iff_iff, Path.isUsable_iff_fits, Path.isUsable_iff_fits]
    exact ⟨fun fits => fits.child_of_child (by omega) letters.2,
      fun fits => fits.child_of_child (by omega) letters.1⟩
  rw [hasTemporary, hasRoom, temporary_child directory plain, directory.fileName_child,
    Bool.and_comm, usable, Tree.fits, sizes, Tree.fits]

theorem namesFile_child (directory : Path) {name : String} (named : name ≠ "") :
    (directory.child name).namesFile = (directory.child name).isUsable := by
  have notBlank := Tree.child_text_ne_empty directory named
  have plain : (directory.child name).endsInSlash = false := rfl
  simp [Path.namesFile, Tree.namesEntry_child, plain, notBlank]

/-- What comes of the stages is what the replacement in one step does. -/
theorem replace_eq_stages (ordered : tree.IsOrdered) {directory : Path} {name : String}
    (plain : Path.IsPlain name) (length : token.utf8ByteSize = tokenLength)
    (clean : '\x00' ∉ token.toList)
    (free : (tree.makeDirectoriesAt directory.trimmed).2.kindAt? (temporary directory name token) =
      none) :
    tree.replace directory name content =
      ((stages tree (directory.child name) token content).1,
        (stages tree (directory.child name) token content).2.getLastD tree) := by
  have trimmed := directory.parent_child_trimmed plain
  have named := directory.fileName_child name
  have final := Tree.getLastD_makingsAt tree (directory.child name).parent.trimmed
  rw [← trimmed, ← temporary_child directory plain] at free
  unfold Tree.replace
  rw [← trimmed]
  rcases makes : tree.makeDirectoriesAt (directory.child name).parent.trimmed with ⟨flag, made⟩
  rw [makes] at final free
  cases flag with
  | false =>
      rw [stages_of_not_made (by rw [makes]), final]
      rfl
  | true =>
      by_cases stands : ∃ place, made.LeadsTo (directory.child name).parent place
      · obtain ⟨place, leads⟩ := stands
        have leadsDirectory : made.LeadsTo directory place :=
          Tree.LeadsTo.trimmed_iff.1 (trimmed ▸ Tree.LeadsTo.trimmed_iff.2 leads)
        have orderedMade : made.IsOrdered := by
          simpa only [makes] using ordered.makeDirectoriesAt (directory.child name).parent.trimmed
        have names := namesFile_child directory plain.1
        simp only [leadsDirectory.locate_child plain.1,
          hasTemporary_eq_hasRoom directory plain length clean]
        by_cases room : hasRoom (directory.child name) token
        · rw [stages_of_hasRoom leads free makes orderedMade length room, named, names]
          cases usable : (directory.child name).isUsable with
          | false => simp
          | true =>
              cases accepts : made.acceptsFile (place ++ [name]) <;> simp [room, accepts]
        · rw [stages_of_not_hasRoom leads free makes room]
          cases (directory.child name).isUsable <;> simp [room]
      · have located : ∃ fault, made.locate (directory.child name) = .error fault := by
          cases located : made.locate (directory.child name) with
          | error fault => exact ⟨fault, rfl⟩
          | ok other =>
              obtain ⟨place, leads, -⟩ := Tree.LeadsTo.of_locate_child located
              exact absurd ⟨place, Tree.LeadsTo.trimmed_iff.1
                (trimmed.symm ▸ Tree.LeadsTo.trimmed_iff.2 leads)⟩ stands
        obtain ⟨fault, located⟩ := located
        rw [stages_of_not_leads makes stands]
        simp [located]

/-! ## All or nothing -/

/-- Whether the target is as before in a tree: directories were made, or there is the temporary file
as well. -/
def IsUntouched (tree made : Tree) (target : Path) (token : String) (between : Tree) : Prop :=
  between ∈ tree :: tree.makingsAt target.parent.trimmed ∨
    ∃ place content, made.LeadsTo target.parent place ∧
      made.acceptsFile (place ++ [temporaryName target.fileName token]) ∧
      between = made.update (place ++ [temporaryName target.fileName token]) (some (.file content))

/-- How a replacement ends: either only directories were made, or the last step and no other puts the
file in its place. -/
theorem stages_cases {flag : Bool} (content : Content)
    (makes : tree.makeDirectoriesAt target.parent.trimmed = (flag, made)) (ordered : made.IsOrdered)
    (length : token.utf8ByteSize = tokenLength)
    (free : made.kindAt? (temporary target.parent target.fileName token) = none) :
    ((stages tree target token content).1 ≠ .done ∧
      (stages tree target token content).2.getLastD tree = made ∧
      ∀ between ∈ (stages tree target token content).2,
        IsUntouched tree made target token between) ∨
    ∃ place, (stages tree target token content).1 = .done ∧
      made.LeadsTo target.parent place ∧ target.namesFile ∧
      made.acceptsFile (place ++ [target.fileName]) ∧
      (stages tree target token content).2.getLastD tree =
        made.update (place ++ [target.fileName]) (some (.file content)) ∧
      ∀ between ∈ (stages tree target token content).2,
        IsUntouched tree made target token between ∨
          between = made.update (place ++ [target.fileName]) (some (.file content)) := by
  have final := Tree.getLastD_makingsAt tree target.parent.trimmed
  have madeLast := Tree.mem_makeDirectoriesAt tree target.parent.trimmed
  rw [makes] at final madeLast
  have making : ∀ between ∈ tree.makingsAt target.parent.trimmed,
      IsUntouched tree made target token between := fun between member =>
    .inl (List.mem_cons_of_mem tree member)
  have unwritten : ∀ between ∈ tree.makingsAt target.parent.trimmed ++ [made],
      IsUntouched tree made target token between := by
    intro between member
    rcases List.mem_append.1 member with early | last
    · exact making between early
    · exact .inl (List.mem_singleton.1 last ▸ madeLast)
  cases flag with
  | false =>
      simp only [stages_of_not_made makes]
      exact .inl ⟨by simp, final, making⟩
  | true =>
      by_cases stands : ∃ place, made.LeadsTo target.parent place
      · obtain ⟨place, leads⟩ := stands
        by_cases room : hasRoom target token
        · have accepts := acceptsFile_of_hasRoom leads free room
          have written : ∀ content, IsUntouched tree made target token
              (made.update (place ++ [temporaryName target.fileName token])
                (some (.file content))) := fun content => .inr ⟨place, content, leads, accepts, rfl⟩
          rw [stages_of_hasRoom leads free makes ordered length room]
          split
          · next goes =>
              rw [Bool.and_eq_true] at goes
              refine .inr ⟨place, rfl, leads, goes.1, goes.2, by simp, ?_⟩
              intro between member
              simp only [List.mem_append, List.mem_cons, List.not_mem_nil, or_false] at member
              rcases member with early | rfl | rfl | rfl
              · exact .inl (making between early)
              · exact .inl (written _)
              · exact .inl (written _)
              · exact .inr rfl
          · refine .inl ⟨by simp, by simp, ?_⟩
            intro between member
            simp only [List.mem_append, List.mem_cons, List.not_mem_nil, or_false] at member
            rcases member with early | rfl | rfl | rfl
            · exact making between early
            · exact written _
            · exact written _
            · exact .inl madeLast
        · simp only [stages_of_not_hasRoom leads free makes room]
          exact .inl ⟨by simp, by simp, unwritten⟩
      · simp only [stages_of_not_leads makes stands]
        exact .inl ⟨by simp, by simp, unwritten⟩

/-- The place of a target whose directory stands. -/
theorem placeOf_target (leads : made.LeadsTo target.parent place) (names : target.namesFile) :
    Path.placeOf [] target.steps = place ++ [target.fileName] := by
  simp only [Path.namesFile, Bool.and_eq_true] at names
  rw [Path.steps_of_namesEntry names.1.1.1, Path.placeOf_append, Tree.placeOf_of_follow leads.1]
  rfl

/-- As long as the target is not touched, it looks as before, unless it is a directory on the way to
itself. -/
theorem IsUntouched.look_target {flag : Bool} {between : Tree}
    (makes : tree.makeDirectoriesAt target.parent.trimmed = (flag, made))
    (length : token.utf8ByteSize = tokenLength)
    (untouched : IsUntouched tree made target token between) :
    between.look (Path.placeOf [] target.steps) = tree.look (Path.placeOf [] target.steps) ∨
      tree.look (Path.placeOf [] target.steps) = none ∧
        between.look (Path.placeOf [] target.steps) = some none ∧
        made.HasDirectory (Path.placeOf [] target.steps) ∧
        target.parent.Passes (Path.placeOf [] target.steps) := by
  -- What was made along the way looks as before or is a directory, now and in the end.
  have along : ∀ {other : Tree}, other ∈ tree :: tree.makingsAt target.parent.trimmed →
      other.look (Path.placeOf [] target.steps) = tree.look (Path.placeOf [] target.steps) ∨
        tree.look (Path.placeOf [] target.steps) = none ∧
          other.look (Path.placeOf [] target.steps) = some none ∧
          made.HasDirectory (Path.placeOf [] target.steps) ∧
          target.parent.Passes (Path.placeOf [] target.steps) := by
    intro other member
    obtain ⟨grows, keeps⟩ := Tree.growsAlong_of_mem_makingsAt member
    rw [makes] at keeps
    rcases grows (Path.placeOf [] target.steps) with same | ⟨free, stands, passes⟩
    · exact .inl same
    · exact .inr ⟨free, stands, keeps _ (Tree.look_eq_some_none.1 stands), .of_trimmed passes⟩
  rcases untouched with making | ⟨place, other, leads, accepts, rfl⟩
  · exact along making
  · have apart : Path.placeOf [] target.steps ≠ place ++ [temporaryName target.fileName token] :=
      Tree.placeOf_of_follow leads.1 ▸ target.placeOf_ne_temporary length
    have same := leads.2.look_update (Tree.fits_of_acceptsFile accepts)
      (Tree.not_hasDirectory_of_acceptsFile accepts) (show (Tree.file other).entries = [] from rfl)
      (Path.placeOf [] target.steps)
    rw [if_neg apart] at same
    have madeLast := Tree.mem_makeDirectoriesAt tree target.parent.trimmed
    rw [makes] at madeLast
    rw [same]
    exact along madeLast

/-- The tree in which a file was put at its target. -/
theorem replaced_target (leads : made.LeadsTo target.parent place) (names : target.namesFile)
    (accepts : made.acceptsFile (place ++ [target.fileName])) (content : Content) :
    let last := made.update (place ++ [target.fileName]) (some (.file content))
    last.LeadsTo target.parent place ∧ last.readAt target = .ok content ∧
      ∀ other, last.look other =
        if other = Path.placeOf [] target.steps then some (some content) else made.look other := by
  intro last
  have keeps := leads.keep (Tree.keepsDirectories_update
    (Tree.not_hasDirectory_of_acceptsFile accepts) (some (.file content)))
  have found := leads.2.find_update_self (Tree.fits_of_acceptsFile accepts) (.file content)
  refine ⟨keeps, ?_, fun other => ?_⟩
  · have plain : target.endsInSlash = false := by
      simp only [Path.namesFile, Bool.and_eq_true, Bool.not_eq_true'] at names
      exact names.1.1.2
    simp only [last, Tree.readAt, Tree.findAt, keeps.locate_target names, found, plain]
    rfl
  · rw [placeOf_target leads names]
    exact leads.2.look_update (Tree.fits_of_acceptsFile accepts)
      (Tree.not_hasDirectory_of_acceptsFile accepts) rfl other

/-- While a file is replaced the target looks as before or holds its new content, and in the end all
else is as before except for directories that were made.  Only where the path of the target goes up
through its own missing place a directory comes to stand there, and the replacement fails. -/
theorem all_or_nothing {number : Nat} (content : Content) (ordered : tree.IsOrdered)
    (fresh : (tree.makeDirectoriesAt target.parent.trimmed).2.kindAt?
      (temporary target.parent target.fileName (Identifier.token number)) = none) :
    let run := stages tree target (Identifier.token number) content
    let last := run.2.getLastD tree
    let place := Path.placeOf [] target.steps
    (run.1 = .done → last.readAt target = .ok content ∧ last.look place = some (some content)) ∧
    (∀ other, tree.look other ≠ none → (run.1 = .done → other ≠ place) →
      last.look other = tree.look other) ∧
    (∀ other, tree.look other = none → last.look other ≠ none →
      run.1 = .done ∧ other = place ∨ last.look other = some none ∧ target.parent.Passes other) ∧
    last.kindAt? (temporary target.parent target.fileName (Identifier.token number)) = none ∧
    (∀ between ∈ run.2, between.look place = tree.look place ∨
      run.1 = .done ∧ between.look place = some (some content) ∨
      run.1 ≠ .done ∧ tree.look place = none ∧ between.look place = some none ∧
        target.parent.Passes place) ∧
    ∀ directory name, Path.IsPlain name → target = directory.child name →
      tree.replace directory name content = (run.1, last) := by
  intro run last place
  have length := Identifier.utf8ByteSize_token number
  have clean : '\x00' ∉ (Identifier.token number).toList := by
    intro member
    rw [Identifier.token, String.toList_ofList] at member
    exact (Identifier.utf8Size_of_mem_hexDigits member).2.1 rfl
  have whole : ∀ directory name, Path.IsPlain name → target = directory.child name →
      tree.replace directory name content = (run.1, last) := by
    rintro directory name plain rfl
    rw [directory.parent_child_trimmed plain, temporary_child directory plain] at fresh
    exact replace_eq_stages ordered plain length clean fresh
  have orderedMade := ordered.makeDirectoriesAt target.parent.trimmed
  have grows := (Tree.growsAlong_of_mem_makingsAt
    (Tree.mem_makeDirectoriesAt tree target.parent.trimmed)).1
  rcases makes : tree.makeDirectoriesAt target.parent.trimmed with ⟨flag, made⟩
  rw [makes] at fresh orderedMade grows
  rcases stages_cases content makes orderedMade length fresh with
    ⟨failed, final, untouched⟩ | ⟨above, done, leads, names, accepts, final, touched⟩
  · refine ⟨fun done => absurd done failed, fun other stood _ => ?_, fun other free stands => ?_, ?_,
      fun between member => ?_, whole⟩
    · rw [show last = made from final]
      exact (grows other).resolve_right fun added => stood added.1
    · rw [show last = made from final] at stands ⊢
      rcases grows other with same | ⟨-, isDirectory, passes⟩
      · exact absurd (same.trans free) stands
      · exact .inr ⟨isDirectory, .of_trimmed passes⟩
    · rw [show last = made from final]
      exact fresh
    · rcases (untouched between member).look_target makes length with same | ⟨free, stands, -, passes⟩
      · exact .inl same
      · exact .inr (.inr ⟨failed, free, stands, passes⟩)
  · obtain ⟨keeps, reads, looks⟩ := replaced_target leads names accepts content
    rw [← final] at keeps reads looks
    have here := (looks place).trans (if_pos rfl)
    refine ⟨fun _ => ⟨reads, here⟩, fun other stood differs => ?_, fun other free stands => ?_, ?_,
      fun between member => ?_, whole⟩
    · rw [show last.look other = _ from looks other, if_neg (differs done)]
      exact (grows other).resolve_right fun added => stood added.1
    · by_cases same : other = place
      · exact .inl ⟨done, same⟩
      · rw [show last.look other = _ from looks other, if_neg same] at stands ⊢
        rcases grows other with unchanged | ⟨-, isDirectory, passes⟩
        · exact absurd (unchanged.trans free) stands
        · exact .inr ⟨isDirectory, .of_trimmed passes⟩
    · have same := leads.2.find_update_of_ne (temporaryName_ne_self target.fileName length) [] []
        (some (.file content))
      rw [← fresh]
      exact (Tree.LeadsTo.trimmed_iff.2 leads).kindAt?_congr (Tree.LeadsTo.trimmed_iff.2 keeps)
        (temporaryName_ne_empty _ _) (by rw [show last = _ from final, same])
    · rcases touched between member with untouched | rfl
      · rcases untouched.look_target makes length with same | ⟨-, -, stands, -⟩
        · exact .inl same
        · rw [placeOf_target leads names] at stands
          exact absurd stands (Tree.not_hasDirectory_of_acceptsFile accepts)
      · exact .inr (.inl ⟨done, by rw [← final]; exact here⟩)

theorem all_or_nothing_of_missing_directory :
    let tree : Tree := .directory [("db", .emptyDirectory)]
    let target := Path.ofText "db/new/nodes.json"
    let run := stages tree target (Identifier.token 7) (.text "[]")
    tree.IsOrdered ∧
      (tree.makeDirectoriesAt target.parent.trimmed).2.kindAt?
        (temporary target.parent target.fileName (Identifier.token 7)) = none ∧
      run.1 = .done ∧ (run.2.getLastD tree).readAt target = .ok (.text "[]") ∧
      tree.replace (Path.ofText "db/new") "nodes.json" (.text "[]") =
        (.done, run.2.getLastD tree) := by
  intro tree target run
  have ordered : tree.IsOrdered :=
    Tree.isOrdered_emptyDirectory.insertEntry "db" fun _ => Tree.isOrdered_emptyDirectory
  have fresh : (tree.makeDirectoriesAt target.parent.trimmed).2.kindAt?
      (temporary target.parent target.fileName (Identifier.token 7)) = none := by decide +kernel
  have done : run.1 = .done := by decide +kernel
  obtain ⟨reads, -, -, -, -, whole⟩ := all_or_nothing (.text "[]") ordered fresh
  have plain : Path.IsPlain "nodes.json" := by unfold Path.IsPlain; decide
  refine ⟨ordered, fresh, done, (reads done).1, ?_⟩
  rw [whole (Path.ofText "db/new") "nodes.json" plain (by decide +kernel)]
  exact congrArg (·, run.2.getLastD tree) done

/-- A directory comes to stand where the file should. -/
theorem all_or_nothing_fails_through_target :
    let tree : Tree := .emptyDirectory
    let target := Path.ofText "nodes.json/../nodes.json"
    let run := stages tree target (Identifier.token 7) (.text "[]")
    let place := Path.placeOf [] target.steps
    tree.IsOrdered ∧
      (tree.makeDirectoriesAt target.parent.trimmed).2.kindAt?
        (temporary target.parent target.fileName (Identifier.token 7)) = none ∧
      ¬∀ between ∈ run.2,
        between.look place = tree.look place ∨ between.look place = some (some (.text "[]")) :=
  ⟨Tree.isOrdered_emptyDirectory, by decide +kernel, by decide +kernel⟩

end Replacement
end GraphStore
