import GraphStore.Proofs.Disk.Renames
import GraphStore.Proofs.Transaction.Workspaces

/-!
# Missing directories

A path that does not go up leads to a directory, comes upon a file, or lacks a directory.  In the
last case the directory can be made, and is empty then.  So a file that can be read in a directory,
or is missing there, can be replaced.
-/

namespace GraphStore

/-- Whether a step does not go up, and leads to a name that may be that of an entry. -/
def Step.Descends : Step → Prop
  | .down name => Tree.fits name
  | .stay => True
  | .up => False

instance (step : Step) : Decidable step.Descends := by
  cases step <;> unfold Step.Descends <;> infer_instance

/-- Whether no step of a path goes up, and all its names may be those of entries. -/
def Path.Descends (path : Path) : Prop :=
  ∀ step ∈ path.steps, step.Descends

instance (path : Path) : Decidable path.Descends :=
  inferInstanceAs (Decidable (∀ step ∈ path.steps, step.Descends))

/-! ## Trimmed paths -/

theorem Text.splitAt_append (separator : Char) (front back : List Char) :
    splitAt separator (front ++ separator :: back) =
      splitAt separator front ++ splitAt separator back := by
  induction front with
  | nil => simp [splitAt]
  | cons c rest ih =>
      rw [List.cons_append, splitAt, splitAt]
      by_cases same : c = separator
      · rw [if_pos same, if_pos same, ih, List.cons_append]
      · rw [if_neg same, if_neg same, ih]
        cases split : splitAt separator rest with
        | nil => exact absurd split (splitAt_ne_nil separator rest)
        | cons first others => rfl

/-- The path of an entry has nothing at its end that is trimmed. -/
theorem Path.text_trimmed_child (base : Path) {name : String} (plain : IsPlain name) :
    (base.child name).trimmed.text = (base.child name).text := by
  obtain ⟨notEmpty, notDot, -, noSlash⟩ := plain
  have single := Text.splitAt_of_not_mem noSlash
  have ends : ∃ front, Text.splitAt '/' (base.child name).text.toList = front ++ [name.toList] := by
    by_cases bare : base.text = ""
    · refine ⟨[], ?_⟩
      rw [child, joinText, if_pos (.inl bare), bare, String.empty_append, single, List.nil_append]
    · by_cases slash : textEndsInSlash base.text
      · obtain ⟨front, text⟩ := List.getLast?_eq_some_iff.1 (beq_iff_eq.1 slash)
        refine ⟨Text.splitAt '/' front, ?_⟩
        rw [child, joinText, if_pos (.inr slash), String.toList_append, text, List.append_assoc,
          List.singleton_append, Text.splitAt_append, single]
      · refine ⟨Text.splitAt '/' base.text.toList, ?_⟩
        rw [child, joinText, if_neg (not_or.2 ⟨bare, slash⟩), String.toList_append,
          String.toList_append, List.append_assoc,
          show "/".toList ++ name.toList = '/' :: name.toList from rfl, Text.splitAt_append, single]
  obtain ⟨front, split⟩ := ends
  have kept : (List.map String.ofList (Text.splitAt '/' (base.child name).text.toList)).reverse.dropWhile
      (fun part => decide (part = "" ∨ part = ".")) =
      (List.map String.ofList (Text.splitAt '/' (base.child name).text.toList)).reverse := by
    rw [split, List.map_append, List.reverse_append, List.map_singleton, String.ofList_toList,
      List.reverse_singleton, List.singleton_append,
      List.dropWhile_cons_of_neg (by simp [notEmpty, notDot])]
  have whole := Text.joinWith_splitAt '/' (base.child name).text.toList
  rw [trimmed, trimText]
  simp only [kept, List.reverse_reverse]
  rw [if_neg (by simp [Text.splitAt_ne_nil])]
  exact String.toList_injective whole

/-- Where an entry leaves room, an entry with another name leaves the room by which its name is
shorter as well. -/
theorem Path.Fits.child_of_child {base : Path} {first second : String} {extra more : Nat}
    (fits : (base.child first).Fits extra)
    (less : second.utf8ByteSize + more ≤ first.utf8ByteSize + extra)
    (clean : '\x00' ∈ second.toList → '\x00' ∈ first.toList) : (base.child second).Fits more := by
  rw [Path.Fits, Path.child] at fits ⊢
  unfold joinText at fits ⊢
  split at fits
  · next bare =>
      rw [if_pos bare]
      simp only [String.utf8ByteSize_append, String.toList_append, List.mem_append] at fits ⊢
      exact ⟨by omega, fun inside => fits.2 (by tauto)⟩
  · next bare =>
      rw [if_neg bare]
      simp only [String.utf8ByteSize_append, String.toList_append, List.mem_append] at fits ⊢
      exact ⟨by omega, fun inside => fits.2 (by tauto)⟩

/-- A directory has room for its entries and for what they have room for. -/
theorem Path.Fits.of_child {base : Path} {name : String} {extra : Nat}
    (fits : (base.child name).Fits extra) : base.Fits (name.utf8ByteSize + extra) := by
  refine ⟨?_, (isUsable_iff_fits.1 (isUsable_of_child fits.isUsable)).2⟩
  have less := utf8ByteSize_le_child base name
  have short := fits.1
  omega

/-- Where temporary paths are short enough, the directory has room for their names. -/
theorem Replacement.fits_of_hasTemporary {directory : Path} {name : String}
    (has : hasTemporary directory name) :
    directory.trimmed.Fits (name.utf8ByteSize + temporaryExtra) := by
  have zeros : (String.ofList (List.replicate tokenLength '0')).utf8ByteSize = tokenLength := by
    decide
  rw [hasTemporary, Bool.and_eq_true, Path.isUsable_iff_fits] at has
  obtain ⟨-, short, clean⟩ := has
  refine ⟨?_, fun unclean => clean ?_⟩
  · have longer := Path.utf8ByteSize_le_child directory.trimmed
      (temporaryName name (String.ofList (List.replicate tokenLength '0')))
    rw [utf8ByteSize_temporaryName name zeros] at longer
    rw [temporary, Nat.add_zero] at short
    exact longer.trans short
  · simp only [temporary, Path.child, Path.joinText]
    split <;> simp [unclean]

namespace Tree

variable {tree after : Tree} {path : Path} {place target : List String} {file : String}
  {steps : List Step}

/-- Whether steps cannot be taken, or lead nowhere, because a directory is missing. -/
def Lacks (tree : Tree) (place : List String) (steps : List Step) : Prop :=
  tree.follow place steps = .error .missing ∨
    ∃ target, tree.follow place steps = .ok target ∧ tree.find target = .error .missing

theorem not_lacks_nil (stands : tree.HasDirectory place) : ¬tree.Lacks place [] := by
  rintro (follows | ⟨target, follows, missing⟩)
  · cases follows
  · cases follows
    obtain ⟨entries, found⟩ := stands
    rw [found] at missing
    cases missing

/-- What is lacking after a step that can be taken is lacking there. -/
theorem Lacks.of_cons {step : Step} (lacks : tree.Lacks place (step :: steps))
    (stands : tree.HasDirectory place) : tree.Lacks (step.follow place) steps := by
  obtain ⟨entries, found⟩ := stands
  simpa only [Lacks, follow, found] using lacks

/-- A step at which something is lacking comes upon a directory or upon nothing. -/
theorem Lacks.find_cases (lacks : tree.Lacks place steps) :
    tree.HasDirectory place ∨ tree.find place = .error .missing := by
  cases steps with
  | nil =>
      rcases lacks with follows | ⟨target, follows, missing⟩
      · cases follows
      · cases follows
        exact .inr missing
  | cons step rest =>
      cases found : tree.find place with
      | error fault =>
          cases fault with
          | missing => exact .inr rfl
          | obstructed => simp [Lacks, follow, found] at lacks
      | ok entry =>
          cases entry with
          | directory entries => exact .inl ⟨entries, found⟩
          | file content => simp [Lacks, follow, found] at lacks

theorem Lacks.root (lacks : tree.Lacks [] steps) : tree.HasDirectory [] := by
  refine lacks.find_cases.resolve_right fun missing => ?_
  rw [find_nil] at missing
  cases missing

/-- Missing directories are made along steps that do not go up, and the last one is empty. -/
theorem makeAlong_of_lacks
    (bare : tree.find place = .ok emptyDirectory ∨
      tree.HasDirectory place ∧ tree.Lacks place steps)
    (descends : ∀ step ∈ steps, step.Descends) (moves : ∀ init, steps ≠ init ++ [.stay]) :
    ∃ after target, tree.makeAlong place steps = (true, after) ∧
      after.follow place steps = .ok target ∧ after.find target = .ok emptyDirectory := by
  induction steps generalizing tree place with
  | nil =>
      rcases bare with empty | ⟨stands, lacks⟩
      · exact ⟨tree, place, rfl, rfl, empty⟩
      · exact absurd lacks (not_lacks_nil stands)
  | cons step rest ih =>
      have stands : tree.HasDirectory place := bare.elim (fun empty => ⟨[], empty⟩) And.left
      have moves' : ∀ init, rest ≠ init ++ [.stay] := fun init same =>
        moves (step :: init) (congrArg (step :: ·) same)
      -- The step is taken in the tree or in the one with a new directory.
      have goes : ∀ {next : Tree},
          tree.makeAlong place (step :: rest) = next.makeAlong (step.follow place) rest →
          (next.find (step.follow place) = .ok emptyDirectory ∨
            next.HasDirectory (step.follow place) ∧ next.Lacks (step.follow place) rest) →
          ∃ after target, tree.makeAlong place (step :: rest) = (true, after) ∧
            after.follow place (step :: rest) = .ok target ∧
            after.find target = .ok emptyDirectory := by
        intro next same bare
        obtain ⟨after, target, made, follows, empty⟩ :=
          ih bare (fun other member => descends other (List.mem_cons_of_mem step member)) moves'
        rw [← same] at made
        obtain ⟨entries, found⟩ := (makeAlong_eq_true stands made).1 place stands
        refine ⟨after, target, made, ?_, empty⟩
        simp only [follow, found]
        exact follows
      cases step with
      | up => exact absurd (descends .up List.mem_cons_self) id
      | stay =>
          have stays : tree.makeAlong place (.stay :: rest) = tree.makeAlong place rest := by
            obtain ⟨entries, found⟩ := stands
            simp only [makeAlong, Step.follow, found]
          exact goes stays (bare.imp id fun both => ⟨both.1, both.2.of_cons both.1⟩)
      | down name =>
          have short : fits name := descends (.down name) List.mem_cons_self
          have taken : ∀ {entries}, tree.find (place ++ [name]) = .ok (.directory entries) →
              tree.makeAlong place (.down name :: rest) = tree.makeAlong (place ++ [name]) rest := by
            intro entries found
            simp only [makeAlong, Step.follow, found]
          have goesOn : (rest != [] && rest.all (· == .stay)) = false := by
            by_contra all
            simp only [Bool.not_eq_false, Bool.and_eq_true, bne_iff_ne, List.all_eq_true,
              beq_iff_eq] at all
            obtain ⟨nonempty, stays⟩ := all
            refine moves' rest.dropLast ?_
            rw [← stays _ (List.getLast_mem nonempty), List.dropLast_append_getLast]
          have new : tree.find (place ++ [name]) = .error .missing →
              ∃ after target, tree.makeAlong place (.down name :: rest) = (true, after) ∧
                after.follow place (.down name :: rest) = .ok target ∧
                after.find target = .ok emptyDirectory := by
            intro missing
            have made : tree.makeAlong place (.down name :: rest) =
                (tree.update (place ++ [name]) (some emptyDirectory)).makeAlong (place ++ [name])
                  rest := by
              simp only [makeAlong, Step.follow, missing, goesOn]
              rfl
            exact goes made (.inl (stands.find_update_self short emptyDirectory))
          rcases bare with empty | ⟨-, lacks⟩
          · refine new ?_
            rw [find_append_of_ok empty, emptyDirectory, find_singleton, if_pos short]
            rfl
          · have lacks := lacks.of_cons stands
            rcases lacks.find_cases with ⟨entries, found⟩ | missing
            · exact goes (taken found) (.inr ⟨⟨entries, found⟩, lacks⟩)
            · exact new missing

/-- Where all steps are taken and something else than dots follows, what follows is made next. -/
theorem makeAlong_append_of_made {more : List Step}
    (made : tree.makeAlong place steps = (true, after)) (moves : ∃ step ∈ more, step ≠ .stay) :
    tree.makeAlong place (steps ++ more) = after.makeAlong (Path.placeOf place steps) more := by
  induction steps generalizing tree place with
  | nil =>
      obtain rfl := congrArg Prod.snd made
      rfl
  | cons step rest ih =>
      have goesOn : (rest ++ more != [] && (rest ++ more).all (· == .stay)) = false := by
        obtain ⟨other, member, differs⟩ := moves
        refine Bool.and_eq_false_imp.2 fun _ => List.all_eq_false.2 ⟨other, ?_, ?_⟩
        · exact List.mem_append_right rest member
        · simpa using differs
      simp only [List.cons_append, makeAlong, goesOn] at made ⊢
      split at made
      · exact ih made
      · split at made
        · cases made
        · exact ih made
      · cases made

/-- Whether steps cannot be taken, or lead to no directory, because something is in the way. -/
def Obstructs (tree : Tree) (place : List String) (steps : List Step) : Prop :=
  tree.follow place steps = .error .obstructed ∨
    ∃ target, tree.follow place steps = .ok target ∧ ¬tree.HasDirectory target ∧
      tree.find target ≠ .error .missing

/-- A path leads to a directory, or one is missing, or something is in the way. -/
theorem leadsTo_or_lacks_or_obstructs (tree : Tree) (path : Path) :
    (∃ place, tree.LeadsTo path place) ∨ tree.Lacks [] path.steps ∨
      tree.Obstructs [] path.steps := by
  cases follows : tree.follow [] path.steps with
  | error fault =>
      cases fault with
      | missing => exact .inr (.inl (.inl follows))
      | obstructed => exact .inr (.inr (.inl follows))
  | ok target =>
      by_cases stands : tree.HasDirectory target
      · exact .inl ⟨target, follows, stands⟩
      · by_cases missing : tree.find target = .error .missing
        · exact .inr (.inl (.inr ⟨target, follows, missing⟩))
        · exact .inr (.inr (.inr ⟨target, follows, stands, missing⟩))

/-- Where something is in the way, nothing is made. -/
theorem Obstructs.makeAlong_append (obstructs : tree.Obstructs place steps)
    (stands : tree.HasDirectory place) (more : List Step) :
    tree.makeAlong place (steps ++ more) = (false, tree) := by
  induction steps generalizing place with
  | nil =>
      rcases obstructs with follows | ⟨target, follows, none, -⟩
      · cases follows
      · cases follows
        exact absurd stands none
  | cons step rest ih =>
      obtain ⟨entries, found⟩ := stands
      have next : tree.Obstructs (step.follow place) rest := by
        simpa only [Obstructs, follow, found] using obstructs
      simp only [List.cons_append, makeAlong]
      split
      · next others there => exact ih next ⟨others, there⟩
      · next missing =>
          -- What is missing is not in the way.
          rcases next with follows | ⟨target, follows, -, present⟩
          · cases rest <;> simp [follow, missing] at follows
          · cases rest with
            | nil =>
                cases follows
                exact absurd missing present
            | cons other rest => simp [follow, missing] at follows
      · rfl

/-! ## Written forms -/

theorem follow_stays (stands : tree.HasDirectory place) (count : Nat) :
    tree.follow place (List.replicate count .stay) = .ok place := by
  obtain ⟨entries, found⟩ := stands
  induction count with
  | zero => rfl
  | succ count ih =>
      rw [List.replicate_succ, follow, found]
      exact ih

/-- A path is its trimmed form, and then stays where it is. -/
theorem exists_trimmed_append_stays (path : Path) :
    ∃ count, path.steps = path.trimmed.steps ++ List.replicate count .stay := by
  refine ⟨(path.steps.reverse.takeWhile (· == .stay)).length, ?_⟩
  have stays : path.steps.reverse.takeWhile (· == .stay) =
      List.replicate (path.steps.reverse.takeWhile (· == .stay)).length .stay :=
    List.eq_replicate_iff.2 ⟨rfl, fun step member =>
      beq_iff_eq.1 (List.all_eq_true.1 List.all_takeWhile step member)⟩
  have split := List.takeWhile_append_dropWhile (p := (· == Step.stay)) (l := path.steps.reverse)
  rw [stays] at split
  have whole := congrArg List.reverse split
  rw [List.reverse_append, List.reverse_reverse, List.reverse_replicate] at whole
  exact whole.symm

theorem trimmed_moves (path : Path) (init : List Step) : path.trimmed.steps ≠ init ++ [.stay] := by
  intro same
  have first : path.steps.reverse.dropWhile (· == .stay) = .stay :: init.reverse := by
    have reversed := congrArg List.reverse same
    rwa [Path.trimmed, List.reverse_reverse, List.reverse_append] at reversed
  have other := List.head_dropWhile_not (· == Step.stay)
    (show path.steps.reverse.dropWhile (· == .stay) ≠ [] from first ▸ List.cons_ne_nil _ _)
  simp [first] at other

/-- Below something that is in the way no directory is made. -/
theorem Obstructs.makeDirectoriesAt_child (obstructs : tree.Obstructs [] path.steps)
    (name : String) : tree.makeDirectoriesAt (path.child name) = (false, tree) := by
  rw [makeDirectoriesAt]
  split
  · cases tree with
    | directory entries => exact obstructs.makeAlong_append ⟨entries, rfl⟩ [.down name]
    | file content =>
        obtain ⟨step, rest, same⟩ := List.exists_cons_of_ne_nil
          (List.append_ne_nil_of_right_ne_nil path.steps (List.cons_ne_nil (Step.down name) []))
        rw [Path.child, same]
        exact makeAlong_file content step rest
  · rfl

/-- A missing directory is made as an entry of a directory that stands or is made with it. -/
theorem makeDirectoriesAt_child_of_made {made : Tree} {name : String}
    (makes : tree.makeDirectoriesAt path.trimmed = (true, made)) (leads : made.LeadsTo path place)
    (usable : (path.child name).isUsable)
    (missing : made.find (place ++ [name]) = .error .missing) :
    tree.makeDirectoriesAt (path.child name) =
      (true, made.update (place ++ [name]) (some emptyDirectory)) := by
  rw [makeDirectoriesAt] at makes
  split at makes
  · obtain ⟨count, whole⟩ := exists_trimmed_append_stays path
    obtain ⟨follows, stands⟩ := leads
    -- The steps that stay do so where the others lead.
    have reached : made.follow (Path.placeOf [] path.trimmed.steps)
        (List.replicate count .stay) = .ok place := by
      have trimmed := follow_dropStays follows
      rw [whole, follow_append, show made.follow [] path.trimmed.steps = .ok place from trimmed]
        at follows
      rwa [placeOf_of_follow (show made.follow [] path.trimmed.steps = .ok place from trimmed)]
    have last : made.makeAlong place [.down name] =
        (true, made.update (place ++ [name]) (some emptyDirectory)) := by
      simp only [makeAlong, Step.follow, missing]
      rfl
    rw [makeDirectoriesAt, if_pos usable, Path.child, whole, List.append_assoc,
      makeAlong_append_of_made makes ⟨.down name, by simp, by simp⟩,
      makeAlong_append reached stands, last]
  · cases makes

/-! ## Replacing files -/

/-- Whether files of a directory can be replaced as far as its path is concerned: the directory
stands, or the path does not go up. -/
def Receives (tree : Tree) (path : Path) : Prop :=
  (∃ place, tree.LeadsTo path place) ∨ path.Descends

/-- A directory that is missing is made, and is empty. -/
theorem LeadsTo.of_lacks (lacks : tree.Lacks [] path.steps) (descends : path.Descends)
    (usable : path.trimmed.isUsable) :
    ∃ after place, tree.makeDirectoriesAt path.trimmed = (true, after) ∧
      after.LeadsTo path place ∧ after.find place = .ok emptyDirectory := by
  have root := lacks.root
  obtain ⟨count, whole⟩ := exists_trimmed_append_stays path
  have descendsTrimmed : ∀ step ∈ path.trimmed.steps, step.Descends := fun step member =>
    descends step (whole ▸ List.mem_append_left _ member)
  have lacksTrimmed : tree.Lacks [] path.trimmed.steps := by
    simp only [whole, Lacks, follow_append] at lacks
    cases follows : tree.follow [] path.trimmed.steps with
    | error fault =>
        rw [follows] at lacks
        exact .inl (follows.trans (lacks.elim id fun ⟨_, other, _⟩ => nomatch other))
    | ok target =>
        rw [follows] at lacks
        refine .inr ⟨target, follows, ?_⟩
        have there : tree.Lacks target (List.replicate count .stay) := lacks
        refine there.find_cases.resolve_left fun stands => ?_
        rw [Lacks, follow_stays stands] at there
        exact not_lacks_nil stands there
  obtain ⟨after, target, made, follows, empty⟩ :=
    makeAlong_of_lacks (.inr ⟨root, lacksTrimmed⟩) descendsTrimmed (trimmed_moves path)
  refine ⟨after, target, ?_, ⟨?_, [], empty⟩, empty⟩
  · rw [makeDirectoriesAt, if_pos usable, made]
  · rw [whole, follow_append, follows]
    exact follow_stays ⟨[], empty⟩ count

/-- What is read below a directory. -/
theorem readAt_child_eq (named : file ≠ "") (usable : (path.child file).isUsable) :
    tree.readAt (path.child file) =
      match tree.follow [] (path.child file).steps with
      | .ok place => tree.read place
      | .error fault => .error fault := by
  have located : tree.locate (path.child file) = tree.follow [] (path.child file).steps := by
    rw [locate, usable, if_neg (child_text_ne_empty path named)]
    rfl
  rw [readAt, findAt, located]
  cases tree.follow [] (path.child file).steps with
  | error fault => rfl
  | ok place =>
      simp only [Path.child, Bool.false_eq_true, if_false, read]
      cases tree.find place with
      | error fault => rfl
      | ok entry => cases entry <;> rfl

theorem Lacks.follow_child (lacks : tree.Lacks [] path.steps) (name : String) :
    tree.follow [] (path.child name).steps = .error .missing := by
  rw [Path.child, follow_append]
  rcases lacks with follows | ⟨target, follows, missing⟩
  · rw [follows]
  · simp only [follows, follow, missing]

/-- No file can be read in a directory that is missing. -/
theorem Lacks.readAt_child (lacks : tree.Lacks [] path.steps) (named : file ≠ "")
    (usable : (path.child file).isUsable) : tree.readAt (path.child file) = .error .missing := by
  rw [readAt_child_eq named usable, lacks.follow_child file]

/-- Below something that is in the way no file can be read, and none is missing. -/
theorem Obstructs.readAt_child (obstructs : tree.Obstructs [] path.steps) (named : file ≠ "")
    (usable : (path.child file).isUsable) :
    tree.readAt (path.child file) = .error .obstructed := by
  rw [readAt_child_eq named usable, Path.child, follow_append]
  rcases obstructs with follows | ⟨target, follows, none, present⟩
  · rw [follows]
  · cases found : tree.find target with
    | error fault =>
        cases fault with
        | missing => exact absurd found present
        | obstructed => simp only [follows, follow, found]
    | ok entry =>
        cases entry with
        | directory entries => exact absurd ⟨entries, found⟩ none
        | file content => simp only [follows, follow, found]

/-- Where a file can be read or is missing, its directory stands or is missing. -/
theorem leadsTo_or_lacks (named : file ≠ "") (usable : (path.child file).isUsable)
    (readable : tree.readAt (path.child file) ≠ .error .obstructed) :
    (∃ place, tree.LeadsTo path place) ∨ tree.Lacks [] path.steps := by
  rcases leadsTo_or_lacks_or_obstructs tree path with leads | lacks | obstructs
  · exact .inl leads
  · exact .inr lacks
  · exact absurd (obstructs.readAt_child named usable) readable

/-- A directory that is missing can only receive files if its path does not go up. -/
theorem Receives.descends (receives : tree.Receives path) (lacks : tree.Lacks [] path.steps) :
    path.Descends :=
  receives.resolve_left fun ⟨place, follows, entries, found⟩ => by
    rcases lacks with stops | ⟨target, followsThere, missing⟩
    · rw [follows] at stops
      cases stops
    · rw [← Except.ok.inj (follows.symm.trans followsThere), found] at missing
      cases missing

/-- Where nothing is in the way, a directory stands, or it can be made and is empty then. -/
theorem Receives.prepared (receives : tree.Receives path) (usable : path.trimmed.isUsable)
    (free : (∃ place, tree.LeadsTo path place) ∨ tree.Lacks [] path.steps) :
    ∃ made place, tree.makeDirectoriesAt path.trimmed = (true, made) ∧ made.LeadsTo path place ∧
      (made = tree ∨ made.find place = .ok emptyDirectory) := by
  rcases free with ⟨place, leads⟩ | lacks
  · exact ⟨tree, place, leads.makeDirectoriesAt_trimmed.trans (by rw [usable]), leads, .inl rfl⟩
  · obtain ⟨made, place, makes, leads, empty⟩ :=
      LeadsTo.of_lacks lacks (receives.descends lacks) usable
    exact ⟨made, place, makes, leads, .inr empty⟩

theorem LeadsTo.fits_of_child {name : String} (leads : tree.LeadsTo (path.child name) target) :
    fits name := by
  obtain ⟨follows, entries, found⟩ := leads
  rw [Path.child, follow_append] at follows
  cases above : tree.follow [] path.steps with
  | error fault =>
      rw [above] at follows
      cases follows
  | ok between =>
      simp only [above, follow] at follows
      split at follows
      · next others stands =>
          obtain rfl := Except.ok.inj follows
          exact HasDirectory.fits_of_ok ⟨others, stands⟩ found
      · cases follows
      · cases follows

/-- A directory that is made below one that stands or is made with it is empty. -/
theorem Receives.of_makeDirectoriesAt_child (receives : tree.Receives path) {name : String}
    (named : name ≠ "") (free : tree.kindAt? (path.child name) = none)
    (made : tree.makeDirectoriesAt (path.child name) = (true, after)) :
    ∃ place, after.LeadsTo (path.child name) place ∧ after.list place = .ok [] := by
  rcases leadsTo_or_lacks_or_obstructs tree path with ⟨place, leads⟩ | lacks | obstructs
  · obtain ⟨-, leadsAfter, empty⟩ := leads.of_makeDirectoriesAt_child named free made
    exact ⟨_, leadsAfter, empty⟩
  · have lacksChild : tree.Lacks [] (path.child name).steps := .inl (lacks.follow_child name)
    obtain ⟨_, leadsAfter⟩ := LeadsTo.of_makeDirectoriesAt made
    have descends : ∀ step ∈ (path.child name).steps, step.Descends :=
      List.forall_mem_append.2 ⟨receives.descends lacks,
        List.forall_mem_singleton.2 leadsAfter.fits_of_child⟩
    obtain ⟨_, place, makes, follows, empty⟩ := makeAlong_of_lacks (.inr ⟨lacks.root, lacksChild⟩)
      descends fun init same => by simp [Path.child] at same
    rw [makeDirectoriesAt] at made
    split at made
    · obtain rfl := (Prod.mk.inj (makes.symm.trans made)).2
      exact ⟨place, ⟨follows, [], empty⟩, by rw [list, empty]; rfl⟩
    · cases made
  · rw [obstructs.makeDirectoriesAt_child] at made
    cases made

/-- A directory in which a file can be read, or is missing, stands or can be made.  Files that
cannot be read there could not be read before. -/
theorem Receives.made (receives : tree.Receives path) (fits : path.Fits Workspace.fileRoom)
    (member : file ∈ Workspace.names)
    (readable : tree.readAt (path.child file) ≠ .error .obstructed) :
    ∃ made place, tree.makeDirectoriesAt path.trimmed = (true, made) ∧ made.LeadsTo path place ∧
      ∀ other ∈ Workspace.names, tree.readAt (path.child other) ≠ .error .obstructed →
        made.read (place ++ [other]) ≠ .error .obstructed := by
  obtain ⟨made, place, makes, leads, same⟩ := receives.prepared fits.trimmed.isUsable
    (leadsTo_or_lacks (Workspace.ne_empty_of_mem_names member)
      (Workspace.isUsable_child fits member) readable)
  refine ⟨made, place, makes, leads, fun other memberOther readableOther => ?_⟩
  rcases same with rfl | empty
  · rwa [leads.readAt_child (Workspace.ne_empty_of_mem_names memberOther)
      (Workspace.isUsable_child fits memberOther)] at readableOther
  · rw [read, find_append_of_ok empty, emptyDirectory, find_singleton,
      if_pos (fits_of_mem_names memberOther)]
    rintro ⟨⟩

/-- A file of a directory that stands or can be made is replaced, if it can be read or is missing.
The others can be read after it if they could before. -/
theorem Receives.replace (receives : tree.Receives path) (fits : path.Fits Workspace.fileRoom)
    (member : file ∈ Workspace.names)
    (readable : tree.readAt (path.child file) ≠ .error .obstructed) (content : Content) :
    ∃ after, tree.replace path file content = (.done, after) ∧
      (∃ place, after.LeadsTo path place) ∧
      ∀ other ∈ Workspace.names, tree.readAt (path.child other) ≠ .error .obstructed →
        after.readAt (path.child other) ≠ .error .obstructed := by
  obtain ⟨made, place, makes, leads, reads⟩ := receives.made fits member readable
  have possible : made.CanReplace path place file := Workspace.canReplace_of_fits fits member
    (leads.2.acceptsFile_of_read (reads file member readable))
  obtain ⟨leadsAfter, finds⟩ := leads.replaced content possible
  refine ⟨made.update (place ++ [file]) (some (.file content)), ?_, ⟨place, leadsAfter⟩, ?_⟩
  · obtain ⟨-, usable, temporary, accepts⟩ := possible
    simp [Tree.replace, makes, leads.locate_child (Workspace.ne_empty_of_mem_names member), usable,
      temporary, accepts]
  · intro other memberOther readableOther
    rw [leadsAfter.readAt_child (Workspace.ne_empty_of_mem_names memberOther)
      (Workspace.isUsable_child fits memberOther), read, finds]
    by_cases same : other = file
    · rw [if_pos same]
      rintro ⟨⟩
    · rw [if_neg same]
      exact reads other memberOther readableOther

/-- Another file of a directory in which one can be read is replaced, or nothing is changed. -/
theorem Receives.replace_cases {other : String} (receives : tree.Receives path)
    (fits : path.Fits Workspace.fileRoom) (member : file ∈ Workspace.names)
    (readable : tree.readAt (path.child file) ≠ .error .obstructed)
    (memberOther : other ∈ Workspace.names) (content : Content) :
    (∃ after, tree.replace path other content = (.done, after)) ∨
      ∃ reason, tree.replace path other content = (reason, tree) := by
  have named := Workspace.ne_empty_of_mem_names memberOther
  rcases leadsTo_or_lacks (Workspace.ne_empty_of_mem_names member)
    (Workspace.isUsable_child fits member) readable with ⟨place, leads⟩ | lacks
  · rcases leads.replace_cases named content with ⟨-, -, replaced⟩ | ⟨-, -, same⟩
    · exact .inl ⟨_, replaced⟩
    · exact .inr ⟨_, same⟩
  · have missing := lacks.readAt_child named (Workspace.isUsable_child fits memberOther)
    obtain ⟨after, replaced, -⟩ := receives.replace fits memberOther
      (by rw [missing]; rintro ⟨⟩) content
    exact .inl ⟨after, replaced⟩

/-- Replacing a file leaves the other ones of a directory that stands or can be made as they are. -/
theorem Receives.readAt_replace_of_ne {name other : String} (receives : tree.Receives path)
    (named : name ≠ "") (namedOther : other ≠ "") (short : fits other) (differs : other ≠ name)
    (readable : tree.readAt (path.child other) ≠ .error .obstructed) {content : Content}
    {after : Tree} (replaced : tree.replace path name content = (.done, after)) :
    after.readAt (path.child other) = tree.readAt (path.child other) := by
  have usable : (path.child other).isUsable := by
    by_contra unusable
    exact readable (by simp [readAt, findAt, locate, unusable])
  have usableTrimmed : path.trimmed.isUsable := by
    by_contra unusable
    simp [Tree.replace, makeDirectoriesAt, unusable] at replaced
  have free := leadsTo_or_lacks namedOther usable readable
  obtain ⟨made, place, makes, leads, -⟩ := receives.prepared usableTrimmed free
  have unchanged : made.readAt (path.child other) = tree.readAt (path.child other) := by
    rcases free with ⟨there, stands⟩ | lacks
    · rw [stands.makeDirectoriesAt_trimmed, usableTrimmed] at makes
      rw [(Prod.mk.inj makes).2]
    · obtain ⟨_, _, makesEmpty, leadsEmpty, same⟩ := receives.prepared usableTrimmed (.inr lacks)
      obtain rfl := (Prod.mk.inj (makes.symm.trans makesEmpty)).2
      rcases same with rfl | empty
      · rfl
      · rw [lacks.readAt_child namedOther usable, leadsEmpty.readAt_child namedOther usable, read,
          find_append_of_ok empty, emptyDirectory, find_singleton, if_pos short]
        rfl
  have sameReplace : tree.replace path name content = made.replace path name content := by
    simp only [Tree.replace, makes, leads.makeDirectoriesAt_trimmed, usableTrimmed]
  rw [sameReplace] at replaced
  rcases leads.replace_cases named content with ⟨possible, -, done⟩ | ⟨-, refused, kept⟩
  · obtain ⟨leadsAfter, finds⟩ := leads.replaced content possible
    rw [done] at replaced
    obtain rfl := (Prod.mk.inj replaced).2
    rw [leads.readAt_congr leadsAfter namedOther (by rw [finds, if_neg differs]), unchanged]
  · rw [kept] at replaced
    exact absurd (Prod.mk.inj replaced).1 refused

end Tree
end GraphStore
