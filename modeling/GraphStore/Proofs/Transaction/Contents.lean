import GraphStore.Proofs.Transaction.Exclusion
import GraphStore.Proofs.Transaction.Publications

/-!
# What the files of a directory hold

A directory is seen through the contents of its files.  What a transaction does to its workspace
leaves them as they are in the directory of the database, wherever it stops, also if the workspace
has the name of a collection: then it is no file there, before, meanwhile and afterwards.
-/

namespace GraphStore

variable {path : Path} {place : List String} {name : String} {names : List String}
  {start before after tree : Tree} {file : String}

/-! ## Contents -/

namespace Tree

/-- The content of a file of a directory; what cannot be read has none. -/
def contents (tree : Tree) (directory : Path) (file : String) : Option Content :=
  (tree.readAt (directory.child file)).toOption

/-- Whether no file stands at a place. -/
def HasNoFile (tree : Tree) (place : List String) : Prop :=
  ∀ content, tree.find place ≠ .ok (.file content)

theorem readAt_of_contents {content : Content} (holds : tree.contents path file = some content) :
    tree.readAt (path.child file) = .ok content := by
  rw [contents] at holds
  cases read : tree.readAt (path.child file) with
  | ok other =>
      rw [read] at holds
      exact congrArg _ (Option.some.inj holds)
  | error fault =>
      rw [read] at holds
      cases holds

theorem LeadsTo.contents_eq_some (leads : tree.LeadsTo path place) (named : file ≠ "")
    {content : Content} :
    tree.contents path file = some content ↔
      (path.child file).isUsable ∧ tree.find (place ++ [file]) = .ok (.file content) := by
  constructor
  · intro holds
    have read := readAt_of_contents holds
    cases usable : (path.child file).isUsable with
    | false =>
        rw [leads.readAt_child_of_not_usable named usable] at read
        cases read
    | true =>
        rw [leads.readAt_child named usable, Tree.read] at read
        refine ⟨rfl, ?_⟩
        split at read
        · next found =>
            rw [found]
            exact congrArg _ (congrArg _ (Except.ok.inj read))
        · cases read
        · cases read
  · rintro ⟨usable, found⟩
    rw [contents, leads.readAt_child named usable, Tree.read, found]
    rfl

theorem LeadsTo.contents_eq_none (leads : tree.LeadsTo path place) (named : file ≠ "")
    (noFile : tree.HasNoFile (place ++ [file])) : tree.contents path file = none :=
  Option.eq_none_iff_forall_ne_some.2 fun content holds =>
    noFile content ((leads.contents_eq_some named).1 holds).2

theorem HasDirectory.hasNoFile (stands : tree.HasDirectory place) : tree.HasNoFile place := by
  obtain ⟨entries, found⟩ := stands
  intro content there
  rw [found] at there
  cases there

theorem HasNoFile.update_none (noFile : tree.HasNoFile place) (other : List String) :
    (tree.update other none).HasNoFile place := by
  intro content found
  obtain ⟨earlier, there, rfl | ⟨_, _, _, same⟩⟩ := exists_find_of_update_none found
  · exact noFile content there
  · cases same

/-! ## Entries that may change -/

theorem AltersOnly.leadsTo (alters : AltersOnly place name before after)
    (leads : before.LeadsTo path place) (avoids : path.Avoids name) :
    after.LeadsTo path place :=
  (leads.update_of_avoids avoids none).keep (alters.keepsDirectories leads.2)

/-- Whether a directory still stands, and nothing has changed in it but what is at or below some of
its entries. -/
structure Spares (path : Path) (place : List String) (names : List String) (before after : Tree) :
    Prop where
  leads : after.LeadsTo path place
  same : ∀ other, other ∉ names → ∀ more,
    after.find (place ++ other :: more) = before.find (place ++ other :: more)

theorem Spares.refl (leads : tree.LeadsTo path place) (names : List String) :
    Spares path place names tree tree :=
  ⟨leads, fun _ _ _ => rfl⟩

theorem Spares.alter (spares : Spares path place names start before)
    (alters : AltersOnly place name before after) (member : name ∈ names)
    (avoids : path.Avoids name) : Spares path place names start after := by
  refine ⟨alters.leadsTo spares.leads avoids, fun other outside more => ?_⟩
  rw [alters.same other (fun equal => outside (equal ▸ member)) more]
  exact spares.same other outside more

theorem Spares.mono (spares : Spares path place names start after) {more : List String}
    (subset : names ⊆ more) : Spares path place more start after :=
  ⟨spares.leads, fun other outside => spares.same other fun member => outside (subset member)⟩

theorem Spares.readAt (spares : Spares path place names before after)
    (leads : before.LeadsTo path place) (named : file ≠ "") (outside : file ∉ names) :
    after.readAt (path.child file) = before.readAt (path.child file) :=
  leads.readAt_congr spares.leads named (spares.same file outside [])

/-- What the files of a directory hold is the same if no file stands where something may change. -/
theorem Spares.contents (spares : Spares path place names before after)
    (leads : before.LeadsTo path place) (named : file ≠ "")
    (noFile : file ∈ names → before.HasNoFile (place ++ [file]) ∧
      after.HasNoFile (place ++ [file])) :
    after.contents path file = before.contents path file := by
  by_cases inside : file ∈ names
  · obtain ⟨noneBefore, noneAfter⟩ := noFile inside
    rw [leads.contents_eq_none named noneBefore, spares.leads.contents_eq_none named noneAfter]
  · rw [Tree.contents, spares.readAt leads named inside]
    rfl

/-! ## Replacing files -/

/-- Replacing a file of a directory changes what this file holds or nothing. -/
theorem LeadsTo.contents_replace (leads : tree.LeadsTo path place) (named : file ≠ "")
    (content : Content) :
    (tree.replace path file content = (tree.replacement path file, tree) ∧
        tree.replacement path file ≠ .done) ∨
      ∃ after, tree.replace path file content = (.done, after) ∧
        tree.replacement path file = .done ∧
        ∀ other, other ≠ "" → after.contents path other =
          if other = file then some content else tree.contents path other := by
  rcases leads.replace_cases named content with ⟨possible, done, replaced⟩ | ⟨-, refused, kept⟩
  · refine .inr ⟨_, replaced, done, fun other namedOther => ?_⟩
    obtain ⟨leadsAfter, finds⟩ := leads.replaced content possible
    split
    · next same =>
        subst same
        exact (leadsAfter.contents_eq_some named).2 ⟨possible.2.1, by rw [finds, if_pos rfl]⟩
    · next differs =>
        have same := finds other
        rw [if_neg differs] at same
        rw [contents, leads.readAt_congr leadsAfter namedOther same]
        rfl
  · exact .inl ⟨kept, refused⟩

/-- Replacing a file of an entry alters only this entry. -/
theorem LeadsTo.replace_child (leads : tree.LeadsTo (path.child name) (place ++ [name]))
    (named : file ≠ "") (content : Content) :
    AltersOnly place name tree (tree.replace (path.child name) file content).2 ∧
      (tree.replace (path.child name) file content).2.LeadsTo (path.child name)
        (place ++ [name]) := by
  have stands : tree.HasDirectory place := leads.2.of_append
  rcases leads.replace_cases named content with ⟨possible, -, replaced⟩ | ⟨-, -, kept⟩
  · rw [replaced]
    refine ⟨?_, (leads.replaced content possible).1⟩
    rw [List.append_assoc]
    exact stands.altersOnly name [file] _
  · rw [kept]
    exact ⟨.refl stands name, leads⟩

end Tree

/-! ## Programs that change a workspace -/

/-- What cleans a workspace makes no file. -/
theorem Tree.HasNoFile.cleaned {world : World} {action : Action} {workspace : Path}
    (noFile : world.disk.HasNoFile place) (cleans : action.Cleans workspace) :
    (world.perform action).2.disk.HasNoFile place := by
  cases action with
  | removeFile path =>
      obtain ⟨entry, rfl⟩ := cleans
      simp only [World.perform, World.onDisk, removeFileAt, changeAt, removeFile]
      repeat' split
      all_goals first | exact noFile | exact noFile.update_none _
  | removeAll path =>
      obtain ⟨entry, rfl⟩ := cleans
      simp only [World.perform, World.onDisk, removeAllAt, namesEntry_child, removeAll]
      repeat' split
      all_goals first | exact noFile | exact noFile.update_none _ | contradiction
  | removeDirectory path =>
      simp only [World.perform, World.onDisk, removeDirectoryAt, changeAt, removeDirectory]
      repeat' split
      all_goals first | exact noFile | exact noFile.update_none _
  | _ => first | exact cleans.elim | exact noFile

namespace Program

variable {α : Type} {world : World} {program : Program α}

/-- What cleans an entry spares the others. -/
theorem passes_cleans (uses : program.Uses (Action.Cleans (path.child name)))
    (spares : Tree.Spares path place names start world.disk) (member : name ∈ names)
    (avoids : path.Avoids name) :
    program.Passes (fun stopped => Tree.Spares path place names start stopped.disk)
      (fun _ after => Tree.Spares path place names start after.disk) world := by
  refine (passes_of_uses (fun stopped : World => Tree.AltersOnly place name world.disk stopped.disk)
    uses (fun alters cleans => alters.cleaned spares.leads cleans)
    (.refl spares.leads.2 name)).mono ?_ ?_
  · exact fun alters => spares.alter alters member avoids
  · exact fun alters => spares.alter alters member avoids

/-- What replaces collections of a workspace spares the entries beside it, and the workspace stays a
directory. -/
theorem passes_fills_child (uses : program.Uses (Action.Fills (path.child name)))
    (leads : world.disk.LeadsTo path place) (avoids : path.Avoids name)
    (leadsThere : world.disk.LeadsTo (path.child name) (place ++ [name])) :
    program.Passes
      (fun stopped => Tree.Spares path place [name] world.disk stopped.disk ∧
        stopped.disk.LeadsTo (path.child name) (place ++ [name]))
      (fun _ after => Tree.Spares path place [name] world.disk after.disk ∧
        after.disk.LeadsTo (path.child name) (place ++ [name])) world := by
  refine (passes_of_uses (fun stopped : World => Tree.AltersOnly place name world.disk stopped.disk ∧
    stopped.disk.LeadsTo (path.child name) (place ++ [name])) uses ?_
    ⟨.refl leads.2 name, leadsThere⟩).mono ?_ ?_
  · rintro stopped action ⟨alters, there⟩ fills
    cases action with
    | replace target file content =>
        obtain ⟨rfl, member⟩ := fills
        obtain ⟨more, thereAfter⟩ :=
          there.replace_child (Collections.ne_empty_of_mem_files member) content
        simp only [World.perform, World.onDisk]
        exact ⟨alters.trans more, thereAfter⟩
    | _ => first | exact fills.elim | exact ⟨alters, there⟩
  · rintro stopped ⟨alters, there⟩
    exact ⟨(Tree.Spares.refl leads _).alter alters List.mem_cons_self avoids, there⟩
  · rintro - after ⟨alters, there⟩
    exact ⟨(Tree.Spares.refl leads _).alter alters List.mem_cons_self avoids, there⟩

end Program
end GraphStore
