import GraphStore.Proofs.Program.Traces
import GraphStore.Proofs.Transaction.Openings

/-!
# Removing workspaces

Whatever stands in the place of a workspace, and wherever its removal stops, nothing but what is at
or below that place has changed.  The end of a transaction and the opening of a handle both remove
workspaces.
-/

namespace GraphStore

/-! ## Changes below one entry -/

namespace Tree

variable {tree other mid after : Tree} {place target : List String} {name : String}
  {steps : List Step}

/-- Where steps lead does not depend on the tree, as long as they can be taken. -/
theorem follow_unique {otherTarget : List String} (leads : tree.follow place steps = .ok target)
    (leadsThere : other.follow place steps = .ok otherTarget) : target = otherTarget := by
  induction steps generalizing place with
  | nil => exact Except.ok.inj (leads.symm.trans leadsThere)
  | cons step rest ih =>
      rw [follow] at leads leadsThere
      split at leads
      · split at leadsThere
        · exact ih leads leadsThere
        · cases leadsThere
        · cases leadsThere
      · cases leads
      · cases leads

/-- What is found after an entry was taken away was there before, a directory perhaps with other
entries. -/
theorem exists_find_of_update_none {entry : Tree} {there : List String}
    (found : (tree.update place none).find there = .ok entry) :
    ∃ earlier, tree.find there = .ok earlier ∧
      (earlier = entry ∨ ∃ entries others, earlier = .directory entries ∧
        entry = .directory others) := by
  induction there generalizing tree place with
  | nil =>
      obtain rfl := Except.ok.inj ((find_nil _).symm.trans found)
      cases tree with
      | file content => exact ⟨_, find_nil _, .inl (by rw [Tree.update])⟩
      | directory entries =>
          obtain ⟨others, same⟩ := update_directory entries place none
          exact ⟨_, find_nil _, .inr ⟨entries, others, rfl, same⟩⟩
  | cons first more ih =>
      cases tree with
      | file content =>
          rw [Tree.update] at found
          exact ⟨entry, found, .inl rfl⟩
      | directory entries =>
          cases place with
          | nil => exact ⟨entry, found, .inl rfl⟩
          | cons name rest =>
              by_cases same : first = name
              · subst same
                cases rest with
                | nil =>
                    rw [Tree.update, find, lookup_setEntry, if_pos rfl] at found
                    split at found <;> cases found
                | cons next rest =>
                    rw [Tree.update] at found
                    split at found
                    · exact ⟨entry, found, .inl rfl⟩
                    · next child looked =>
                        rw [find, SortedMap.lookup_insertEntry, if_pos rfl] at found
                        rw [find, looked]
                        split at found
                        · next short =>
                            rw [if_pos short]
                            exact ih found
                        · cases found
              · rw [find_update_of_ne entries same] at found
                exact ⟨entry, found, .inl rfl⟩

/-- Taking an entry away makes no directory. -/
theorem HasDirectory.of_update_none {place other : List String}
    (stands : (tree.update place none).HasDirectory other) : tree.HasDirectory other := by
  obtain ⟨entries, found⟩ := stands
  obtain ⟨earlier, there, same | ⟨others, -, same, -⟩⟩ := exists_find_of_update_none found
  · exact ⟨entries, same ▸ there⟩
  · exact ⟨others, same ▸ there⟩

/-- What alters only one entry keeps the directories that stand without it. -/
theorem AltersOnly.keepsDirectories (alters : AltersOnly place name mid after)
    (stands : mid.HasDirectory place) :
    (mid.update (place ++ [name]) none).KeepsDirectories after := by
  refine alters.keeps _ ?_ fun _ => HasDirectory.of_update_none
  rintro ⟨entries, found⟩
  cases short : fits name with
  | true =>
      rw [stands.find_update_none short] at found
      cases found
  | false =>
      have above : ¬place ++ [name] <+: place := fun below => absurd below.length_le (by simp)
      obtain ⟨others, here⟩ := stands.update above none
      rw [find_append_of_ok here, find_singleton, if_neg (by simp [short])] at found
      cases found

theorem AltersOnly.hasDirectory (alters : AltersOnly place name mid after)
    (stands : mid.HasDirectory place) {other : List String} (standsThere : mid.HasDirectory other)
    (apart : ¬place ++ [name] <+: other) : after.HasDirectory other :=
  alters.keepsDirectories stands other (standsThere.update apart none)

/-- Directories that are made along a path, after what is at or below one entry has changed, are at
or below this entry. -/
theorem AltersOnly.makeAlong {from_ : List String} (alters : AltersOnly place name mid tree)
    (stands : mid.HasDirectory place) (leads : mid.follow from_ steps = .ok target)
    (standsThere : mid.HasDirectory target) :
    AltersOnly place name mid (tree.makeAlong from_ steps).2 := by
  induction steps generalizing from_ tree with
  | nil => exact alters
  | cons step rest ih =>
      rw [follow] at leads
      split at leads
      · next here =>
          have next : mid.HasDirectory (step.follow from_) := by
            cases rest with
            | nil => exact Except.ok.inj leads ▸ standsThere
            | cons other rest =>
                rw [follow] at leads
                split at leads
                · next found => exact ⟨_, found⟩
                · cases leads
                · cases leads
          rw [Tree.makeAlong]
          split
          · exact ih alters leads
          · next missing =>
              split
              · exact alters
              · refine ih (alters.trans ?_) leads
                have below : place ++ [name] <+: step.follow from_ := by
                  by_contra apart
                  obtain ⟨entries, found⟩ := alters.hasDirectory stands next apart
                  rw [found] at missing
                  cases missing
                obtain ⟨more, same⟩ := below
                rw [← same, List.append_assoc]
                exact alters.stands.altersOnly name more _
          · exact alters
      · cases leads
      · cases leads

end Tree

/-! ## Removals -/

/-- Whether an action at most removes a workspace or one of its entries, or asks or notes something. -/
def Action.Cleans (workspace : Path) : Action → Prop
  | .removeFile path | .removeAll path => ∃ entry, path = workspace.child entry
  | .removeDirectory path => path = workspace
  | .read _ | .kind _ | .list _ | .isActive _ | .setActive .. | .isLive _ | .setLive .. |
    .ownProcess | .isRunning _ | .fresh => True
  | _ => False

/-- Whether an action removes a workspace or one of its entries, or asks what there is. -/
def Action.Removes (workspace : Path) : Action → Prop
  | .removeFile path | .removeAll path => ∃ entry, path = workspace.child entry
  | .removeDirectory path => path = workspace
  | .kind _ | .list _ => True
  | _ => False

theorem Action.Removes.cleans {workspace : Path} {action : Action}
    (removes : action.Removes workspace) : action.Cleans workspace := by
  cases action <;> first | exact removes | exact removes.elim

/-- Whether an action only asks something. -/
def Action.Asks : Action → Prop
  | .read _ | .kind _ | .list _ | .isActive _ | .isLive _ | .ownProcess | .isRunning _ => True
  | _ => False

theorem Action.Asks.cleans {workspace : Path} {action : Action} (asks : action.Asks) :
    action.Cleans workspace := by
  cases action <;> trivial

namespace Tree

variable {mid : Tree} {base : Path} {place : List String} {name : String} {world : World}

/-- What cleans a workspace alters nothing else, even if the path of its directory leads through the
workspace. -/
theorem AltersOnly.cleaned (alters : AltersOnly place name mid world.disk)
    (leads : mid.LeadsTo base place) {action : Action}
    (cleans : action.Cleans (base.child name)) :
    AltersOnly place name mid (world.perform action).2.disk := by
  -- An entry of the workspace is only found below the workspace.
  have below : ∀ {entry target}, world.disk.locate ((base.child name).child entry) = .ok target →
      target = place ++ [name] ++ [entry] := by
    intro entry target located
    have follows := follow_of_locate located
    simp only [Path.child, List.append_assoc, follow_append] at follows
    split at follows
    · next reached =>
        obtain rfl := follow_unique leads.1 reached
        simp only [follow] at follows
        split at follows
        · next between stepped =>
            split at stepped
            · obtain rfl := Except.ok.inj stepped
              split at follows
              · exact (Except.ok.inj follows).symm
              · cases follows
              · cases follows
            · cases stepped
            · cases stepped
        · cases follows
    · cases follows
  have removed : ∀ {more : List String}, AltersOnly place name mid
      (world.disk.update (place ++ name :: more) none) := fun {more} =>
    alters.trans (alters.stands.altersOnly name more none)
  cases action with
  | removeFile path =>
      obtain ⟨entry, rfl⟩ := cleans
      simp only [World.perform, World.onDisk, removeFileAt, changeAt, namesEntry_child]
      split
      · exact alters
      · split
        · next target located =>
            obtain rfl := below located
            simp only [if_true, removeFile]
            split
            · rw [List.append_assoc]
              exact removed
            · exact alters
        · exact alters
  | removeAll path =>
      obtain ⟨entry, rfl⟩ := cleans
      simp only [World.perform, World.onDisk, removeAllAt, namesEntry_child]
      split
      · next target located =>
          obtain rfl := below located
          simp only [if_true, removeAll]
          split
          · rw [List.append_assoc]
            exact removed
          · exact alters
      · exact alters
  | removeDirectory path =>
      obtain rfl := cleans
      simp only [World.perform, World.onDisk, removeDirectoryAt, changeAt, namesEntry_child]
      split
      · next target located =>
          have follows := follow_of_locate located
          simp only [Path.child, follow_append] at follows
          split at follows
          · next reached =>
              obtain rfl := follow_unique leads.1 reached
              rw [follow] at follows
              split at follows
              · obtain rfl := (Except.ok.inj follows).symm
                simp only [if_true, removeDirectory, Step.follow]
                split
                · exact removed
                · exact alters
              · cases follows
              · cases follows
          · cases follows
      · exact alters
  | _ => first | exact cleans.elim | exact alters

end Tree

namespace Workspace

theorem uses_removeEntries (directory : Path) (names : List String) :
    (removeEntries directory names).run.Uses (Action.Removes directory) := by
  induction names with
  | nil => trivial
  | cons name rest ih =>
      have remove : ∀ removed : Bool, Program.Uses (Action.Removes directory)
          (if removed then removeEntries directory rest
            else throw (.io (directory.child name).text) : Task StorageError Unit).run := by
        intro removed
        split
        · exact ih
        · trivial
      refine Program.uses_taskBind (Program.uses_lift (Program.uses_perform trivial)) fun kind => ?_
      split
      · exact Program.uses_taskBind (Program.uses_lift (Program.uses_perform ⟨name, rfl⟩)) remove
      · exact Program.uses_taskBind (Program.uses_lift (Program.uses_perform ⟨name, rfl⟩)) remove

theorem uses_cleanup (workspace : Path) :
    (cleanup workspace).run.Uses (Action.Removes workspace) := by
  refine Program.uses_taskBind (Program.uses_lift (Program.uses_perform trivial)) fun answer => ?_
  cases answer with
  | ok names =>
      refine Program.uses_taskBind (uses_removeEntries workspace names) fun _ => ?_
      refine Program.uses_taskBind (Program.uses_lift (Program.uses_perform rfl)) fun _ => ?_
      split <;> trivial
  | error fault => cases fault <;> trivial

end Workspace

theorem Owner.uses_read (workspace : Path) : (Owner.read workspace).Uses Action.Asks :=
  Program.uses_bind (Program.uses_perform trivial) fun _ => trivial

namespace TransactionManager

variable (manager : TransactionManager)

theorem uses_finish : manager.finish.run.Uses (Action.Cleans manager.workspace) := by
  have conclude : ∀ result : Except StorageError Unit,
      Program.Uses (Action.Cleans manager.workspace) (do
        ExceptT.lift (manager.setActive false)
        ExceptT.lift (manager.setLive false)
        Task.mapError .storage (ExceptT.mk (pure result)) : Task TransactionError Unit).run := by
    intro result
    refine Program.uses_taskBind (Program.uses_lift (Program.uses_perform trivial)) fun _ => ?_
    refine Program.uses_taskBind (Program.uses_lift (Program.uses_perform trivial)) fun _ => ?_
    exact Program.uses_mapError _ trivial
  have read : (Owner.read manager.workspace).Uses (Action.Cleans manager.workspace) :=
    (Owner.uses_read manager.workspace).mono Action.Asks.cleans
  refine Program.uses_taskBind (Program.uses_lift read) fun owner => ?_
  split
  · exact conclude (.ok ())
  · have cleanup := (Workspace.uses_cleanup manager.workspace).mono Action.Removes.cleans
    exact Program.uses_taskBind (Program.uses_lift cleanup) conclude

/-- What a recovery does is to ask and to clean up. -/
theorem uses_recover {allowed : Action → Prop} (asks : ∀ {action}, action.Asks → allowed action)
    (cleans : ∀ {action}, action.Removes manager.workspace → allowed action) :
    manager.recover.run.Uses allowed := by
  have cleanup := (Workspace.uses_cleanup manager.workspace).mono cleans
  have remove : Program.Uses allowed (do
      Task.mapError .storage (Workspace.cleanup manager.workspace)
      return true : Task TransactionError Bool).run :=
    Program.uses_taskBind (Program.uses_mapError _ cleanup) fun _ => trivial
  have ask : ∀ {action : Action}, action.Asks → (Program.perform action).Uses allowed :=
    fun asked => Program.uses_perform (asks asked)
  refine Program.uses_taskBind (Program.uses_lift (ask trivial)) fun active => ?_
  split
  · trivial
  · have stands : manager.workspaceExists.Uses allowed :=
      Program.uses_bind (ask trivial) fun _ => trivial
    refine Program.uses_taskBind (Program.uses_lift stands) fun stands => ?_
    split
    · trivial
    · have read := (Owner.uses_read manager.workspace).mono asks
      refine Program.uses_taskBind (Program.uses_lift read) fun owner => ?_
      cases owner with
      | none => exact remove
      | some owner =>
          have alive : owner.isAlive.Uses allowed := by
            refine Program.uses_bind (ask trivial) fun process => ?_
            split <;> exact ask trivial
          refine Program.uses_taskBind (Program.uses_lift alive) fun alive => ?_
          split
          · trivial
          · exact remove

end TransactionManager

namespace Database

variable {path : Path} {settings : Settings}

/-- Opening a handle makes its directory, draws a number, asks and cleans up. -/
theorem uses_open {allowed : Action → Prop} (path : Path) (settings : Settings)
    (asks : ∀ {action}, action.Asks → allowed action)
    (others : settings.isValid → allowed .fresh ∧ allowed (.makeDirectories path) ∧
      ∀ {action}, action.Removes (path.join settings.workspaceName) → allowed action) :
    (Database.open path settings).run.Uses allowed := by
  unfold Database.open
  split
  · trivial
  · next valid =>
      rw [Bool.not_eq_true, Bool.not_eq_false'] at valid
      obtain ⟨fresh, make, cleans⟩ := others valid
      refine Program.uses_taskBind (Program.uses_lift (Program.uses_perform make)) fun made => ?_
      split
      · trivial
      · refine ⟨fresh, fun number => ⟨asks trivial, fun process => ?_⟩⟩
        have recover := (TransactionManager.mk path settings.workspaceName
          ⟨process, Identifier.ofNumber number⟩).uses_recover asks cleans
        exact Program.uses_taskBind (Program.uses_mapError DatabaseError.transaction recover)
          fun _ => trivial

/-- Opening a handle alters nothing in its directory but the workspace. -/
theorem altersOnly_open {mid : Tree} {place : List String} {world : World}
    (leads : mid.LeadsTo path place)
    (alters : Tree.AltersOnly place settings.workspaceName mid world.disk) :
    Tree.AltersOnly place settings.workspaceName mid
      (world.run (Database.open path settings).run).2.disk := by
  let allowed := fun action : Action =>
    action = .makeDirectories path ∨ action.Cleans (path.child settings.workspaceName)
  have uses : (Database.open path settings).run.Uses allowed := by
    refine uses_open path settings (fun asks => .inr asks.cleans) fun valid => ?_
    rw [Path.join_of_isPlain path (Settings.isPlain_of_isPlainName valid)]
    exact ⟨.inr trivial, .inl rfl, fun removes => .inr removes.cleans⟩
  refine (Program.passes_of_uses (fun world => Tree.AltersOnly place settings.workspaceName mid
    world.disk) uses ?_ alters).run
  rintro world action alters (rfl | cleans)
  · simp only [World.perform, World.onDisk, Tree.makeDirectoriesAt]
    split
    · exact alters.makeAlong leads.2 leads.1 leads.2
    · exact alters
  · exact alters.cleaned leads cleans

end Database
end GraphStore
