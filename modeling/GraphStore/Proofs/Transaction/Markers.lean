import GraphStore.Proofs.Disk.Renames
import GraphStore.Proofs.Store.Creations
import GraphStore.Proofs.Transaction.Changes
import GraphStore.Proofs.Transaction.Writers

/-!
# Markers of workspaces

A workspace belongs to the handle that its marker names.  Replacing collections leaves the marker as
it is, in the workspace itself and in the directory beside it, and a workspace that was staged has
the marker of its owner.
-/

namespace GraphStore

variable {α : Type} {tree : Tree} {path directory : Path} {place : List String} {name file : String}
  {owner : Owner} {workspace : Tree}

namespace Tree

/-- Whether the marker of a workspace names an owner. -/
def IsMarked (tree : Tree) (workspace : Path) (owner : Owner) : Prop :=
  Owner.ofContent? (tree.readAt (workspace.child Owner.file)) = some owner

/-- Whether a path leads to a directory in which a directory stands under a name. -/
structure Shows (tree : Tree) (path : Path) (place : List String) (name : String)
    (workspace : Tree) : Prop where
  leads : tree.LeadsTo path place
  found : tree.find (place ++ [name]) = .ok workspace
  isDirectory : ∃ entries, workspace = .directory entries

/-! ## Marked workspaces -/

theorem LeadsTo.of_child (leads : tree.LeadsTo (path.child name) place) :
    ∃ above, tree.LeadsTo path above ∧ place = above ++ [name] := by
  obtain ⟨follows, stands⟩ := leads
  simp only [Path.child, follow_append] at follows
  split at follows
  · next above reached =>
      rw [follow] at follows
      split at follows
      · next entries found =>
          exact ⟨above, ⟨reached, entries, found⟩, (Except.ok.inj follows).symm⟩
      · cases follows
      · cases follows
  · cases follows

theorem Shows.hasDirectory (shows : tree.Shows path place name workspace) :
    tree.HasDirectory (place ++ [name]) := by
  obtain ⟨entries, rfl⟩ := shows.isDirectory
  exact ⟨entries, shows.found⟩

theorem Shows.leadsTo_child (shows : tree.Shows path place name workspace) :
    tree.LeadsTo (path.child name) (place ++ [name]) :=
  shows.leads.child shows.hasDirectory

/-- A marked workspace is a directory. -/
theorem IsMarked.leadsTo (marked : tree.IsMarked directory owner) :
    ∃ place, tree.LeadsTo directory place ∧ (directory.child Owner.file).isUsable := by
  cases located : tree.locate (directory.child Owner.file) with
  | error fault =>
      rw [IsMarked, readAt, findAt, located] at marked
      cases marked
  | ok target =>
      obtain ⟨place, leads, -, usable⟩ := LeadsTo.of_locate_child located
      exact ⟨place, leads, usable⟩

theorem IsMarked.shows (marked : tree.IsMarked (path.child name) owner) :
    ∃ place workspace, tree.Shows path place name workspace ∧
      Owner.ofContent? (workspace.read [Owner.file]) = some owner := by
  obtain ⟨below, leadsBelow, usable⟩ := marked.leadsTo
  obtain ⟨place, leads, rfl⟩ := leadsBelow.of_child
  obtain ⟨entries, found⟩ := leadsBelow.2
  refine ⟨place, .directory entries, ⟨leads, found, entries, rfl⟩, ?_⟩
  rw [IsMarked, leadsBelow.readAt_child (by decide) usable, read, find_append_of_ok found] at marked
  exact marked

theorem IsMarked.kindAt? (marked : tree.IsMarked (path.child name) owner) (named : name ≠ "") :
    tree.kindAt? (path.child name) = some .directory := by
  obtain ⟨-, -, usable⟩ := marked.leadsTo
  obtain ⟨place, workspace, shows, -⟩ := marked.shows
  rw [shows.leads.kindAt?_child named (Path.isUsable_of_child usable)]
  exact kind?_eq_some_directory.2 shows.hasDirectory

theorem Shows.isMarked (shows : tree.Shows path place name workspace)
    (usable : ((path.child name).child Owner.file).isUsable)
    (marker : Owner.ofContent? (workspace.read [Owner.file]) = some owner) :
    tree.IsMarked (path.child name) owner := by
  rw [IsMarked, shows.leadsTo_child.readAt_child (by decide) usable, read,
    find_append_of_ok shows.found]
  exact marker

theorem Shows.findAt_congr {after : Tree} (shows : tree.Shows path place name workspace)
    (showsAfter : after.Shows path place name workspace) (named : name ≠ "") :
    after.findAt (path.child name) = tree.findAt (path.child name) := by
  cases usable : (path.child name).isUsable with
  | true =>
      rw [shows.leads.findAt_child named usable, showsAfter.leads.findAt_child named usable,
        shows.found, showsAfter.found]
  | false =>
      rw [findAt, findAt, shows.leads.locate_child named, showsAfter.leads.locate_child named,
        usable]
      rfl

/-! ## Replacing files -/

/-- What is replaced beside a workspace leaves the workspace as it is. -/
theorem Shows.replace (shows : tree.Shows path place name workspace) (named : file ≠ "")
    (content : Content) :
    (tree.replace path file content).2.Shows path place name workspace := by
  rcases shows.leads.replace_cases named content with ⟨possible, -, replaced⟩ | ⟨-, -, kept⟩
  · obtain ⟨leads, finds⟩ := shows.leads.replaced content possible
    have differs : name ≠ file := by
      rintro rfl
      exact not_hasDirectory_of_acceptsFile possible.2.2.2 shows.hasDirectory
    rw [replaced]
    refine ⟨leads, ?_, shows.isDirectory⟩
    rw [finds name, if_neg differs, shows.found]
  · rw [kept]
    exact shows

/-- What is replaced in a workspace beside its marker leaves the marker as it is. -/
theorem IsMarked.replace (marked : tree.IsMarked directory owner) (named : file ≠ "")
    (differs : file ≠ Owner.file) (content : Content) :
    (tree.replace directory file content).2.IsMarked directory owner := by
  obtain ⟨place, leads, -⟩ := marked.leadsTo
  rcases leads.replace_cases named content with ⟨possible, -, replaced⟩ | ⟨-, -, kept⟩
  · obtain ⟨leadsAfter, finds⟩ := leads.replaced content possible
    have same := finds Owner.file
    rw [if_neg differs.symm] at same
    rw [replaced, IsMarked, leads.readAt_congr leadsAfter (by decide) same]
    exact marked
  · rw [kept]
    exact marked

end Tree

/-! ## Programs that replace collections -/

/-- Whether an action leaves it as it is which transactions are active or in flight. -/
def Action.IsQuiet : Action → Prop
  | .setLive .. | .setActive .. => False
  | _ => True

/-- Whether an action changes nothing on the disk but a collection of a directory. -/
def Action.Fills (directory : Path) : Action → Prop
  | .replace target name _ => target = directory ∧ name ∈ Collections.files
  | .makeDirectories _ | .rename .. | .removeFile _ | .removeDirectory _ | .removeAll _ => False
  | _ => True

section

variable {action : Action}

theorem Action.IsOnDisk.isQuiet (onDisk : action.IsOnDisk) : action.IsQuiet := by
  cases action <;> trivial

theorem Action.Asks.isQuiet (asks : action.Asks) : action.IsQuiet := by
  cases action <;> trivial

theorem Path.Concerns.isQuiet (concerns : directory.Concerns action) : action.IsQuiet := by
  cases action <;> trivial

theorem Path.Concerns.fills (concerns : directory.Concerns action) : action.Fills directory := by
  cases action <;> first | exact concerns | trivial

end

theorem World.memory_perform {action : Action} (quiet : action.IsQuiet) (world : World) :
    (world.perform action).2.live = world.live ∧
      (world.perform action).2.active = world.active := by
  cases action <;>
    first | exact quiet.elim | simp only [perform, onDisk, changeRegistry, changeGate, and_self]

theorem World.memory_run {program : Program α} (uses : program.Uses Action.IsQuiet)
    (world : World) :
    (world.run program).2.live = world.live ∧ (world.run program).2.active = world.active := by
  refine (Program.passes_of_uses
    (fun other => other.live = world.live ∧ other.active = world.active) uses ?_ ⟨rfl, rfl⟩).run
  rintro other action ⟨live, active⟩ quiet
  obtain ⟨liveAfter, activeAfter⟩ := other.memory_perform quiet
  exact ⟨liveAfter.trans live, activeAfter.trans active⟩

/-- What holds of the disk and is kept whenever a collection is replaced holds afterwards. -/
theorem World.disk_run_of_fills (holds : Tree → Prop) {program : Program α}
    (uses : program.Uses (Action.Fills directory))
    (keeps : ∀ {tree file}, file ∈ Collections.files → ∀ content, holds tree →
      holds (tree.replace directory file content).2) {world : World} (start : holds world.disk) :
    holds (world.run program).2.disk := by
  refine (Program.passes_of_uses (fun world => holds world.disk) uses ?_ start).run
  rintro other action held fills
  cases action with
  | replace target file content =>
      obtain ⟨rfl, member⟩ := fills
      have kept := keeps member content held
      simp only [World.perform, World.onDisk]
      exact kept
  | _ => first | exact fills.elim | exact held

theorem Collections.ne_marker_of_mem_files (member : file ∈ files) : file ≠ Owner.file := by
  rintro rfl
  revert member
  decide

/-- A program that replaces collections of a workspace leaves its marker as it is. -/
theorem Tree.IsMarked.run {world : World} (marked : world.disk.IsMarked directory owner)
    {program : Program α} (uses : program.Uses (Action.Fills directory)) :
    (world.run program).2.disk.IsMarked directory owner :=
  World.disk_run_of_fills (fun disk => disk.IsMarked directory owner) uses
    (fun member content held => held.replace (Collections.ne_empty_of_mem_files member)
      (Collections.ne_marker_of_mem_files member) content) marked

/-- A program that replaces collections beside a workspace leaves the workspace as it is. -/
theorem Tree.Shows.run {world : World} (shows : world.disk.Shows path place name workspace)
    {program : Program α} (uses : program.Uses (Action.Fills path)) :
    (world.run program).2.disk.Shows path place name workspace :=
  World.disk_run_of_fills (fun disk => disk.Shows path place name workspace) uses
    (fun member content held => held.replace (Collections.ne_empty_of_mem_files member) content)
    shows

theorem Tree.IsMarked.run_beside {world : World}
    (marked : world.disk.IsMarked (path.child name) owner) {program : Program α}
    (uses : program.Uses (Action.Fills path)) :
    (world.run program).2.disk.IsMarked (path.child name) owner := by
  obtain ⟨-, -, usable⟩ := marked.leadsTo
  obtain ⟨place, workspace, shows, marker⟩ := marked.shows
  exact (shows.run uses).isMarked usable marker

/-! ## Staging -/

/-- A marked directory that is moved to a shorter name is a marked directory there. -/
theorem Tree.IsMarked.renamed {after : Tree} {staging : String}
    (marked : tree.IsMarked (path.child staging) owner) (plainStaging : Path.IsPlain staging)
    (plain : Path.IsPlain name) (avoids : path.Avoids staging)
    (shorter : name.utf8ByteSize < staging.utf8ByteSize)
    (clean : '\x00' ∈ name.toList → '\x00' ∈ staging.toList)
    (moved : tree.renameAt (path.child staging) (path.child name) = (true, after)) :
    after.IsMarked (path.child name) owner := by
  have differs : staging ≠ name := by
    rintro rfl
    exact Nat.lt_irrefl _ shorter
  obtain ⟨-, -, usable⟩ := marked.leadsTo
  obtain ⟨place, workspace, ⟨leads, found, entries, rfl⟩, marker⟩ := marked.shows
  obtain ⟨-, free, rfl⟩ := leads.of_renameAt_child plainStaging.1 plain.1 differs found moved
  obtain ⟨leadsAfter, foundAfter⟩ := leads.renamed avoids differs free
  have shows : Tree.Shows _ path place name _ := ⟨leadsAfter, foundAfter, entries, rfl⟩
  exact shows.isMarked
    (Path.isUsable_child_child plain plainStaging (Nat.le_of_lt shorter) clean usable) marker

/-- A workspace that was staged has the marker of its owner. -/
theorem Workspace.isMarked_of_stage {staging : String} {world after : World}
    (plainStaging : Path.IsPlain staging) (plain : Path.IsPlain name)
    (avoids : path.Avoids staging)
    (shorter : name.utf8ByteSize < staging.utf8ByteSize)
    (clean : '\x00' ∈ name.toList → '\x00' ∈ staging.toList) (small : owner.process < 2 ^ 32)
    (ran : (stage owner path (path.child staging) (path.child name)).runWith World.perform world =
      (.ok (), after)) :
    after.disk.IsMarked (path.child name) owner := by
  rw [stage] at ran
  obtain ⟨made, withDirectory, making, ran⟩ := Task.of_runWith_bind_eq_ok ran
  cases made with
  | false => cases ran
  | true =>
      obtain ⟨_, withMarker, marking, ran⟩ := Task.of_runWith_bind_eq_ok ran
      obtain ⟨_, withCopies, copying, ran⟩ := Task.of_runWith_bind_eq_ok ran
      obtain ⟨moved, withWorkspace, moving, ran⟩ := Task.of_runWith_bind_eq_ok ran
      cases moved with
      | false => cases ran
      | true =>
          cases ran
          have made : world.onDisk (fun disk => disk.makeDirectoriesAt (path.child staging)) =
              (true, withDirectory) := Task.of_runWith_perform_eq_ok making
          obtain ⟨below, leads⟩ := Tree.LeadsTo.of_makeDirectoriesAt (World.of_onDisk_eq made)
          obtain ⟨possible, written⟩ := Document.runWith_replace_eq_ok leads (by decide) marking
          have marked : withMarker.disk.IsMarked (path.child staging) owner := by
            obtain ⟨leadsAfter, finds⟩ := leads.replaced (.text owner.markerText) possible
            have found := finds Owner.file
            rw [if_pos rfl, ← written] at found
            rw [← written] at leadsAfter
            rw [Tree.IsMarked, leadsAfter.readAt_child (by decide) possible.2.1, Tree.read, found]
            exact Owner.ofContent?_markerText small
          have copied : withCopies.disk.IsMarked (path.child staging) owner := by
            have uses : (copyCollections path (path.child staging)).run.Uses
                (Action.Fills (path.child staging)) :=
              uses_copyFiles trivial fun member => ⟨rfl, member⟩
            have kept := marked.run uses
            rw [Program.run_eq_runWith, Task.runWith_run, copying] at kept
            exact kept
          have moved : withCopies.onDisk (fun disk => disk.renameAt (path.child staging)
              (path.child name)) = (true, after) := Task.of_runWith_perform_eq_ok moving
          exact copied.renamed plainStaging plain avoids shorter clean (World.of_onDisk_eq moved)

end GraphStore
