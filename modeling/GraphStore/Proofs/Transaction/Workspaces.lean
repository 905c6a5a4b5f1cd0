import GraphStore.Proofs.Disk.Entries
import GraphStore.Proofs.Disk.Lengths
import GraphStore.Proofs.Program.Runs
import GraphStore.Proofs.Store.Holdings

/-!
# Workspaces on disk

A workspace is a directory of files: the marker of its owner and copies of the collections.  Copying
goes file by file, and removing goes entry by entry.
-/

namespace GraphStore

/-- What reading each collection answers. -/
abbrev Snapshot : Type :=
  String → Except Fault Content

namespace Snapshot

/-- No collection is there. -/
def missing : Snapshot :=
  fun _ => .error .missing

/-- The snapshot in which a file has a content. -/
def put (snapshot : Snapshot) (name : String) (content : Content) : Snapshot :=
  fun other => if other = name then .ok content else snapshot other

theorem put_ne_error {snapshot : Snapshot} {name other : String} {content : Content} {fault : Fault}
    (allowed : snapshot other ≠ .error fault) : snapshot.put name content other ≠ .error fault := by
  unfold put
  split
  · rintro ⟨⟩
  · exact allowed

/-- Whether every collection is a file or missing. -/
def IsRegular (snapshot : Snapshot) : Prop :=
  ∀ name ∈ Collections.files, snapshot name ≠ .error .obstructed

theorem IsRegular.put {snapshot : Snapshot} (regular : snapshot.IsRegular) (name : String)
    (content : Content) : (snapshot.put name content).IsRegular :=
  fun other member => put_ne_error (regular other member)

/-- Whether every collection of another snapshot is in a snapshot, too. -/
def Covers (snapshot other : Snapshot) : Prop :=
  ∀ name ∈ Collections.files, snapshot name = .error .missing → other name = .error .missing

theorem Covers.put {snapshot other : Snapshot} (covers : snapshot.Covers other) (name : String)
    (content : Content) : (snapshot.put name content).Covers other := by
  intro file member missing
  refine covers file member ?_
  by_cases present : snapshot file = .error .missing
  · exact present
  · exact absurd missing (put_ne_error present)

/-- What is in a snapshot after some files of another one were copied to it. -/
def overlay (target source : Snapshot) : List String → Snapshot
  | [] => target
  | name :: rest =>
    match source name with
    | .ok content => overlay (target.put name content) source rest
    | .error _ => overlay target source rest

theorem overlay_apply (target source : Snapshot) (names : List String) (name : String) :
    target.overlay source names name =
      if name ∈ names then
        match source name with
        | .ok content => .ok content
        | .error _ => target name
      else target name := by
  induction names generalizing target with
  | nil => simp [overlay]
  | cons first rest ih =>
      rw [overlay]
      cases found : source first with
      | ok content =>
          simp only [ih, put]
          by_cases same : name = first
          · subst same
            simp [found]
          · simp [same]
      | error fault =>
          simp only [ih]
          by_cases same : name = first
          · subst same
            simp [found]
          · simp [same]

/-- Copying all collections of a snapshot to another one that it covers gives the snapshot. -/
theorem overlay_of_covers {target source : Snapshot} (regular : source.IsRegular)
    (covers : source.Covers target) {name : String} (member : name ∈ Collections.files) :
    target.overlay source Collections.files name = source name := by
  rw [overlay_apply, if_pos member]
  cases read : source name with
  | ok content => rfl
  | error fault =>
      cases fault with
      | missing => exact covers name member read
      | obstructed => exact absurd read (regular name member)

end Snapshot

namespace Workspace

/-- The names of the entries of a workspace. -/
def names : List String :=
  Owner.file :: Collections.files

theorem ne_empty_of_mem_names {name : String} (member : name ∈ names) : name ≠ "" := by
  rintro rfl
  revert member
  decide

/-- How many bytes a directory has to have room for, so that its files can be replaced. -/
def fileRoom : Nat :=
  Collections.relationshipsFile.utf8ByteSize + Replacement.temporaryExtra + 1

theorem canReplace_of_fits {tree : Tree} {path : Path} {place : List String} {name : String}
    (fits : path.Fits fileRoom) (member : name ∈ names)
    (accepts : tree.acceptsFile (place ++ [name])) : tree.CanReplace path place name := by
  have bounds : ∀ name ∈ names, '\x00' ∉ name.toList ∧
      name.utf8ByteSize + Replacement.temporaryExtra + 1 ≤ fileRoom ∧
      name.utf8ByteSize + Replacement.temporaryExtra ≤ Tree.nameLimit := by decide
  obtain ⟨clean, room, short⟩ := bounds name member
  refine ⟨fits.trimmed.isUsable, ?_, ?_, accepts⟩
  · refine Path.Fits.isUsable (Path.Fits.child ?_ clean : (path.child name).Fits 0)
    exact fits.mono (Nat.le_trans (by simp [Replacement.temporaryExtra]) room)
  · exact Replacement.hasTemporary_of_fits clean short (fits.mono room)

theorem isUsable_child {path : Path} {name : String} (fits : path.Fits fileRoom)
    (member : name ∈ names) : (path.child name).isUsable := by
  have bounds : ∀ name ∈ names, '\x00' ∉ name.toList ∧
      name.utf8ByteSize + 1 + 0 ≤ fileRoom := by decide
  obtain ⟨clean, room⟩ := bounds name member
  exact Path.Fits.isUsable (Path.Fits.child (fits.mono room) clean)

end Workspace

/-- Whether a tree is a directory of files of a workspace. -/
def Tree.IsWorkspace (tree : Tree) : Prop :=
  ∃ entries, tree = .directory entries ∧ (entries.map Prod.fst).Pairwise (· < ·) ∧
    ∀ entry ∈ entries, entry.1 ∈ Workspace.names ∧ ∃ content, entry.2 = .file content

namespace Tree

theorem isWorkspace_emptyDirectory : emptyDirectory.IsWorkspace :=
  ⟨[], rfl, by simp, by simp⟩

theorem IsWorkspace.update {tree : Tree} (isWorkspace : tree.IsWorkspace) {name : String}
    (member : name ∈ Workspace.names) (content : Content) :
    (tree.update [name] (some (.file content))).IsWorkspace := by
  obtain ⟨entries, rfl, sorted, files⟩ := isWorkspace
  refine ⟨SortedMap.insertEntry name (.file content) entries, rfl,
    SortedMap.keys_sorted_insertEntry name _ entries sorted, fun entry found => ?_⟩
  rcases SortedMap.mem_insertEntry found with rfl | old
  · exact ⟨member, content, rfl⟩
  · exact files entry old

theorem IsWorkspace.hasDirectory {tree workspace : Tree} {place : List String}
    (isWorkspace : workspace.IsWorkspace) (found : tree.find place = .ok workspace) :
    tree.HasDirectory place := by
  obtain ⟨entries, rfl, -⟩ := isWorkspace
  exact ⟨entries, found⟩

theorem fits_of_mem_names {name : String} (member : name ∈ Workspace.names) : fits name := by
  have every : ∀ name ∈ Workspace.names, fits name := by decide
  exact every name member

/-- A file can be put in a workspace under each of the names of its entries. -/
theorem IsWorkspace.acceptsFile {tree workspace : Tree} {place : List String}
    (isWorkspace : workspace.IsWorkspace) (found : tree.find place = .ok workspace)
    {name : String} (member : name ∈ Workspace.names) : tree.acceptsFile (place ++ [name]) := by
  obtain ⟨entries, rfl, -, files⟩ := isWorkspace
  rw [acceptsFile_child found, find_singleton, if_pos (fits_of_mem_names member)]
  cases looked : entries.lookup name with
  | none => rfl
  | some entry =>
      obtain ⟨before, after, rfl, -⟩ := List.lookup_eq_some_iff.1 looked
      obtain ⟨-, content, rfl⟩ := files (name, entry) (by simp)
      rfl

theorem IsWorkspace.read_update {tree : Tree} (isWorkspace : tree.IsWorkspace) {name : String}
    (member : name ∈ Workspace.names) (content : Content) (other : String) :
    (tree.update [name] (some (.file content))).read [other] =
      if other = name then .ok content else tree.read [other] := by
  obtain ⟨entries, rfl, -⟩ := isWorkspace
  by_cases same : other = name
  · rw [if_pos same, same, read, find_update_self (fits_of_mem_names member)]
  · rw [if_neg same, read, find_update_of_ne entries same [] [], read]

/-- Whether a tree is the workspace of an owner with given copies of the collections. -/
structure IsWorkspaceOf (owner : Owner) (snapshot : Snapshot) (tree : Tree) : Prop where
  isWorkspace : tree.IsWorkspace
  marker : tree.read [Owner.file] = .ok (.text owner.markerText)
  copies : ∀ name ∈ Collections.files, tree.read [name] = snapshot name

/-- The workspace before anything is copied to it. -/
theorem isWorkspaceOf_missing (owner : Owner) :
    (emptyDirectory.update [Owner.file] (some (.file (.text owner.markerText)))).IsWorkspaceOf owner
      .missing := by
  have first : Owner.file ∈ Workspace.names := List.mem_cons_self
  refine ⟨isWorkspace_emptyDirectory.update first _, ?_, fun name member => ?_⟩
  · rw [isWorkspace_emptyDirectory.read_update first, if_pos rfl]
  · have absent : ∀ name ∈ Collections.files, name ≠ Owner.file ∧
        emptyDirectory.read [name] = .error .missing := by decide
    obtain ⟨differs, missing⟩ := absent name member
    rw [isWorkspace_emptyDirectory.read_update first, if_neg differs, missing]
    rfl

theorem IsWorkspaceOf.put {tree : Tree} {owner : Owner} {snapshot : Snapshot}
    (isWorkspace : tree.IsWorkspaceOf owner snapshot) {name : String}
    (member : name ∈ Collections.files) (content : Content) :
    (tree.update [name] (some (.file content))).IsWorkspaceOf owner (snapshot.put name content) := by
  have inNames : name ∈ Workspace.names := List.mem_cons_of_mem _ member
  have marks : ∀ name ∈ Collections.files, Owner.file ≠ name := by decide
  have reads := isWorkspace.isWorkspace.read_update inNames content
  refine ⟨isWorkspace.isWorkspace.update inNames content, ?_, fun other otherMember => ?_⟩
  · rw [reads, if_neg (marks name member), isWorkspace.marker]
  · rw [reads, isWorkspace.copies other otherMember, Snapshot.put]

theorem IsWorkspaceOf.congr {tree : Tree} {owner : Owner} {snapshot other : Snapshot}
    (isWorkspace : tree.IsWorkspaceOf owner snapshot)
    (same : ∀ name ∈ Collections.files, snapshot name = other name) :
    tree.IsWorkspaceOf owner other :=
  ⟨isWorkspace.isWorkspace, isWorkspace.marker,
    fun name member => (isWorkspace.copies name member).trans (same name member)⟩

end Tree

/-! ## Copying -/

namespace Document

/-- A file is replaced in a world if it is replaced on the disk. -/
theorem runWith_replace_of_done {world : World} {directory : Path} {name : String}
    {content : Content} {disk : Tree}
    (replaced : world.disk.replace directory name content = (.done, disk)) :
    (replace directory name content).runWith World.perform world =
      (.ok (), { world with disk }) := by
  rw [replace, Task.runWith_bind_of_ok (Task.runWith_perform _ _ _)]
  simp only [World.perform, World.onDisk, replaced]
  rfl

end Document

namespace Workspace

/-- Files are copied one after the other.  What holds of the target and is kept by every
replacement holds in the end of the snapshot with the copies. -/
theorem runWith_copyFiles {source target : Path} {copied : Snapshot}
    (related : Snapshot → World → Prop) {names : List String}
    (regular : ∀ name ∈ names, copied name ≠ .error .obstructed)
    (reads : ∀ {snapshot world}, related snapshot world → ∀ name ∈ names,
      world.disk.readAt (source.child name) = copied name)
    (replaces : ∀ {snapshot world}, related snapshot world → ∀ name ∈ names, ∀ content,
      copied name = .ok content → ∃ disk, world.disk.replace target name content = (.done, disk) ∧
        related (snapshot.put name content) { world with disk })
    {snapshot : Snapshot} {world : World} (start : related snapshot world) :
    ∃ after, (copyFiles source target names).runWith World.perform world = (.ok (), after) ∧
      related (snapshot.overlay copied names) after := by
  induction names generalizing snapshot world with
  | nil => exact ⟨world, rfl, start⟩
  | cons name rest ih =>
      have first := reads start name List.mem_cons_self
      have later : ∀ {snapshot world}, related snapshot world → ∃ after,
          (copyFiles source target rest).runWith World.perform world = (.ok (), after) ∧
            related (snapshot.overlay copied rest) after :=
        ih (fun other member => regular other (List.mem_cons_of_mem name member))
          (fun holds other member => reads holds other (List.mem_cons_of_mem name member))
          (fun holds other member => replaces holds other (List.mem_cons_of_mem name member))
      rw [copyFiles, Task.runWith_bind_of_ok (Task.runWith_perform _ _ _)]
      simp only [World.perform, first, Snapshot.overlay]
      cases read : copied name with
      | ok content =>
          obtain ⟨disk, replaced, holds⟩ := replaces start name List.mem_cons_self content read
          obtain ⟨after, ran, holdsAfter⟩ := later holds
          refine ⟨after, ?_, holdsAfter⟩
          simp only
          rw [Task.runWith_bind_of_ok (Document.runWith_replace_of_done replaced), ran]
      | error fault =>
          cases fault with
          | missing =>
              simp only
              exact later start
          | obstructed => exact absurd read (regular name List.mem_cons_self)

/-! ## Removing -/

/-- The entries of a workspace are removed one after the other. -/
theorem runWith_removeEntries {path : Path} (fits : path.Fits fileRoom) {above : List String}
    {name : String} {entries : List (String × Tree)}
    (sorted : (entries.map Prod.fst).Pairwise (· < ·))
    (files : ∀ entry ∈ entries, entry.1 ∈ names ∧ ∃ content, entry.2 = .file content)
    {world : World} (leads : world.disk.LeadsTo path (above ++ [name]))
    (stands : world.disk.HasDirectory above)
    (found : world.disk.find (above ++ [name]) = .ok (.directory entries)) :
    ∃ disk, (removeEntries path (entries.map Prod.fst)).runWith World.perform world =
        (.ok (), { world with disk }) ∧
      disk.find (above ++ [name]) = .ok Tree.emptyDirectory ∧
      world.disk.KeepsDirectories disk ∧ Tree.AltersOnly above name world.disk disk := by
  induction entries generalizing world with
  | nil => exact ⟨world.disk, rfl, found, .refl world.disk, .refl stands name⟩
  | cons entry rest ih =>
      obtain ⟨least, sortedRest⟩ := List.pairwise_cons.1 sorted
      obtain ⟨member, content, isFile⟩ := files entry List.mem_cons_self
      have named := ne_empty_of_mem_names member
      have usable := isUsable_child fits member
      have foundEntry : world.disk.find (above ++ [name] ++ [entry.1]) = .ok (.file content) := by
        rw [Tree.find_append_of_ok found, Tree.find_singleton,
          if_pos (Tree.fits_of_mem_names member), SortedMap.lookup_cons_eq, if_pos rfl, isFile]
      have isNoDirectory : (world.perform (.kind (path.child entry.1))).1 ≠ some .directory := by
        rw [World.perform, leads.kindAt?_child named usable, Tree.kind?, foundEntry]
        rintro ⟨⟩
      have removed := leads.removeFileAt_child named usable foundEntry
      -- Without its first entry the directory holds the rest.
      have without : rest.filter (fun other => other.1 != entry.1) = rest := by
        refine List.filter_eq_self.2 fun other inRest => ?_
        have less := least other.1 (List.mem_map_of_mem inRest)
        simp only [bne_iff_ne, ne_eq]
        intro same
        rw [same] at less
        exact String.lt_irrefl _ less
      have foundRest : (world.disk.update (above ++ [name] ++ [entry.1]) none).find
          (above ++ [name]) = .ok (.directory rest) := by
        rw [Tree.find_update_append found (List.cons_ne_nil _ _), Tree.update, Tree.setEntry,
          List.filter_cons_of_neg (by simp), without]
      have keeps : world.disk.KeepsDirectories
          (world.disk.update (above ++ [name] ++ [entry.1]) none) := by
        refine Tree.keepsDirectories_update ?_ none
        rintro ⟨others, same⟩
        rw [foundEntry] at same
        cases same
      have alters := stands.altersOnly name [entry.1] none
      rw [← List.singleton_append, ← List.append_assoc] at alters
      obtain ⟨disk, ran, emptied, keepsRest, altersRest⟩ := @ih sortedRest
        (fun other inRest => files other (List.mem_cons_of_mem entry inRest))
        { world with disk := world.disk.update (above ++ [name] ++ [entry.1]) none }
        (leads.keep keeps) alters.stands foundRest
      refine ⟨disk, ?_, emptied, keeps.trans keepsRest, alters.trans altersRest⟩
      rw [List.map_cons, removeEntries, Task.runWith_bind_of_ok (Task.runWith_perform _ _ _),
        if_neg isNoDirectory, Task.runWith_bind_of_ok (Task.runWith_perform _ _ _)]
      simp only [World.perform, World.onDisk, removed, if_true]
      exact ran

/-- A workspace is removed with all that it holds. -/
theorem runWith_cleanup {world : World} {base : Path} {place : List String} {name : String}
    (leads : world.disk.LeadsTo base place) (named : name ≠ "")
    (fits : (base.child name).Fits fileRoom) {workspace : Tree}
    (found : world.disk.find (place ++ [name]) = .ok workspace)
    (isWorkspace : workspace.IsWorkspace) :
    ∃ disk, (cleanup (base.child name)).runWith World.perform world =
        (.ok (), { world with disk }) ∧
      disk.find (place ++ [name]) = .error .missing ∧
      Tree.AltersOnly place name world.disk disk := by
  have leadsThere := leads.child (isWorkspace.hasDirectory found)
  obtain ⟨entries, rfl, sorted, files⟩ := isWorkspace
  obtain ⟨emptied, ran, foundEmpty, keeps, alters⟩ :=
    runWith_removeEntries fits sorted files leadsThere leads.2 found
  have leadsAfter := leads.keep keeps
  have removed := leadsAfter.removeDirectoryAt_child named fits.isUsable foundEmpty
  have altersLast := alters.stands.altersOnly name [] none
  refine ⟨emptied.update (place ++ [name]) none, ?_, ?_, alters.trans altersLast⟩
  · rw [cleanup, Task.runWith_bind_of_ok (Task.runWith_perform _ _ _)]
    simp only [World.perform, leads.listAt_child named fits.isUsable found]
    rw [Task.runWith_bind_of_ok ran, Task.runWith_bind_of_ok (Task.runWith_perform _ _ _)]
    simp only [World.perform, World.onDisk, removed]
    rfl
  · exact leadsAfter.2.find_update_none (leadsAfter.2.fits_of_ok foundEmpty)

/-- What cannot be listed is left alone. -/
theorem runWith_cleanup_of_obstructed {world : World} {path : Path}
    (obstructed : world.disk.listAt path = .error .obstructed) :
    (cleanup path).runWith World.perform world = (.error (.io path.text), world) := by
  rw [cleanup, Task.runWith_bind_of_ok (Task.runWith_perform _ _ _)]
  simp only [World.perform, obstructed]
  rfl

/-! ## Staging -/

/-- A file of a workspace is replaced. -/
theorem replace_child {tree workspace : Tree} {base : Path} {place : List String}
    {staging name : String} (leads : tree.LeadsTo base place)
    (fits : (base.child staging).Fits fileRoom)
    (found : tree.find (place ++ [staging]) = .ok workspace) (isWorkspace : workspace.IsWorkspace)
    (member : name ∈ names) (content : Content) :
    ∃ after, tree.replace (base.child staging) name content = (.done, after) ∧
      after.find (place ++ [staging]) = .ok (workspace.update [name] (some (.file content))) ∧
      Tree.AltersOnly place staging tree after := by
  have possible := canReplace_of_fits fits member (isWorkspace.acceptsFile found member)
  have leadsThere := leads.child (isWorkspace.hasDirectory found)
  have alters := leads.2.altersOnly staging [name] (some (.file content))
  rw [← List.singleton_append, ← List.append_assoc] at alters
  refine ⟨_, ?_, Tree.find_update_append found (List.cons_ne_nil name []) _, alters⟩
  rcases leadsThere.replace_cases (ne_empty_of_mem_names member) content with
    ⟨-, -, replaced⟩ | ⟨impossible, -⟩
  · exact replaced
  · exact absurd possible impossible

/-- A workspace is assembled under a hidden name and moved into place. -/
theorem runWith_stage (owner : Owner) {world : World} {base : Path} {place : List String}
    {staging name : String} {committed : Snapshot}
    (leads : world.disk.LeadsTo base place) (namedStaging : staging ≠ "") (named : name ≠ "")
    (fits : (base.child staging).Fits fileRoom) (usable : (base.child name).isUsable)
    (freeStaging : world.disk.find (place ++ [staging]) = .error .missing)
    (free : world.disk.find (place ++ [name]) = .error .missing) (differs : name ≠ staging)
    (hidden : staging ∉ Collections.files) (regular : committed.IsRegular)
    (reads : ∀ file ∈ Collections.files,
      world.disk.readAt (base.child file) = committed file) :
    ∃ staged disk workspace,
      (stage owner base (base.child staging) (base.child name)).runWith World.perform world =
        (.ok (), { world with disk }) ∧
      disk.find (place ++ [name]) = .ok workspace ∧ workspace.IsWorkspaceOf owner committed ∧
      disk.find (place ++ [staging]) = .error .missing ∧
      Tree.AltersOnly place staging world.disk staged ∧
      Tree.AltersOnly place name staged disk := by
  have noDirectory : ¬world.disk.HasDirectory (place ++ [staging]) := by
    rintro ⟨entries, found⟩
    rw [freeStaging] at found
    cases found
  -- Whatever is done below the hidden name, the database stays where it is.
  have leadsIn : ∀ {disk}, Tree.AltersOnly place staging world.disk disk →
      disk.LeadsTo base place := fun alters =>
    leads.keep (alters.keeps world.disk noDirectory (.refl world.disk))
  have short := leads.2.fits_of_missing freeStaging
  have made := leads.makeDirectoriesAt_child fits.isUsable freeStaging
  have altersMade := leads.2.altersOnly staging [] (some Tree.emptyDirectory)
  obtain ⟨marked, replaced, foundMarked, altersMarked⟩ := replace_child (leadsIn altersMade) fits
    (leads.2.find_update_self short _) Tree.isWorkspace_emptyDirectory
    (show Owner.file ∈ names from List.mem_cons_self) (.text owner.markerText)
  obtain ⟨_, copied, disk, rfl, alters, workspace, found, isWorkspace⟩ :=
    @runWith_copyFiles base (base.child staging) committed
      (fun snapshot after => ∃ disk, after = { world with disk } ∧
        Tree.AltersOnly place staging world.disk disk ∧
        ∃ workspace, disk.find (place ++ [staging]) = .ok workspace ∧
          workspace.IsWorkspaceOf owner snapshot)
      Collections.files regular
      (by
        rintro snapshot _ ⟨disk, rfl, alters, -⟩ file member
        have apart : file ≠ staging := fun same => hidden (same ▸ member)
        rw [← reads file member]
        exact leads.readAt_congr (leadsIn alters) (Collections.ne_empty_of_mem_files member)
          (alters.same file apart []))
      (by
        rintro snapshot _ ⟨disk, rfl, alters, workspace, found, isWorkspace⟩ file member content -
        obtain ⟨after, replaced, foundAfter, altersAfter⟩ := replace_child (leadsIn alters) fits
          found isWorkspace.isWorkspace
          (show file ∈ names from List.mem_cons_of_mem _ member) content
        exact ⟨after, replaced, after, rfl, alters.trans altersAfter, _, foundAfter,
          isWorkspace.put member content⟩)
      .missing { world with disk := marked }
      ⟨marked, rfl, altersMade.trans altersMarked, _, foundMarked,
        Tree.isWorkspaceOf_missing owner⟩
  obtain ⟨entries, rfl, -⟩ := id isWorkspace.isWorkspace
  have leadsStaged := leadsIn alters
  have freeNow : disk.find (place ++ [name]) = .error .missing := by
    rw [← free]
    exact alters.same name differs []
  have renamed := leadsStaged.renameAt_child namedStaging named fits.isUsable usable found freeNow
  have altersGone := alters.trans (leadsStaged.2.altersOnly staging [] none)
  have altersMoved := altersGone.stands.altersOnly name [] (some (.directory entries))
  have same : ∀ file ∈ Collections.files,
      Snapshot.missing.overlay committed Collections.files file = committed file :=
    fun file member => Snapshot.overlay_of_covers regular (fun _ _ _ => rfl) member
  refine ⟨_, _, _, ?_, altersGone.stands.find_update_self (leads.2.fits_of_missing free) _,
    isWorkspace.congr same, ?_, altersGone, altersMoved⟩
  · have wrote : (Document.replace (base.child staging) Owner.file
          (.text owner.markerText)).runWith World.perform
          { world with disk := world.disk.update (place ++ [staging]) (some Tree.emptyDirectory) } =
        (.ok (), { world with disk := marked }) :=
      Document.runWith_replace_of_done replaced
    rw [stage, Task.runWith_bind_of_ok (Task.runWith_perform _ _ _)]
    simp only [World.perform, World.onDisk, made, Bool.not_true, Bool.false_eq_true, if_false]
    rw [Task.runWith_bind_of_ok wrote, copyCollections, Task.runWith_bind_of_ok copied,
      Task.runWith_bind_of_ok (Task.runWith_perform _ _ _)]
    simp only [World.perform, World.onDisk, renamed, Bool.not_true, Bool.false_eq_true, if_false]
    rw [Task.runWith_pure]
  · rw [altersMoved.same staging differs.symm []]
    exact leadsStaged.2.find_update_none short

/-- A workspace whose hidden name cannot be made is not staged, and nothing changes. -/
theorem runWith_stage_of_not_made {world : World} {base staging workspace : Path} {owner : Owner}
    (refused : world.disk.makeDirectoriesAt staging = (false, world.disk)) :
    (stage owner base staging workspace).runWith World.perform world =
      (.error (.io staging.text), world) := by
  rw [stage, Task.runWith_bind_of_ok (Task.runWith_perform _ _ _)]
  simp only [World.perform, World.onDisk, refused, Bool.not_false, if_true]
  rfl

end Workspace
end GraphStore
