import GraphStore.Proofs.Disk.Descents
import GraphStore.Proofs.Disk.Updates
import GraphStore.Proofs.Transaction.Exclusion

/-!
# Beginning is all or nothing

A workspace is assembled under a hidden name.  All the while the tree is what it was but for one
entry, so moving this entry adds the workspace to the tree, and removing it leaves nothing behind.
-/

namespace GraphStore

/-! ## A hidden entry -/

namespace Tree

variable {tree made workspace : Tree} {base : Path} {place : List String} {staging name : String}

/-- The tree with an entry under a name of a directory. -/
def host (tree : Tree) (place : List String) (name : String) (entry : Tree) : Tree :=
  tree.update (place ++ [name]) (some entry)

/-- Whether a path leads to a directory of a tree in which a name is free. -/
structure IsFree (made : Tree) (base : Path) (place : List String) (staging : String) : Prop where
  leads : made.LeadsTo base place
  missing : made.find (place ++ [staging]) = .error .missing

/-- What is free below a path is free in the directory to which the path leads, whether that stood
already or was just made. -/
theorem isFree_of_made (leads : made.LeadsTo base place)
    (same : made = tree ∨ made.find place = .ok emptyDirectory) (named : name ≠ "")
    (short : fits name) (usable : (base.child name).isUsable)
    (free : tree.kindAt? (base.child name) = none) : made.IsFree base place name := by
  refine ⟨leads, ?_⟩
  rcases same with rfl | empty
  · rw [leads.kindAt?_child named usable] at free
    exact leads.2.find_of_kind?_none short free
  · rw [find_append_of_ok empty, emptyDirectory, find_singleton, if_pos short]
    rfl

theorem IsFree.leadsTo_host (free : made.IsFree base place staging) (workspace : Tree) :
    (made.host place staging workspace).LeadsTo base place := by
  refine free.leads.keep (keepsDirectories_update ?_ _)
  rintro ⟨entries, found⟩
  rw [free.missing] at found
  cases found

theorem IsFree.find_host (free : made.IsFree base place staging) (workspace : Tree) :
    (made.host place staging workspace).find (place ++ [staging]) = .ok workspace :=
  free.leads.2.find_update_self (free.leads.2.fits_of_missing free.missing) workspace

theorem IsFree.readAt_host (free : made.IsFree base place staging) (workspace : Tree)
    {file : String} (named : file ≠ "") (differs : file ≠ staging) :
    (made.host place staging workspace).readAt (base.child file) =
      made.readAt (base.child file) :=
  free.leads.readAt_congr (free.leadsTo_host workspace) named
    (free.leads.2.find_update_of_ne differs [] [] _)

/-- A file of a workspace under a hidden name is replaced, or there is no room for it and nothing
changes. -/
theorem IsFree.replace_host_cases (free : made.IsFree base place staging)
    (plain : Path.IsPlain staging) (isWorkspace : workspace.IsWorkspace) {file : String}
    (member : file ∈ Workspace.names) (content : Content) :
    (base.child staging).Fits (file.utf8ByteSize + Replacement.temporaryExtra) ∧
        (made.host place staging workspace).replace (base.child staging) file content =
          (.done, made.host place staging (workspace.update [file] (some (.file content)))) ∨
      ¬(base.child staging).Fits Workspace.fileRoom ∧ ∃ reason ≠ Replacement.done,
        (made.host place staging workspace).replace (base.child staging) file content =
          (reason, made.host place staging workspace) := by
  have found := free.find_host workspace
  have leadsThere := (free.leadsTo_host workspace).child (isWorkspace.hasDirectory found)
  rcases leadsThere.replace_cases (Workspace.ne_empty_of_mem_names member) content with
    ⟨⟨-, -, has, -⟩, -, replaced⟩ | ⟨impossible, refused, unchanged⟩
  · have room := Replacement.fits_of_hasTemporary has
    rw [Path.Fits, base.text_trimmed_child plain] at room
    rw [replaced, host, host, update_update_below _ _ _ _ (List.cons_ne_nil file [])]
    exact .inl ⟨room, rfl⟩
  · refine .inr ⟨fun fits => impossible ?_, _, refused, unchanged⟩
    exact Workspace.canReplace_of_fits fits member (isWorkspace.acceptsFile found member)

/-- Taking a hidden entry away leaves the tree that was there before. -/
theorem IsFree.update_host (free : made.IsFree base place staging) (ordered : made.IsOrdered)
    (workspace : Tree) : (made.host place staging workspace).update (place ++ [staging]) none = made := by
  rw [host, update_update_same, ordered.update_none_of_missing free.missing]

end Tree

/-- A file is replaced on a disk, whatever else the world holds. -/
theorem Document.runWith_replace_on (world : World) {disk after : Tree} {directory : Path}
    {name : String} {content : Content}
    (replaced : disk.replace directory name content = (.done, after)) :
    (replace directory name content).runWith World.perform { world with disk } =
      (.ok (), { world with disk := after }) :=
  @runWith_replace_of_done { world with disk } directory name content after replaced

/-- What cannot be replaced makes the task fail. -/
theorem Document.runWith_replace_of_refused (world : World) {disk : Tree} {directory : Path}
    {name : String} {content : Content} {reason : Replacement} (refused : reason ≠ .done)
    (replaced : disk.replace directory name content = (reason, disk)) :
    ∃ error, (replace directory name content).runWith World.perform { world with disk } =
      (.error error, { world with disk }) := by
  rw [replace, Task.runWith_bind_of_ok (Task.runWith_perform _ _ _)]
  simp only [World.perform, World.onDisk, replaced]
  cases reason with
  | done => exact absurd rfl refused
  | noDirectory => exact ⟨_, rfl⟩
  | noFile => exact ⟨_, rfl⟩

namespace Workspace

variable {made workspace : Tree} {base : Path} {place : List String} {staging name : String}
  {owner : Owner} {world : World}

/-! ## Staging -/

/-- Collections are copied to a hidden workspace, until one cannot be read or has no room there. -/
theorem runWith_copyFiles_host (free : made.IsFree base place staging)
    (plain : Path.IsPlain staging) (hidden : staging ∉ Collections.files)
    {files : List String} (members : ∀ file ∈ files, file ∈ Collections.files)
    {snapshot : Snapshot} (isWorkspace : workspace.IsWorkspaceOf owner snapshot) :
    ∃ result workspace', (copyFiles base (base.child staging) files).runWith World.perform
        { world with disk := made.host place staging workspace } =
          (result, { world with disk := made.host place staging workspace' }) ∧
      workspace'.IsWorkspace ∧
      (result = .ok () ∧
          (∀ file ∈ files, made.readAt (base.child file) ≠ .error .obstructed) ∧
          workspace'.IsWorkspaceOf owner
            (snapshot.overlay (fun file => made.readAt (base.child file)) files) ∨
        (∃ error, result = .error error) ∧ ((base.child staging).Fits fileRoom →
          ∃ file ∈ files, made.readAt (base.child file) = .error .obstructed)) := by
  induction files generalizing workspace snapshot with
  | nil =>
      exact ⟨.ok (), workspace, rfl, isWorkspace.isWorkspace, .inl ⟨rfl, by simp, isWorkspace⟩⟩
  | cons file rest ih =>
      have member := members file List.mem_cons_self
      have membersRest := fun other inRest => members other (List.mem_cons_of_mem file inRest)
      have read := free.readAt_host workspace (Collections.ne_empty_of_mem_files member)
        (show file ≠ staging from fun same => hidden (same ▸ member))
      -- What the rest of the files gives holds of all, since this one can be read or is missing.
      have goesOn : ∀ {ended : Except StorageError Unit} {copied : Prop},
          made.readAt (base.child file) ≠ .error .obstructed →
          (ended = .ok () ∧
              (∀ other ∈ rest, made.readAt (base.child other) ≠ .error .obstructed) ∧ copied ∨
            (∃ error, ended = .error error) ∧ ((base.child staging).Fits fileRoom →
              ∃ other ∈ rest, made.readAt (base.child other) = .error .obstructed)) →
          ended = .ok () ∧
              (∀ other ∈ file :: rest, made.readAt (base.child other) ≠ .error .obstructed) ∧
              copied ∨
            (∃ error, ended = .error error) ∧ ((base.child staging).Fits fileRoom →
              ∃ other ∈ file :: rest, made.readAt (base.child other) = .error .obstructed) := by
        intro ended copied readable ends
        refine ends.imp ?_ ?_
        · rintro ⟨succeeds, regular, isCopied⟩
          exact ⟨succeeds, List.forall_mem_cons.2 ⟨readable, regular⟩, isCopied⟩
        · rintro ⟨fails, obstructs⟩
          refine ⟨fails, fun fits => ?_⟩
          obtain ⟨other, inRest, obstructed⟩ := obstructs fits
          exact ⟨other, List.mem_cons_of_mem file inRest, obstructed⟩
      rw [copyFiles, Task.runWith_bind_of_ok (Task.runWith_perform _ _ _)]
      simp only [World.perform, read, Snapshot.overlay]
      cases found : made.readAt (base.child file) with
      | ok content =>
          simp only
          rcases free.replace_host_cases plain isWorkspace.isWorkspace
            (show file ∈ names from List.mem_cons_of_mem _ member) content with
            ⟨-, replaced⟩ | ⟨room, reason, refused, unchanged⟩
          · rw [Task.runWith_bind_of_ok (Document.runWith_replace_on world replaced)]
            obtain ⟨result, workspace', ran, reached, ends⟩ := ih membersRest
              (isWorkspace.put member content)
            exact ⟨result, workspace', ran, reached, goesOn (by rw [found]; rintro ⟨⟩) ends⟩
          · obtain ⟨error, failed⟩ :=
              Document.runWith_replace_of_refused world refused unchanged
            exact ⟨_, workspace, Task.runWith_bind_of_error failed _, isWorkspace.isWorkspace,
              .inr ⟨⟨error, rfl⟩, fun fits => absurd fits room⟩⟩
      | error fault =>
          cases fault with
          | missing =>
              obtain ⟨result, workspace', ran, reached, ends⟩ := ih membersRest isWorkspace
              exact ⟨result, workspace', ran, reached, goesOn (by rw [found]; rintro ⟨⟩) ends⟩
          | obstructed =>
              exact ⟨_, workspace, rfl, isWorkspace.isWorkspace,
                .inr ⟨⟨_, rfl⟩, fun _ => ⟨file, List.mem_cons_self, found⟩⟩⟩

/-- A hidden workspace is moved to a free name. -/
theorem renameAt_host (free : made.IsFree base place staging)
    (freeTarget : made.IsFree base place name) (ordered : made.IsOrdered) (differs : name ≠ staging)
    (namedStaging : staging ≠ "") (named : name ≠ "") (usable : (base.child staging).isUsable)
    (usableTarget : (base.child name).isUsable) (isWorkspace : workspace.IsWorkspace) :
    (made.host place staging workspace).renameAt (base.child staging) (base.child name) =
      (true, made.host place name workspace) := by
  have freeThere : (made.host place staging workspace).find (place ++ [name]) = .error .missing := by
    rw [Tree.host, free.leads.2.find_update_of_ne differs]
    exact freeTarget.missing
  obtain ⟨entries, rfl, -⟩ := isWorkspace
  rw [(free.leadsTo_host _).renameAt_child namedStaging named usable usableTarget
    (free.find_host _) freeThere, free.update_host ordered]
  rfl

/-- How many bytes a directory has to have room for, so that a marker can be put there. -/
def markerRoom : Nat :=
  Owner.file.utf8ByteSize + Replacement.temporaryExtra

section

variable (free : made.IsFree base place staging) (freeTarget : made.IsFree base place name)
  (ordered : made.IsOrdered) (differs : name ≠ staging) (hidden : staging ∉ Collections.files)
  (plainStaging : Path.IsPlain staging) (named : name ≠ "")
  (usableStaging : (base.child staging).isUsable) (usable : (base.child name).isUsable)

include free freeTarget ordered differs hidden plainStaging named usableStaging usable

/-- A workspace is staged and moved into place, or it stays under its hidden name because there is no
room for a file or a collection cannot be read. -/
theorem runWith_stage_host
    (makes : world.disk.makeDirectoriesAt (base.child staging) =
      (true, made.host place staging .emptyDirectory)) (owner : Owner) :
    ∃ result disk workspace,
      (stage owner base (base.child staging) (base.child name)).runWith World.perform world =
        (result, { world with disk }) ∧ workspace.IsWorkspace ∧
      (workspace = .emptyDirectory ∨ (base.child staging).Fits markerRoom) ∧
      (result = .ok () ∧ disk = made.host place name workspace ∧
          workspace.IsWorkspaceOf owner (fun file => made.readAt (base.child file)) ∧
          (∀ file ∈ Collections.files, made.readAt (base.child file) ≠ .error .obstructed) ∨
        (∃ error, result = .error error) ∧ disk = made.host place staging workspace ∧
          ((base.child staging).Fits fileRoom →
            ∃ file ∈ Collections.files, made.readAt (base.child file) = .error .obstructed)) := by
  rw [stage, Task.runWith_bind_of_ok (Task.runWith_perform _ _ _)]
  simp only [World.perform, World.onDisk, makes, Bool.not_true, Bool.false_eq_true, if_false]
  rcases free.replace_host_cases plainStaging Tree.isWorkspace_emptyDirectory
    (show Owner.file ∈ names from List.mem_cons_self) (.text owner.markerText) with
    ⟨room, marked⟩ | ⟨room, reason, refused, unchanged⟩
  · obtain ⟨result, workspace, copied, isWorkspace, ends⟩ :=
      @runWith_copyFiles_host _ _ _ _ _ owner world free plainStaging hidden Collections.files
        (fun _ member => member) _ (Tree.isWorkspaceOf_missing owner)
    rw [Task.runWith_bind_of_ok (Document.runWith_replace_on world marked), copyCollections]
    rcases ends with ⟨rfl, regular, isWorkspaceOf⟩ | ⟨⟨error, rfl⟩, obstructed⟩
    · have renamed := renameAt_host free freeTarget ordered differs plainStaging.1 named usableStaging
        usable isWorkspace
      refine ⟨.ok (), _, workspace, ?_, isWorkspace, .inr room, .inl ⟨rfl, rfl, ?_, regular⟩⟩
      · rw [Task.runWith_bind_of_ok copied, Task.runWith_bind_of_ok (Task.runWith_perform _ _ _)]
        simp only [World.perform, World.onDisk, renamed]
        rfl
      · exact isWorkspaceOf.congr fun file member =>
          Snapshot.overlay_of_covers regular (fun _ _ _ => rfl) member
    · exact ⟨_, _, workspace, Task.runWith_bind_of_error copied _, isWorkspace, .inr room,
        .inr ⟨⟨error, rfl⟩, rfl, obstructed⟩⟩
  · obtain ⟨error, failed⟩ := Document.runWith_replace_of_refused world refused unchanged
    exact ⟨_, _, .emptyDirectory, Task.runWith_bind_of_error failed _,
      Tree.isWorkspace_emptyDirectory, .inl rfl,
      .inr ⟨⟨error, rfl⟩, rfl, fun fits => absurd fits room⟩⟩

end

/-! ## Cleaning up -/

/-- The files of a hidden workspace are removed one after the other. -/
theorem runWith_removeEntries_host (free : made.IsFree base place staging)
    {entries : List (String × Tree)} (sorted : (entries.map Prod.fst).Pairwise (· < ·))
    (files : ∀ entry ∈ entries, entry.1 ∈ names ∧ ∃ content, entry.2 = .file content)
    (usable : ∀ entry ∈ entries, ((base.child staging).child entry.1).isUsable) (world : World) :
    (removeEntries (base.child staging) (entries.map Prod.fst)).runWith World.perform
        { world with disk := made.host place staging (.directory entries) } =
      (.ok (), { world with disk := made.host place staging .emptyDirectory }) := by
  induction entries with
  | nil => rfl
  | cons entry rest ih =>
      obtain ⟨least, sortedRest⟩ := List.pairwise_cons.1 sorted
      obtain ⟨member, content, isFile⟩ := files entry List.mem_cons_self
      have named := ne_empty_of_mem_names member
      have usableEntry := usable entry List.mem_cons_self
      have found := free.find_host (.directory (entry :: rest))
      have leads := (free.leadsTo_host (.directory (entry :: rest))).child ⟨_, found⟩
      have foundEntry : (made.host place staging (.directory (entry :: rest))).find
          (place ++ [staging] ++ [entry.1]) = .ok (.file content) := by
        rw [Tree.find_append_of_ok found, Tree.find_singleton,
          if_pos (Tree.fits_of_mem_names member), SortedMap.lookup_cons_eq, if_pos rfl, isFile]
      have isNoDirectory : (World.perform
          { world with disk := made.host place staging (.directory (entry :: rest)) }
          (.kind ((base.child staging).child entry.1))).1 ≠ some .directory := by
        rw [World.perform, leads.kindAt?_child named usableEntry, Tree.kind?, foundEntry]
        rintro ⟨⟩
      -- Without its first entry the directory holds the rest.
      have without : rest.filter (fun other => other.1 != entry.1) = rest := by
        refine List.filter_eq_self.2 fun other inRest => ?_
        have less := least other.1 (List.mem_map_of_mem inRest)
        exact bne_iff_ne.2 fun same => String.lt_irrefl _ (same ▸ less)
      have removed : (made.host place staging (.directory (entry :: rest))).removeFileAt
          ((base.child staging).child entry.1) =
            (true, made.host place staging (.directory rest)) := by
        rw [leads.removeFileAt_child named usableEntry foundEntry, Tree.host,
          Tree.update_update_below _ _ _ _ (List.cons_ne_nil _ _), Tree.update, Tree.setEntry, List.filter_cons_of_neg (by simp),
          without, Tree.host]
      rw [List.map_cons, removeEntries, Task.runWith_bind_of_ok (Task.runWith_perform _ _ _),
        if_neg isNoDirectory, Task.runWith_bind_of_ok (Task.runWith_perform _ _ _)]
      simp only [World.perform, World.onDisk, removed, if_true]
      exact ih sortedRest (fun other inRest => files other (List.mem_cons_of_mem entry inRest))
        fun other inRest => usable other (List.mem_cons_of_mem entry inRest)

theorem isUsable_child_of_markerRoom {path : Path} {file : String} (fits : path.Fits markerRoom)
    (member : file ∈ names) : (path.child file).isUsable := by
  have bounds : ∀ file ∈ names, '\x00' ∉ file.toList ∧
      file.utf8ByteSize + 1 + 0 ≤ markerRoom := by decide
  obtain ⟨clean, room⟩ := bounds file member
  exact Path.Fits.isUsable (Path.Fits.child (fits.mono room) clean)

/-- A hidden workspace is removed without a trace if nothing was put there for which there is no
room. -/
theorem runWith_cleanup_staged (free : made.IsFree base place staging) (ordered : made.IsOrdered)
    (namedStaging : staging ≠ "") (usable : (base.child staging).isUsable)
    (room : workspace = .emptyDirectory ∨ (base.child staging).Fits markerRoom)
    (isWorkspace : workspace.IsWorkspace) (world : World) :
    (cleanup (base.child staging)).runWith World.perform
        { world with disk := made.host place staging workspace } =
      (.ok (), { world with disk := made }) := by
  obtain ⟨entries, rfl, sorted, files⟩ := isWorkspace
  have leads := free.leadsTo_host (.directory entries)
  have usableEntries : ∀ entry ∈ entries, ((base.child staging).child entry.1).isUsable := by
    intro entry member
    rcases room with bare | room
    · cases bare
      cases member
    · exact isUsable_child_of_markerRoom room (files entry member).1
  have removed := (free.leadsTo_host .emptyDirectory).removeDirectoryAt_child namedStaging usable
    (free.find_host _)
  rw [free.update_host ordered] at removed
  rw [cleanup, Task.runWith_bind_of_ok (Task.runWith_perform _ _ _)]
  simp only [World.perform, leads.listAt_child namedStaging usable (free.find_host _)]
  rw [Task.runWith_bind_of_ok (runWith_removeEntries_host free sorted files usableEntries world),
    Task.runWith_bind_of_ok (Task.runWith_perform _ _ _)]
  simp only [World.perform, World.onDisk, removed]
  rfl

/-- A workspace for which there is room is removed without a trace. -/
theorem runWith_cleanup_host (free : made.IsFree base place staging) (ordered : made.IsOrdered)
    (namedStaging : staging ≠ "") (fits : (base.child staging).Fits fileRoom)
    (isWorkspace : workspace.IsWorkspace) (world : World) :
    (cleanup (base.child staging)).runWith World.perform
        { world with disk := made.host place staging workspace } =
      (.ok (), { world with disk := made }) :=
  runWith_cleanup_staged free ordered namedStaging fits.isUsable (.inr (fits.mono (by decide)))
    isWorkspace world

/-- What cannot be listed is left alone, whether it is missing or no directory. -/
theorem runWith_cleanup_of_unlisted (world : World) {path : Path} {fault : Fault}
    (unlisted : world.disk.listAt path = .error fault) :
    ((cleanup path).runWith World.perform world).2 = world := by
  rw [cleanup, Task.runWith_bind_of_ok (Task.runWith_perform _ _ _)]
  simp only [World.perform, unlisted]
  cases fault <;> rfl

end Workspace

theorem Tree.Obstructs.listAt_child {tree : Tree} {path : Path}
    (obstructs : tree.Obstructs [] path.steps) (name : String) :
    ∃ fault, tree.listAt (path.child name) = .error fault := by
  have stops : ∃ fault, tree.follow [] (path.child name).steps = .error fault := by
    rw [Path.child, follow_append]
    rcases obstructs with follows | ⟨target, follows, none, -⟩
    · exact ⟨_, by rw [follows]⟩
    · rw [follows]
      cases found : tree.find target with
      | error fault => exact ⟨fault, by simp only [follow, found]⟩
      | ok entry =>
          cases entry with
          | directory entries => exact absurd ⟨entries, found⟩ none
          | file content => exact ⟨.obstructed, by simp only [follow, found]⟩
  obtain ⟨fault, stops⟩ := stops
  obtain ⟨other, located⟩ := locate_of_follow_eq_error stops
  exact ⟨other, by rw [listAt, findAt, located]⟩

/-! ## Beginning -/

namespace TransactionManager

variable {manager : TransactionManager} {world : World}

/-- What a begin finds that can stage a workspace: a name for it that is plain and leaves room for
the hidden one, which is free, and a directory with room for what is staged that stands or can be
made. -/
structure MayBegin (manager : TransactionManager) (world : World) : Prop where
  plain : Settings.isPlainName manager.workspaceName
  short : manager.workspaceName.utf8ByteSize + Replacement.temporaryExtra ≤ Tree.nameLimit
  room : manager.database.Fits manager.pathRoom
  receives : world.disk.Receives manager.database
  unused : world.disk.kindAt?
    (manager.database.child (manager.hiddenName world.nextNumber)) = none

theorem MayBegin.fits_hidden (may : manager.MayBegin world)
    (clean : '\x00' ∉ manager.workspaceName.toList) :
    (manager.database.child (manager.hiddenName world.nextNumber)).Fits Workspace.fileRoom := by
  refine Path.Fits.child (may.room.mono ?_) (not_mem_hiddenName clean world.nextNumber)
  rw [utf8ByteSize_hiddenName]
  exact Nat.le_refl _

/-- A begin that stages nothing fails, and leaves what cleaning up leaves. -/
theorem begin_of_stage_fails (idle : world.active.contains manager.owner.handle = false)
    (free : world.disk.kindAt? manager.workspace = none) {error : StorageError} {staged : World}
    (failed : (Workspace.stage manager.owner manager.database
        (manager.database.join (manager.hiddenName world.nextNumber)) manager.workspace).runWith
          World.perform (manager.drawn world) = (.error error, staged)) {disk : Tree}
    (cleaned : ∀ live, ((Workspace.cleanup (manager.database.join
        (manager.hiddenName world.nextNumber))).runWith World.perform
          { staged with live }).2.disk = disk) :
    (∃ error, (manager.begin.runWith World.perform world).1 = .error error) ∧
      (manager.begin.runWith World.perform world).2.disk = disk := by
  obtain ⟨reason, same⟩ := manager.runWith_concludeBegin_of_error
    (manager.database.join (manager.hiddenName world.nextNumber)) error staged
  rw [runWith_begin idle free failed, same]
  exact ⟨⟨reason, rfl⟩, cleaned _⟩

/-- Where a directory can be made for the workspace, the workspace comes to stand in it, or nothing
does. -/
theorem begin_of_made (plain : Path.IsPlain manager.workspaceName)
    (short : manager.workspaceName.utf8ByteSize + Replacement.temporaryExtra ≤ Tree.nameLimit)
    (idle : world.active.contains manager.owner.handle = false)
    (free : world.disk.kindAt? manager.workspace = none)
    (unused : world.disk.kindAt?
      (manager.database.child (manager.hiddenName world.nextNumber)) = none)
    (ordered : world.disk.IsOrdered)
    (usable : (manager.database.child (manager.hiddenName world.nextNumber)).isUsable)
    {made : Tree} {place : List String}
    (makes : world.disk.makeDirectoriesAt manager.database.trimmed = (true, made))
    (leads : made.LeadsTo manager.database place)
    (same : made = world.disk ∨ made.find place = .ok Tree.emptyDirectory) :
    let ended := manager.begin.runWith World.perform world
    let hidden := manager.database.child (manager.hiddenName world.nextNumber)
    (ended.1 = .ok () ∧ hidden.Fits Workspace.markerRoom ∧
        (∀ file ∈ Collections.files,
          made.readAt (manager.database.child file) ≠ .error .obstructed) ∧
        ∃ workspace : Tree, workspace.IsWorkspaceOf manager.owner
            (fun file => made.readAt (manager.database.child file)) ∧
          ended.2.disk = made.host place manager.workspaceName workspace) ∨
      (∃ error, ended.1 = .error error) ∧ ended.2.disk = made ∧ (hidden.Fits Workspace.fileRoom →
        ∃ file ∈ Collections.files,
          made.readAt (manager.database.child file) = .error .obstructed) := by
  intro ended hidden
  have plainHidden := isPlain_hiddenName plain world.nextNumber
  have staging := Path.join_of_isPlain manager.database plainHidden
  have there : manager.workspace = manager.database.child manager.workspaceName :=
    Path.join_of_isPlain _ plain
  have usableWorkspace : (manager.database.child manager.workspaceName).isUsable := by
    refine Path.isUsable_iff_fits.2 ((Path.isUsable_iff_fits.1 usable).child_of_child ?_
      fun unclean => mem_hiddenName unclean _)
    rw [utf8ByteSize_hiddenName]
    omega
  -- Both names are free, in the directory that was there or in the new one.
  have freeStaging := Tree.isFree_of_made leads same plainHidden.1
    (by rw [Tree.fits, utf8ByteSize_hiddenName]; exact decide_eq_true short) usable unused
  have freeTarget := Tree.isFree_of_made leads same plain.1
    (decide_eq_true (Nat.le_trans (Nat.le_add_right _ _) short)) usableWorkspace (there ▸ free)
  have orderedMade : made.IsOrdered := by
    have kept := ordered.makeDirectoriesAt manager.database.trimmed
    rwa [makes] at kept
  obtain ⟨result, disk, workspace, ran, isWorkspace, room, ends⟩ :=
    @Workspace.runWith_stage_host _ _ _ _ _ (manager.drawn world) freeStaging freeTarget orderedMade
      (hiddenName_ne_workspaceName manager world.nextNumber) (hiddenName_not_mem_files _)
      plainHidden plain.1 usable usableWorkspace
      (Tree.makeDirectoriesAt_child_of_made makes leads usable freeStaging.missing) manager.owner
  rw [← staging, ← there] at ran
  rcases ends with ⟨rfl, rfl, isWorkspaceOf, regular⟩ | ⟨⟨error, rfl⟩, rfl, obstructed⟩
  · have begun : ended = _ := runWith_begin idle free ran
    have marked : hidden.Fits Workspace.markerRoom := by
      refine room.resolve_left ?_
      rintro rfl
      have marker := isWorkspaceOf.marker
      rw [Tree.read, Tree.emptyDirectory, Tree.find_singleton] at marker
      cases marker
    rw [begun, concludeBegin, Task.runWith_lift]
    exact .inl ⟨rfl, marked, regular, workspace, isWorkspaceOf, rfl⟩
  · have failed : (∃ error, ended.1 = .error error) ∧ ended.2.disk = made := by
      refine begin_of_stage_fails idle free ran fun live => ?_
      rw [staging, Workspace.runWith_cleanup_staged freeStaging orderedMade plainHidden.1 usable room
        isWorkspace { manager.drawn world with live }]
    exact .inr ⟨failed.1, failed.2, obstructed⟩

section

variable (may : manager.MayBegin world)
  (idle : world.active.contains manager.owner.handle = false)
  (free : world.disk.kindAt? manager.workspace = none)

include may idle free

/-- Where no directory can be made for the workspace, none is there to be removed. -/
theorem begin_of_not_made
    (notMade : world.disk.makeDirectoriesAt
      (manager.database.child (manager.hiddenName world.nextNumber)) = (false, world.disk))
    (unlisted : ∃ fault, world.disk.listAt
      (manager.database.child (manager.hiddenName world.nextNumber)) = .error fault) :
    (∃ error, (manager.begin.runWith World.perform world).1 = .error error) ∧
      (manager.begin.runWith World.perform world).2.disk = world.disk := by
  obtain ⟨fault, unlisted⟩ := unlisted
  have staging := Path.join_of_isPlain manager.database
    (isPlain_hiddenName (Settings.isPlain_of_isPlainName may.plain) world.nextNumber)
  rw [← staging] at notMade unlisted
  refine begin_of_stage_fails idle free
    (@Workspace.runWith_stage_of_not_made (manager.drawn world) _ _ _ _ notMade) fun live => ?_
  have cleaned := Workspace.runWith_cleanup_of_unlisted { manager.drawn world with live } unlisted
  rw [cleaned]
  rfl

/-- Where a directory can be made for the workspace, the workspace comes to stand in it, or the disk
stays as it is. -/
theorem disk_begin_of_made (ordered : world.disk.IsOrdered)
    (usable : (manager.database.child (manager.hiddenName world.nextNumber)).isUsable)
    {made : Tree} {place : List String}
    (makes : world.disk.makeDirectoriesAt manager.database.trimmed = (true, made))
    (leads : made.LeadsTo manager.database place)
    (same : made = world.disk ∨ made.find place = .ok Tree.emptyDirectory) :
    let ended := manager.begin.runWith World.perform world
    (ended.1 = .ok () ∧ ∃ workspace : Tree,
        workspace.IsWorkspaceOf manager.owner
          (fun file => made.readAt (manager.database.child file)) ∧
        ended.2.disk = made.host place manager.workspaceName workspace) ∨
      (∃ error, ended.1 = .error error) ∧ ended.2.disk = world.disk ∧
        ∃ file ∈ Collections.files,
          world.disk.readAt (manager.database.child file) = .error .obstructed := by
  intro ended
  have clean : '\x00' ∉ manager.workspaceName.toList := fun unclean => by
    rw [Path.not_isUsable_child (mem_hiddenName unclean world.nextNumber)] at usable
    cases usable
  refine (begin_of_made (Settings.isPlain_of_isPlainName may.plain) may.short idle free may.unused
    ordered usable makes leads same).imp ?_ ?_
  · rintro ⟨begun, -, -, stands⟩
    exact ⟨begun, stands⟩
  · rintro ⟨failed, disk, obstructs⟩
    obtain ⟨file, member, obstructed⟩ := obstructs (may.fits_hidden clean)
    -- Nothing is obstructed in a directory that is new.
    have old : made = world.disk := by
      refine same.resolve_right fun empty => ?_
      rw [leads.readAt_child (Collections.ne_empty_of_mem_files member)
        (Workspace.isUsable_child (may.room.mono (by unfold pathRoom; omega))
          (List.mem_cons_of_mem _ member)), Tree.read, Tree.find_append_of_ok empty,
        Tree.emptyDirectory, Tree.find_singleton,
        if_pos (Tree.fits_of_mem_names (List.mem_cons_of_mem _ member))] at obstructed
      cases obstructed
    exact ⟨failed, old ▸ disk, file, member, old ▸ obstructed⟩

/-- Where no workspace stands, one comes to stand in the directory, or the disk stays as it is. -/
theorem disk_begin_cases (ordered : world.disk.IsOrdered) :
    let ended := manager.begin.runWith World.perform world
    (ended.1 = .ok () ∧ ∃ made place workspace,
        world.disk.makeDirectoriesAt manager.database.trimmed = (true, made) ∧
        made.LeadsTo manager.database place ∧
        (made = world.disk ∨ made.find place = .ok Tree.emptyDirectory) ∧
        Tree.IsWorkspaceOf manager.owner
          (fun file => made.readAt (manager.database.child file)) workspace ∧
        ended.2.disk = made.host place manager.workspaceName workspace) ∨
      (∃ error, ended.1 = .error error) ∧ ended.2.disk = world.disk := by
  cases usable : (manager.database.child (manager.hiddenName world.nextNumber)).isUsable with
  | false =>
      refine .inr (begin_of_not_made may idle free ?_ ⟨.obstructed, ?_⟩)
      · rw [Tree.makeDirectoriesAt, usable]
        rfl
      · rw [Tree.listAt, Tree.findAt, Tree.locate, usable]
        rfl
  | true =>
      rcases or_assoc.2 (Tree.leadsTo_or_lacks_or_obstructs world.disk manager.database) with
        goesOn | obstructs
      · obtain ⟨made, place, makes, leads, same⟩ :=
          may.receives.prepared may.room.trimmed.isUsable goesOn
        refine (disk_begin_of_made may idle free ordered usable makes leads same).imp ?_ ?_
        · rintro ⟨succeeds, workspace, isWorkspace, disk⟩
          exact ⟨succeeds, made, place, workspace, makes, leads, same, isWorkspace, disk⟩
        · exact fun failed => ⟨failed.1, failed.2.1⟩
      · exact .inr (begin_of_not_made may idle free (obstructs.makeDirectoriesAt_child _)
          (obstructs.listAt_child _))

/-- Where each collection can be read or is missing, a begin succeeds. -/
theorem begin_of_regular (ordered : world.disk.IsOrdered)
    (clean : '\x00' ∉ manager.workspaceName.toList)
    (regular : ∀ file ∈ Collections.files,
      world.disk.readAt (manager.database.child file) ≠ .error .obstructed) :
    (manager.begin.runWith World.perform world).1 = .ok () := by
  have member : Collections.nodesFile ∈ Collections.files := List.mem_cons_self
  have goesOn := Tree.leadsTo_or_lacks (Collections.ne_empty_of_mem_files member)
    (Workspace.isUsable_child (may.room.mono (by unfold pathRoom; omega))
      (List.mem_cons_of_mem _ member)) (regular _ member)
  obtain ⟨made, place, makes, leads, same⟩ := may.receives.prepared may.room.trimmed.isUsable goesOn
  rcases disk_begin_of_made may idle free ordered (may.fits_hidden clean).isUsable makes leads
    same with ⟨begun, -⟩ | ⟨-, -, file, inFiles, obstructed⟩
  · exact begun
  · exact absurd obstructed (regular file inFiles)

end

/-- A transaction is begun as a whole or not at all.  Either the workspace stands in the directory of
the database, with the marker of the manager, the collections as they are in the directory and
nothing else, the rest of the tree is as it was, or as it is when a directory of the database that
was missing is made, and the manager is active; or the whole tree is as it was and the manager is
idle. -/
theorem begin_all_or_nothing (may : manager.MayBegin world) (ordered : world.disk.IsOrdered)
    (idle : manager.owner.handle ∉ world.active) (quiet : manager.owner.handle ∉ world.live) :
    let ended := world.run manager.begin.run
    (ended.1 = .ok () ∧ manager.owner.handle ∈ ended.2.active ∧
      ∃ made place workspace,
        world.disk.makeDirectoriesAt manager.database.trimmed = (true, made) ∧
        ((∃ place, world.disk.LeadsTo manager.database place) → made = world.disk) ∧
        made.LeadsTo manager.database place ∧
        Tree.IsWorkspaceOf manager.owner
          (fun file => made.readAt (manager.database.child file)) workspace ∧
        ended.2.disk = made.update (place ++ [manager.workspaceName]) (some workspace)) ∨
      (∃ error, ended.1 = .error error) ∧ ended.2.disk = world.disk ∧
        manager.owner.handle ∉ ended.2.active ∧ manager.owner.handle ∉ ended.2.live := by
  have isIdle : world.active.contains manager.owner.handle = false := by simpa using idle
  simp only [Program.run_eq_runWith, Task.runWith_run]
  by_cases free : world.disk.kindAt? manager.workspace = none
  · have disk := disk_begin_cases may isIdle free ordered
    rcases begin_cases isIdle free with ⟨begun, -, -, -, -, active⟩ | ⟨⟨reason, failed⟩, live, active⟩
    · refine .inl ?_
      rcases disk with ⟨-, made, place, workspace, makes, leads, -, isWorkspace, disk⟩ | ⟨⟨error, failed⟩, -⟩
      · refine ⟨begun, ?_, made, place, workspace, makes, ?_, leads, isWorkspace, disk⟩
        · rw [active, ← List.contains_iff_mem]
          exact World.contains_setMember _ true _
        · rintro ⟨other, stands⟩
          rw [stands.makeDirectoriesAt_trimmed] at makes
          exact (congrArg Prod.snd makes).symm
      · rw [begun] at failed
        cases failed
    · refine .inr ⟨⟨reason, failed⟩, ?_, by rwa [active], ?_⟩
      · rcases disk with ⟨begun, -⟩ | ⟨-, disk⟩
        · rw [failed] at begun
          cases begun
        · exact disk
      · rw [live]
        simp [World.setMember]
  · rw [runWith_begin_of_stands manager free]
    exact .inr ⟨⟨_, rfl⟩, rfl, idle, quiet⟩

/-- The relationships cannot be copied, since a directory has their name; the nodes were copied before
them. -/
theorem begin_all_or_nothing_of_obstructed :
    let manager : TransactionManager := ⟨.ofText "db", "work", ⟨2, "own"⟩⟩
    let world : World := { disk := .directory [("db", .directory
      [("nodes.json", .file (.text "[")), ("relationships.json", .emptyDirectory)])] }
    let ended := world.run manager.begin.run
    ended.1 = .error (.storage (.io "db/relationships.json")) ∧ ended.2.disk = world.disk ∧
      manager.owner.handle ∉ ended.2.live := by
  intro manager world ended
  have may : manager.MayBegin world := by
    refine ⟨by decide +kernel, by decide +kernel, ⟨by decide +kernel, by decide +kernel⟩,
      .inl ⟨["db"], by decide +kernel, _, rfl⟩, by decide +kernel⟩
  have ordered : world.disk.IsOrdered :=
    Tree.isOrdered_emptyDirectory.update ["db"]
      (((Tree.isOrdered_emptyDirectory.update ["nodes.json"] (Tree.isOrdered_file (.text "["))).update
        ["relationships.json"] Tree.isOrdered_emptyDirectory))
  have fails : ended.1 = .error (.storage (.io "db/relationships.json")) := by decide +kernel
  rcases begin_all_or_nothing may ordered (by decide) (by decide) with ⟨begun, -⟩ | ⟨-, disk, -, live⟩
  · rw [show (world.run manager.begin.run).1 = _ from fails] at begun
    cases begun
  · exact ⟨fails, disk, live⟩

/-- Where the path of the database goes up from a directory that is missing and on to a file, that
directory is made before the begin fails. -/
theorem begin_fails_with_trace :
    let manager : TransactionManager := ⟨.ofText "m/../f", "work", ⟨2, "own"⟩⟩
    let world : World := { disk := .directory [("f", .file (.text "x"))] }
    let ended := world.run manager.begin.run
    Settings.isPlainName manager.workspaceName ∧ (∃ error, ended.1 = .error error) ∧
      ended.2.disk ≠ world.disk := by
  intro manager world ended
  have before : world.disk.kind? ["m"] = none := rfl
  have after : ended.2.disk.kind? ["m"] = some .directory := by decide +kernel
  have fails : ended.1 = .error (.storage (.io
      (manager.database.join (manager.hiddenName world.nextNumber)).text)) := by decide +kernel
  refine ⟨by decide +kernel, ⟨_, fails⟩, fun same => ?_⟩
  rw [same, before] at after
  cases after

end TransactionManager
end GraphStore
