import GraphStore.Proofs.Json.Written
import GraphStore.Proofs.Query.Effects
import GraphStore.Proofs.Transaction.Workspaces
import GraphStore.Transaction.Manager

/-!
# Layouts of databases with transactions

The directory of a database shows the committed collections, and its workspace, if there is one,
the collections of the transaction.  Statements and transactions change the directory as they change
these two snapshots.
-/

namespace GraphStore

/-! ## Markers -/

/-- The marker of an owner names the owner. -/
theorem Owner.ofContent?_markerText {owner : Owner} (small : owner.process < 2 ^ 32) :
    ofContent? (.ok (.text owner.markerText)) = some owner := by
  have noDoubles : Json.ReadsBack owner.toJson.doubles := by
    intro number member
    simp [toJson, Json.doubles, Json.doublesOfFields] at member
  have kept : owner.toJson.reread = owner.toJson := rfl
  have exact : (Int64.ofNat owner.process).toInt = owner.process := by
    rw [Int64.toInt_ofNat_of_lt (by omega)]
  have process : processOfJson? (.integer (Int64.ofNat owner.process)) = some owner.process := by
    have width : Int.pow 2 32 = 2 ^ 32 := rfl
    rw [processOfJson?, exact, width, if_pos (by omega), Int.toNat_natCast]
  simp only [ofContent?, markerText, Json.parse?_write .compact owner.toJson noDoubles, kept,
    Option.bind_some]
  have fields : owner.toJson.record? ["pid", "handle"] =
      some [("pid", .integer (Int64.ofNat owner.process)), ("handle", .text owner.handle)] := by
    rfl
  rw [ofJson?, fields]
  simp only [Option.bind_eq_bind, Option.bind_some]
  have first : Json.required? [("pid", .integer (Int64.ofNat owner.process)),
      ("handle", .text owner.handle)] "pid" processOfJson? = some owner.process := process
  rw [first]
  rfl

/-! ## Names of workspaces -/

namespace TransactionManager

/-- The hidden name under which a workspace is assembled. -/
def hiddenName (manager : TransactionManager) (number : Nat) : String :=
  Replacement.temporaryName manager.workspaceName (Identifier.token number)

/-- Whether the hidden name of a workspace may be that of an entry. -/
def CanStage (manager : TransactionManager) : Prop :=
  manager.workspaceName.utf8ByteSize + Replacement.temporaryExtra ≤ Tree.nameLimit ∧
    '\x00' ∉ manager.workspaceName.toList

instance (manager : TransactionManager) : Decidable manager.CanStage :=
  inferInstanceAs (Decidable (_ ∧ _))

/-- How many bytes the path of a database has to have room for, so that no path below it is too
long. -/
def pathRoom (manager : TransactionManager) : Nat :=
  manager.workspaceName.utf8ByteSize + Replacement.temporaryExtra + 1 + Workspace.fileRoom

theorem utf8ByteSize_hiddenName (manager : TransactionManager) (number : Nat) :
    (manager.hiddenName number).utf8ByteSize =
      manager.workspaceName.utf8ByteSize + Replacement.temporaryExtra :=
  Replacement.utf8ByteSize_temporaryName _ (Identifier.utf8ByteSize_token number)

variable {manager : TransactionManager}

theorem hiddenName_ne {name : String} {number : Nat}
    (short : name.utf8ByteSize < Replacement.temporaryExtra) : manager.hiddenName number ≠ name := by
  rintro rfl
  rw [utf8ByteSize_hiddenName] at short
  omega

theorem hiddenName_ne_workspaceName (manager : TransactionManager) (number : Nat) :
    manager.workspaceName ≠ manager.hiddenName number := by
  intro same
  have size := utf8ByteSize_hiddenName manager number
  rw [← same] at size
  simp [Replacement.temporaryExtra] at size

theorem hiddenName_not_mem_files (number : Nat) :
    manager.hiddenName number ∉ Collections.files := by
  intro member
  have short : ∀ name ∈ Collections.files, name.utf8ByteSize < Replacement.temporaryExtra := by
    decide
  exact hiddenName_ne (short _ member) rfl

theorem isPlain_hiddenName (plain : Path.IsPlain manager.workspaceName) (number : Nat) :
    Path.IsPlain (manager.hiddenName number) := by
  refine ⟨hiddenName_ne (by decide), hiddenName_ne (by decide), hiddenName_ne (by decide), ?_⟩
  refine Replacement.not_mem_temporaryName plain.2.2.2 ?_ (by decide)
  rw [Identifier.token, String.toList_ofList]
  exact fun member => (Identifier.utf8Size_of_mem_hexDigits member).2.2 rfl

theorem not_mem_hiddenName (clean : '\x00' ∉ manager.workspaceName.toList) (number : Nat) :
    '\x00' ∉ (manager.hiddenName number).toList := by
  refine Replacement.not_mem_temporaryName clean ?_ (by decide)
  rw [Identifier.token, String.toList_ofList]
  exact fun member => (Identifier.utf8Size_of_mem_hexDigits member).2.1 rfl

theorem mem_hiddenName {c : Char} (member : c ∈ manager.workspaceName.toList) (number : Nat) :
    c ∈ (manager.hiddenName number).toList := by
  simp only [hiddenName, Replacement.temporaryName, String.toList_append, List.mem_append]
  exact Or.inl (Or.inl (Or.inl (Or.inr member)))

end TransactionManager

/-! ## Versions -/

/-- The committed collections, those of the active transaction if there is one, and the next number
to be drawn. -/
structure Versions where
  committed : Snapshot
  working : Option Snapshot := none
  nextNumber : Nat

namespace Versions

/-- The collections on which statements act. -/
def current (versions : Versions) : Snapshot :=
  versions.working.getD versions.committed

/-- The versions in which statements act on other collections. -/
def setCurrent (versions : Versions) (snapshot : Snapshot) : Versions :=
  match versions.working with
  | none => { versions with committed := snapshot }
  | some _ => { versions with working := some snapshot }

/-- The store on which statements act. -/
def store (versions : Versions) : Store where
  read := versions.current
  nextNumber := versions.nextNumber

/-- The versions after statements changed the store on which they act. -/
def setStore (versions : Versions) (store : Store) : Versions :=
  { versions.setCurrent store.read with nextNumber := store.nextNumber }

variable (versions : Versions) (snapshot : Snapshot) (store : Store)

@[simp]
theorem current_setCurrent : (versions.setCurrent snapshot).current = snapshot := by
  unfold setCurrent current
  cases versions.working <;> rfl

@[simp]
theorem isSome_working_setCurrent :
    (versions.setCurrent snapshot).working.isSome = versions.working.isSome := by
  unfold setCurrent
  cases versions.working <;> rfl

@[simp]
theorem setCurrent_setCurrent (other : Snapshot) :
    (versions.setCurrent other).setCurrent snapshot = versions.setCurrent snapshot := by
  unfold setCurrent
  cases versions.working <;> rfl

@[simp]
theorem setCurrent_current : versions.setCurrent versions.current = versions := by
  obtain ⟨committed, working, number⟩ := versions
  cases working <;> rfl

@[simp]
theorem current_setStore : (versions.setStore store).current = store.read :=
  current_setCurrent versions store.read

@[simp]
theorem isSome_working_setStore :
    (versions.setStore store).working.isSome = versions.working.isSome :=
  isSome_working_setCurrent versions store.read

@[simp]
theorem setStore_store : versions.setStore versions.store = versions := by
  obtain ⟨committed, working, number⟩ := versions
  cases working <;> rfl

theorem setCurrent_setStore : (versions.setStore store).setCurrent snapshot =
    versions.setStore { store with read := snapshot } := by
  obtain ⟨committed, working, number⟩ := versions
  cases working <;> rfl

end Versions

namespace TransactionManager

/-- The directory on which statements act if a transaction is active or not. -/
def targetIf (manager : TransactionManager) (active : Bool) : Path :=
  if active then manager.workspace else manager.database

/-! ## Layouts -/

/-- What a manager relies on when its handle is opened: the path of the database leads to a
directory, has room for all paths below it, and no other entry is in the way. -/
structure Ground (manager : TransactionManager) (base : Tree) (place : List String) : Prop where
  leads : base.LeadsTo manager.database place
  room : manager.database.Fits manager.pathRoom
  plain : Path.IsPlain manager.workspaceName
  apart : manager.workspaceName ∉ Collections.files
  free : base.kind? (place ++ [manager.workspaceName]) = none
  hidden : ∀ number, base.kind? (place ++ [manager.hiddenName number]) = none
  regular : ∀ name ∈ Collections.files, ¬base.HasDirectory (place ++ [name])
  process : manager.owner.process < 2 ^ 32

/-- Whether the workspace in a tree is that of the active transaction, or missing if there is
none. -/
structure HasWorkspace (manager : TransactionManager) (place : List String) (versions : Versions)
    (tree : Tree) : Prop where
  idle : versions.working = none → tree.kind? (place ++ [manager.workspaceName]) = none
  active : ∀ working, versions.working = some working →
    manager.CanStage ∧ working.IsRegular ∧ working.Covers versions.committed ∧
      ∃ workspace, tree.find (place ++ [manager.workspaceName]) = .ok workspace ∧
        workspace.IsWorkspaceOf manager.owner working

/-- Whether a world shows versions: the collections of the database are the committed ones and those
of the workspace the working ones, and the other entries of the database are those of the base. -/
structure Layout (manager : TransactionManager) (base : Tree) (place : List String)
    (versions : Versions) (world : World) : Prop where
  keeps : base.KeepsDirectories world.disk
  committed : ∀ name ∈ Collections.files,
    world.disk.read (place ++ [name]) = versions.committed name
  regular : versions.committed.IsRegular
  workspace : manager.HasWorkspace place versions world.disk
  others : ∀ name, name ∉ Collections.files → name ≠ manager.workspaceName →
    world.disk.kind? (place ++ [name]) = base.kind? (place ++ [name])
  active : world.active.contains manager.owner.handle = versions.working.isSome
  number : world.nextNumber = versions.nextNumber

variable {manager : TransactionManager} {base : Tree} {place : List String}
  {versions : Versions} {world : World}

/-! ## Paths below the database -/

theorem Ground.usable_child (ground : manager.Ground base place) {name : String}
    (member : name ∈ Workspace.names) : (manager.database.child name).isUsable :=
  Workspace.isUsable_child (ground.room.mono (by unfold pathRoom; omega)) member

theorem Ground.workspace_eq (ground : manager.Ground base place) :
    manager.workspace = manager.database.child manager.workspaceName :=
  Path.join_of_isPlain manager.database ground.plain

theorem Ground.staging_eq (ground : manager.Ground base place) (number : Nat) :
    manager.database.join (manager.hiddenName number) =
      manager.database.child (manager.hiddenName number) :=
  Path.join_of_isPlain manager.database (isPlain_hiddenName ground.plain number)

theorem Ground.fits_workspace (ground : manager.Ground base place) (canStage : manager.CanStage) :
    (manager.database.child manager.workspaceName).Fits Workspace.fileRoom := by
  refine Path.Fits.child (ground.room.mono ?_) canStage.2
  unfold pathRoom
  omega

theorem Ground.fits_staging (ground : manager.Ground base place) (canStage : manager.CanStage)
    (number : Nat) :
    (manager.database.child (manager.hiddenName number)).Fits Workspace.fileRoom := by
  refine Path.Fits.child (ground.room.mono ?_) (not_mem_hiddenName canStage.2 number)
  rw [utf8ByteSize_hiddenName]
  exact Nat.le_refl _

theorem Layout.leads (layout : manager.Layout base place versions world)
    (ground : manager.Ground base place) : world.disk.LeadsTo manager.database place :=
  ground.leads.keep layout.keeps

theorem Layout.hidden (layout : manager.Layout base place versions world)
    (ground : manager.Ground base place) (number : Nat) :
    world.disk.kind? (place ++ [manager.hiddenName number]) = none := by
  rw [layout.others _ (hiddenName_not_mem_files number)
    (hiddenName_ne_workspaceName manager number).symm]
  exact ground.hidden number

theorem Layout.read_committed (layout : manager.Layout base place versions world)
    (ground : manager.Ground base place) {name : String} (member : name ∈ Collections.files) :
    world.disk.readAt (manager.database.child name) = versions.committed name := by
  have usable := ground.usable_child (List.mem_cons_of_mem _ member)
  rw [(layout.leads ground).readAt_child (Collections.ne_empty_of_mem_files member) usable]
  exact layout.committed name member

/-! ## Changing one entry -/

theorem HasWorkspace.congr {tree after : Tree}
    (hasWorkspace : manager.HasWorkspace place versions tree)
    (same : after.find (place ++ [manager.workspaceName]) =
      tree.find (place ++ [manager.workspaceName])) :
    manager.HasWorkspace place versions after := by
  refine ⟨fun idle => ?_, fun working works => ?_⟩
  · rw [← hasWorkspace.idle idle, Tree.kind?, same, Tree.kind?]
  · rw [same]
    exact hasWorkspace.active working works

/-- A file of the database is replaced.  If a transaction is active, its workspace must have the
file. -/
theorem Layout.replace_committed (layout : manager.Layout base place versions world)
    (ground : manager.Ground base place) {name : String} (member : name ∈ Collections.files)
    (content : Content)
    (covered : ∀ working, versions.working = some working → working name ≠ .error .missing) :
    ∃ disk, world.disk.replace manager.database name content = (.done, disk) ∧
      manager.Layout base place
        { versions with committed := versions.committed.put name content } { world with disk } := by
  have leads := layout.leads ground
  have inNames : name ∈ Workspace.names := List.mem_cons_of_mem _ member
  have accepts : world.disk.acceptsFile (place ++ [name]) := by
    refine leads.2.acceptsFile_of_read ?_
    rw [layout.committed name member]
    exact layout.regular name member
  have possible := Workspace.canReplace_of_fits
    (ground.room.mono (by unfold pathRoom; omega)) inNames accepts
  have alters := leads.2.altersOnly name [] (some (.file content))
  refine ⟨world.disk.update (place ++ [name]) (some (.file content)), ?_, ?_⟩
  · rcases leads.replace_cases (Workspace.ne_empty_of_mem_names inNames) content with
      ⟨-, -, replaced⟩ | ⟨impossible, -⟩
    · exact replaced
    · exact absurd possible impossible
  refine ⟨?_, fun other otherMember => ?_, layout.regular.put name content, ?_,
    fun other notFile notWorkspace => ?_, layout.active, layout.number⟩
  · exact alters.keeps base (ground.regular name member) layout.keeps
  · have finds := (leads.replaced content possible).2 other
    simp only [Snapshot.put, Tree.read, finds]
    by_cases same : other = name
    · simp only [if_pos same]
    · simp only [if_neg same]
      exact layout.committed other otherMember
  · have apart : manager.workspaceName ≠ name := fun same => ground.apart (same ▸ member)
    have kept := layout.workspace.congr (alters.same _ apart [])
    refine ⟨kept.idle, fun working works => ?_⟩
    obtain ⟨canStage, regular, covers, shown⟩ := kept.active working works
    refine ⟨canStage, regular, fun file fileMember missing => ?_, shown⟩
    have differs : file ≠ name := fun same => covered working works (same ▸ missing)
    simp only [Snapshot.put, if_neg differs]
    exact covers file fileMember missing
  · have apart : other ≠ name := fun same => notFile (same ▸ member)
    rw [← layout.others other notFile notWorkspace, Tree.kind?, alters.same _ apart [], Tree.kind?]

/-- The layout after changes at or below the workspace. -/
theorem Layout.alterWorkspace (layout : manager.Layout base place versions world)
    (ground : manager.Ground base place) {after : World}
    (alters : Tree.AltersOnly place manager.workspaceName world.disk after.disk)
    {working : Option Snapshot}
    (hasWorkspace : manager.HasWorkspace place { versions with working } after.disk)
    (active : after.active.contains manager.owner.handle = working.isSome)
    (number : after.nextNumber = world.nextNumber) :
    manager.Layout base place { versions with working } after := by
  refine ⟨alters.keeps base (Tree.not_hasDirectory_of_kind? ground.free) layout.keeps,
    fun name member => ?_, layout.regular, hasWorkspace, fun name notFile notWorkspace => ?_, active,
    number.trans layout.number⟩
  · have apart : name ≠ manager.workspaceName := fun same => ground.apart (same ▸ member)
    have committed := layout.committed name member
    rw [Tree.read] at committed ⊢
    rwa [alters.same name apart []]
  · rw [← layout.others name notFile notWorkspace, Tree.kind?, alters.same _ notWorkspace [],
      Tree.kind?]

/-- A file of the workspace is replaced. -/
theorem Layout.replace_working (layout : manager.Layout base place versions world)
    (ground : manager.Ground base place) {working : Snapshot}
    (works : versions.working = some working) {name : String} (member : name ∈ Collections.files)
    (content : Content) :
    ∃ disk, world.disk.replace manager.workspace name content = (.done, disk) ∧
      manager.Layout base place
        { versions with working := some (working.put name content) } { world with disk } := by
  obtain ⟨canStage, regular, covers, workspace, found, isWorkspace⟩ :=
    layout.workspace.active working works
  obtain ⟨disk, replaced, foundAfter, alters⟩ := Workspace.replace_child (layout.leads ground)
    (ground.fits_workspace canStage) found isWorkspace.isWorkspace
    (show name ∈ Workspace.names from List.mem_cons_of_mem _ member) content
  refine ⟨disk, ?_, layout.alterWorkspace ground alters ⟨fun idle => (nomatch idle), ?_⟩ ?_ rfl⟩
  · rw [ground.workspace_eq, replaced]
  · rintro _ ⟨rfl⟩
    exact ⟨canStage, regular.put name content, covers.put name content, _, foundAfter,
      isWorkspace.put member content⟩
  · rw [layout.active, works]
    rfl

theorem Layout.read_working (layout : manager.Layout base place versions world)
    (ground : manager.Ground base place) {working : Snapshot}
    (works : versions.working = some working) {name : String} (member : name ∈ Workspace.names) :
    ∃ workspace : Tree, workspace.IsWorkspaceOf manager.owner working ∧
      world.disk.readAt (manager.workspace.child name) = workspace.read [name] := by
  obtain ⟨canStage, -, -, workspace, found, isWorkspace⟩ := layout.workspace.active working works
  have leadsThere := (layout.leads ground).child (isWorkspace.isWorkspace.hasDirectory found)
  have usable := Workspace.isUsable_child (ground.fits_workspace canStage) member
  refine ⟨workspace, isWorkspace, ?_⟩
  rw [ground.workspace_eq, leadsThere.readAt_child (Workspace.ne_empty_of_mem_names member) usable,
    Tree.read, Tree.find_append_of_ok found, Tree.read]

/-! ## Statements -/

theorem Layout.read_current (layout : manager.Layout base place versions world)
    (ground : manager.Ground base place) {name : String} (member : name ∈ Collections.files) :
    world.disk.readAt ((manager.targetIf versions.working.isSome).child name) =
      versions.current name := by
  unfold Versions.current
  cases works : versions.working with
  | none => exact layout.read_committed ground member
  | some working =>
      obtain ⟨workspace, isWorkspace, reads⟩ :=
        layout.read_working ground works (List.mem_cons_of_mem _ member)
      exact reads.trans (isWorkspace.copies name member)

theorem Layout.replace_current (layout : manager.Layout base place versions world)
    (ground : manager.Ground base place) {name : String} (member : name ∈ Collections.files)
    (content : Content) :
    ∃ disk, world.disk.replace (manager.targetIf versions.working.isSome) name content =
        (.done, disk) ∧
      manager.Layout base place (versions.setCurrent (versions.current.put name content))
        { world with disk } := by
  cases works : versions.working with
  | none =>
      have idle : ∀ working, versions.working = some working → working name ≠ .error .missing := by
        intro working same
        rw [works] at same
        cases same
      have current : versions.current = versions.committed := by
        rw [Versions.current, works, Option.getD_none]
      have set : ∀ snapshot, versions.setCurrent snapshot =
          { versions with committed := snapshot } := by
        intro snapshot
        simp only [Versions.setCurrent, works]
      rw [current, set]
      exact layout.replace_committed ground member content idle
  | some working =>
      have current : versions.current = working := by
        rw [Versions.current, works, Option.getD_some]
      have set : ∀ snapshot, versions.setCurrent snapshot =
          { versions with working := some snapshot } := by
        intro snapshot
        simp only [Versions.setCurrent, works]
      rw [current, set]
      exact layout.replace_working ground works member content

/-- Whether a world shows the versions in which statements act on a store. -/
def Tracks (manager : TransactionManager) (base : Tree) (place : List String) (versions : Versions)
    (world : World) (store : Store) : Prop :=
  manager.Layout base place (versions.setStore store) world ∧ store.IsReliable

/-- One action on the collections of the target. -/
theorem Tracks.perform {store : Store} (tracks : manager.Tracks base place versions world store)
    (ground : manager.Ground base place) {action : Action}
    (concerns : (manager.targetIf versions.working.isSome).Concerns action) :
    (world.perform action).1 = (store.perform action).1 ∧
      manager.Tracks base place versions (world.perform action).2 (store.perform action).2 := by
  obtain ⟨layout, reliable⟩ := tracks
  have reliableAfter : (store.perform action).2.IsReliable := by
    intro name
    rw [Store.outcome_perform]
    exact reliable name
  suffices step : (world.perform action).1 = (store.perform action).1 ∧
      manager.Layout base place (versions.setStore (store.perform action).2)
        (world.perform action).2 from
    ⟨step.1, step.2, reliableAfter⟩
  have reads := @layout.read_current _ _ _ _ _ ground
  have replaces := @layout.replace_current _ _ _ _ _ ground
  rw [Versions.isSome_working_setStore, Versions.current_setStore] at reads replaces
  cases action with
  | read path =>
      obtain ⟨name, member, rfl⟩ := concerns
      refine ⟨?_, layout⟩
      simp only [World.perform, Store.perform, Path.entryName_child]
      exact reads member
  | replace target name content =>
      obtain ⟨rfl, member⟩ := concerns
      obtain ⟨disk, replaced, layoutAfter⟩ := replaces member content
      rw [Versions.setCurrent_setStore] at layoutAfter
      simp only [World.perform, World.onDisk, Store.perform, replaced, reliable name, if_true]
      exact ⟨trivial, layoutAfter⟩
  | fresh =>
      refine ⟨layout.number, layout.keeps, layout.committed, layout.regular,
        ⟨layout.workspace.idle, layout.workspace.active⟩, layout.others, layout.active, ?_⟩
      exact congrArg (· + 1) layout.number
  | acquire | release =>
      exact ⟨rfl, layout.keeps, layout.committed, layout.regular, layout.workspace, layout.others,
        layout.active, layout.number⟩
  | _ => cases concerns

/-- Whatever concerns the collections of the target runs as it runs on the store of the
versions. -/
theorem Layout.run {α : Type} {program : Program α}
    (uses : program.Uses (manager.targetIf versions.working.isSome).Concerns)
    (layout : manager.Layout base place versions world) (ground : manager.Ground base place) :
    (program.runWith World.perform world).1 = (program.runWith Store.perform versions.store).1 ∧
      manager.Layout base place
        (versions.setStore (program.runWith Store.perform versions.store).2)
        (program.runWith World.perform world).2 := by
  have start : manager.Tracks base place versions world versions.store := by
    refine ⟨?_, fun name => rfl⟩
    rwa [Versions.setStore_store]
  obtain ⟨same, layoutAfter, -⟩ := Program.runWith_simulates (manager.Tracks base place versions)
    (fun tracks concerns => tracks.perform ground concerns) uses start
  exact ⟨same, layoutAfter⟩

end TransactionManager
end GraphStore
