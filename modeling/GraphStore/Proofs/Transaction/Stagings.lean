import GraphStore.Proofs.Transaction.Contents

/-!
# What the beginning of a transaction does to the files

A workspace is assembled under a hidden name and then moved.  Wherever this stops, the directory of
the database holds what it held; when it succeeds, the workspace holds the same.
-/

namespace GraphStore

variable {path : Path} {place : List String} {name staging : String} {start tree : Tree}
  {world : World}

namespace Tree

/-- Directories that are made along the path of an entry are at this entry. -/
theorem LeadsTo.altersOnly_makeDirectoriesAt_child (leads : tree.LeadsTo path place)
    (name : String) :
    AltersOnly place name tree (tree.makeDirectoriesAt (path.child name)).2 := by
  rw [makeDirectoriesAt]
  split
  · change AltersOnly place name tree (tree.makeAlong [] (path.steps ++ [.down name])).2
    rw [makeAlong_append leads.1 leads.2, Tree.makeAlong]
    split
    · exact .refl leads.2 name
    · exact leads.2.altersOnly name [] _
    · exact .refl leads.2 name
  · exact .refl leads.2 name

/-- Whether nothing has changed in a directory but a hidden entry, which is a directory in which
every file can be read. -/
structure Hosts (path : Path) (place : List String) (staging : String) (start tree : Tree) :
    Prop where
  spares : Spares path place [staging] start tree
  leads : tree.LeadsTo (path.child staging) (place ++ [staging])
  shows_ : ∀ file, file ≠ "" → tree.contents (path.child staging) file = none →
    tree.HasNoFile (place ++ [staging] ++ [file])

theorem Hosts.replace (hosts : Hosts path place staging start tree)
    (avoids : path.Avoids staging) {file : String} (named : file ≠ "")
    (content : Content) :
    Hosts path place staging start (tree.replace (path.child staging) file content).2 := by
  obtain ⟨alters, leads⟩ := hosts.leads.replace_child named content
  refine ⟨hosts.spares.alter alters List.mem_cons_self avoids, leads, fun other namedOther none => ?_⟩
  rcases hosts.leads.replace_cases named content with ⟨possible, -, replaced⟩ | ⟨-, -, kept⟩
  · obtain ⟨leadsAfter, finds⟩ := hosts.leads.replaced content possible
    rw [replaced] at none ⊢
    by_cases same : other = file
    · subst same
      have found := finds other
      rw [if_pos rfl] at found
      rw [(leadsAfter.contents_eq_some named).2 ⟨possible.2.1, found⟩] at none
      cases none
    · have found := finds other
      rw [if_neg same] at found
      rw [contents, hosts.leads.readAt_congr leadsAfter namedOther found] at none
      intro there
      rw [found]
      exact hosts.shows_ other namedOther none there
  · rw [kept] at none ⊢
    exact hosts.shows_ other namedOther none

/-- A directory that was made for a hidden entry hosts it, without a file. -/
theorem LeadsTo.hosts_of_makeDirectoriesAt (leads : tree.LeadsTo path place)
    (avoids : path.Avoids staging) (named : staging ≠ "")
    (free : tree.kindAt? (path.child staging) = none) {made : Tree}
    (makes : tree.makeDirectoriesAt (path.child staging) = (true, made)) :
    Hosts path place staging tree made ∧ ∀ file, made.HasNoFile (place ++ [staging] ++ [file]) := by
  have alters := leads.altersOnly_makeDirectoriesAt_child staging
  rw [makes] at alters
  obtain ⟨-, there, lists⟩ := leads.of_makeDirectoriesAt_child named free makes
  have empty : ∀ file, made.HasNoFile (place ++ [staging] ++ [file]) := by
    intro file content found
    have none := there.2.kind?_of_not_mem lists (List.not_mem_nil (a := file))
    rw [kind?, found] at none
    cases none
  exact ⟨⟨(Spares.refl leads _).alter alters List.mem_cons_self avoids, there,
    fun file _ _ => empty file⟩, empty⟩

theorem renameAt_eq_false {source target : Path} {after : Tree}
    (refused : tree.renameAt source target = (false, after)) : after = tree := by
  unfold renameAt at refused
  split at refused
  · split at refused
    · unfold rename at refused
      split at refused
      · split at refused
        · cases refused
        · split at refused
          · cases refused
          · exact (congrArg Prod.snd refused).symm
      · exact (congrArg Prod.snd refused).symm
    · exact (congrArg Prod.snd refused).symm
  · exact (congrArg Prod.snd refused).symm

/-- A hidden directory that is moved to a shorter name holds there what it held. -/
theorem Hosts.renamed (hosts : Hosts path place staging start tree)
    (plainStaging : Path.IsPlain staging) (plain : Path.IsPlain name)
    (avoidsStaging : path.Avoids staging) (avoids : path.Avoids name)
    (shorter : name.utf8ByteSize < staging.utf8ByteSize)
    (clean : '\x00' ∈ name.toList → '\x00' ∈ staging.toList) {after : Tree}
    (moved : tree.renameAt (path.child staging) (path.child name) = (true, after)) :
    Spares path place [staging, name] start after ∧ (path.child name).isUsable ∧
      tree.HasNoFile (place ++ [name]) ∧ after.LeadsTo (path.child name) (place ++ [name]) ∧
      ∀ file, file ≠ "" →
        after.contents (path.child name) file = tree.contents (path.child staging) file := by
  have differs : staging ≠ name := by
    rintro rfl
    exact absurd shorter (Nat.lt_irrefl _)
  obtain ⟨entries, found⟩ := hosts.leads.2
  have leads := hosts.spares.leads
  obtain ⟨usable, free, rfl⟩ :=
    leads.of_renameAt_child plainStaging.1 plain.1 differs found moved
  have there : ((tree.update (place ++ [staging]) none).update (place ++ [name])
      (some (.directory entries))).find (place ++ [name]) = .ok (.directory entries) :=
    (leads.renamed avoidsStaging differs free).2
  have taken : Spares path place [staging, name] start
      (tree.update (place ++ [staging]) none) :=
    (hosts.spares.mono (by simp)).alter (leads.2.altersOnly staging [] none) List.mem_cons_self
      avoidsStaging
  have spares := taken.alter (taken.leads.2.altersOnly name [] (some (.directory entries)))
    (by simp) avoids
  have leadsThere := spares.leads.child ⟨entries, there⟩
  refine ⟨spares, usable, ?_, leadsThere, fun file named => ?_⟩
  · intro content file
    rcases free with missing | empty
    · rw [missing] at file
      cases file
    · rw [empty] at file
      cases file
  · have same : ((tree.update (place ++ [staging]) none).update (place ++ [name])
        (some (.directory entries))).find (place ++ [name] ++ [file]) =
        tree.find (place ++ [staging] ++ [file]) := by
      rw [find_append_of_ok there, find_append_of_ok found]
    cases holds : tree.contents (path.child staging) file with
    | some content =>
        obtain ⟨usableStaging, foundFile⟩ := (hosts.leads.contents_eq_some named).1 holds
        refine (leadsThere.contents_eq_some named).2 ⟨?_, same.trans foundFile⟩
        exact Path.isUsable_child_child plain plainStaging (Nat.le_of_lt shorter) clean
          usableStaging
    | none =>
        refine leadsThere.contents_eq_none named fun content foundFile => ?_
        rw [same] at foundFile
        exact hosts.shows_ file named holds content foundFile

end Tree

namespace Document

variable {α : Type} {next : Unit → Task StorageError α} {during : World → Prop}
  {ends : Except StorageError α → World → Prop}

/-- A file that is replaced under a hidden entry has its new content, or nothing is changed and the
task fails. -/
theorem passes_replace_hosts (hosts : Tree.Hosts path place staging start world.disk)
    (avoids : path.Avoids staging) {file : String} (named : file ≠ "")
    {content : Content}
    (here : ∀ disk, Tree.Hosts path place staging start disk → during { world with disk })
    (later : ∀ disk, Tree.Hosts path place staging start disk →
      (∀ other, other ≠ "" → disk.contents (path.child staging) other =
        if other = file then some content else world.disk.contents (path.child staging) other) →
      (next ()).run.Passes during ends { world with disk })
    (fails : ∀ error, ends (.error error) world) :
    (replace (path.child staging) file content >>= next).run.Passes during ends world := by
  have kept := hosts.replace avoids named content
  rcases hosts.leads.contents_replace named content with ⟨refused, fail⟩ | ⟨disk, done, -, holds⟩
  · exact passes_replace_of_fails fail refused (here _ hosts) fails
  · rw [done] at kept
    exact passes_replace_of_done done (here _ kept) (later _ kept holds)

end Document

namespace Workspace

/-- Files that are copied below a hidden entry are there what they are in the directory. -/
theorem passes_copyFiles_child (leads : start.LeadsTo path place)
    (avoids : path.Avoids staging) (hidden : staging ∉ Collections.files)
    {names : List String} (members : ∀ file ∈ names, file ∈ Collections.files)
    (hosts : Tree.Hosts path place staging start world.disk) :
    (copyFiles path (path.child staging) names).run.Passes
      (fun stopped => Tree.Spares path place [staging] start stopped.disk)
      (fun result after => Tree.Hosts path place staging start after.disk ∧
        (result = .ok () → ∀ file, file ≠ "" →
          after.disk.contents (path.child staging) file =
            (if file ∈ names then start.contents path file else none).or
              (world.disk.contents (path.child staging) file))) world := by
  induction names generalizing world with
  | nil => exact ⟨hosts, fun _ file _ => by simp⟩
  | cons name rest ih =>
      have member := members name List.mem_cons_self
      have named := Collections.ne_empty_of_mem_files member
      have membersRest : ∀ file ∈ rest, file ∈ Collections.files := fun file inRest =>
        members file (List.mem_cons_of_mem name inRest)
      have read : (world.perform (.read (path.child name))).1 = start.readAt (path.child name) :=
        hosts.spares.readAt leads named fun inside =>
          hidden (List.mem_singleton.1 inside ▸ member)
      refine ⟨hosts.spares, ?_⟩
      rw [read]
      cases holds : start.readAt (path.child name) with
      | ok content =>
          have shown : start.contents path name = some content := by rw [Tree.contents, holds]; rfl
          change Program.Passes _ _ world (Document.replace (path.child staging) name content >>=
            fun _ => copyFiles path (path.child staging) rest).run
          refine Document.passes_replace_hosts hosts avoids named (fun _ kept => kept.spares) ?_
            fun _ => ⟨hosts, by rintro ⟨⟩⟩
          intro disk kept replaced
          let replacedWorld := { world with disk }
          have hostsReplaced : Tree.Hosts path place staging start replacedWorld.disk := kept
          refine (ih membersRest hostsReplaced).mono id ?_
          rintro result after ⟨reached, copied⟩
          refine ⟨reached, fun succeeds file namedFile => ?_⟩
          rw [copied succeeds file namedFile, replaced file namedFile]
          by_cases same : file = name
          · subst same
            by_cases inside : file ∈ rest <;> simp [shown, inside]
          · simp [same]
      | error fault =>
          have shown : start.contents path name = none := by rw [Tree.contents, holds]; rfl
          cases fault with
          | obstructed => exact ⟨hosts, by rintro ⟨⟩⟩
          | missing =>
              refine (ih membersRest hosts).mono id ?_
              rintro result after ⟨reached, copied⟩
              refine ⟨reached, fun succeeds file namedFile => ?_⟩
              rw [copied succeeds file namedFile]
              by_cases same : file = name
              · subst same
                simp [shown]
              · simp [same]

/-! ## Staging -/

section

variable (plainStaging : Path.IsPlain staging) (plain : Path.IsPlain name)
  (avoidsStaging : path.Avoids staging) (avoids : path.Avoids name)
  (shorter : name.utf8ByteSize < staging.utf8ByteSize)
  (clean : '\x00' ∈ name.toList → '\x00' ∈ staging.toList)
  (hidden : staging ∉ Collections.files)

include plainStaging plain avoidsStaging avoids shorter clean hidden

/-- Staging leaves the collections of the directory as they are, and copies them if it succeeds. -/
theorem passes_stage (owner : Owner) (leads : world.disk.LeadsTo path place)
    (free : world.disk.kindAt? (path.child staging) = none) :
    (stage owner path (path.child staging) (path.child name)).run.Passes
      (fun stopped => Tree.Spares path place [staging, name] world.disk stopped.disk)
      (fun result after => Tree.Spares path place [staging, name] world.disk after.disk ∧
        (result = .ok () → ∀ file ∈ Collections.files,
          after.disk.contents path file = world.disk.contents path file ∧
            after.disk.contents (path.child name) file = world.disk.contents path file) ∧
        (result ≠ .ok () → Tree.Spares path place [staging] world.disk after.disk)) world := by
  have weaken : ∀ {disk : Tree}, Tree.Spares path place [staging] world.disk disk →
      Tree.Spares path place [staging, name] world.disk disk := fun spares =>
    spares.mono (by simp)
  rcases makes : world.disk.makeDirectoriesAt (path.child staging) with ⟨made, disk⟩
  have alters := leads.altersOnly_makeDirectoriesAt_child staging
  rw [makes] at alters
  have spares := (Tree.Spares.refl leads [staging]).alter alters List.mem_cons_self avoidsStaging
  have performed : world.perform (.makeDirectories (path.child staging)) =
      (made, { world with disk }) := by
    simp only [World.perform, World.onDisk, makes]
  change Program.Passes _ _ _ (Program.act _ _)
  simp only [Program.PassesWith, performed]
  refine ⟨weaken spares, ?_⟩
  cases made with
  | false => exact ⟨weaken spares, by rintro ⟨⟩, fun _ => spares⟩
  | true =>
      obtain ⟨hosts, empty⟩ :=
        leads.hosts_of_makeDirectoriesAt avoidsStaging plainStaging.1 free makes
      let made := { world with disk }
      have hostsMade : Tree.Hosts path place staging world.disk made.disk := hosts
      change Program.Passes _ _ made (Document.replace (path.child staging) Owner.file _ >>= _).run
      refine Document.passes_replace_hosts hostsMade avoidsStaging (by decide)
        (fun _ kept => weaken kept.spares) ?_ fun _ => ⟨weaken spares, by rintro ⟨⟩, fun _ => spares⟩
      intro marked hostsMarked replaced
      let markedWorld := { made with disk := marked }
      have hostsHere : Tree.Hosts path place staging world.disk markedWorld.disk := hostsMarked
      refine Program.passes_taskBind ((passes_copyFiles_child leads avoidsStaging hidden
        (fun _ member => member) hostsHere).mono weaken id) ?_ ?_
      · rintro ⟨⟩ copied ⟨hostsCopied, copies⟩
        have holds : ∀ file ∈ Collections.files,
            copied.disk.contents (path.child staging) file = world.disk.contents path file := by
          intro file member
          have named := Collections.ne_empty_of_mem_files member
          rw [copies rfl file named, if_pos member, replaced file named,
            if_neg (Collections.ne_marker_of_mem_files member),
            hosts.leads.contents_eq_none named (empty file), Option.or_none]
        rcases moves : copied.disk.renameAt (path.child staging) (path.child name) with
          ⟨moved, after⟩
        have performed : copied.perform (.rename (path.child staging) (path.child name)) =
            (moved, { copied with disk := after }) := by
          simp only [World.perform, World.onDisk, moves]
        change Program.Passes _ _ _ (Program.act _ _)
        simp only [Program.PassesWith, performed]
        cases moved with
        | false =>
            obtain rfl := Tree.renameAt_eq_false moves
            exact ⟨weaken hostsCopied.spares, weaken hostsCopied.spares, by rintro ⟨⟩,
              fun _ => hostsCopied.spares⟩
        | true =>
            obtain ⟨sparesBoth, -, noFile, there, same⟩ :=
              hostsCopied.renamed plainStaging plain avoidsStaging avoids shorter clean moves
            refine ⟨sparesBoth, sparesBoth, fun _ file member => ?_, fun fails => absurd rfl fails⟩
            have named := Collections.ne_empty_of_mem_files member
            refine ⟨sparesBoth.contents leads named fun inside => ?_,
              (same file named).trans (holds file member)⟩
            have here : file = name := by
              rcases List.mem_cons.1 inside with equal | other
              · exact absurd member (equal ▸ hidden)
              · exact List.mem_singleton.1 other
            subst here
            refine ⟨fun content found => noFile content ?_, there.2.hasNoFile⟩
            rw [hostsCopied.spares.same file ?_ []]
            · exact found
            · intro inside
              exact hidden (List.mem_singleton.1 inside ▸ member)
      · rintro error after ⟨hostsAfter, -⟩
        exact ⟨weaken hostsAfter.spares, by rintro ⟨⟩, fun _ => hostsAfter.spares⟩

end

end Workspace

/-! ## Beginning -/

namespace TransactionManager

variable {manager : TransactionManager}

variable (manager) in
/-- What follows a staging: it is noted, or its rest is removed. -/
theorem passes_concludeBegin {result : Except StorageError Unit}
    (avoidsStaging : manager.database.Avoids staging)
    (spares : Tree.Spares manager.database place [staging, manager.workspaceName] start world.disk)
    (kept : result ≠ .ok () → Tree.Spares manager.database place [staging] start world.disk) :
    (manager.concludeBegin (manager.database.child staging) result).run.Passes
      (fun stopped => Tree.Spares manager.database place [staging, manager.workspaceName] start
        stopped.disk)
      (fun outcome after => outcome = .ok () ∧ result = .ok () ∧ after.disk = world.disk ∨
        outcome ≠ .ok () ∧ Tree.Spares manager.database place [staging] start after.disk)
      world := by
  have weaken : ∀ {disk : Tree}, Tree.Spares manager.database place [staging] start disk →
      Tree.Spares manager.database place [staging, manager.workspaceName] start disk :=
    fun spares => spares.mono (by simp)
  cases result with
  | ok _ => exact ⟨spares, .inl ⟨rfl, rfl, rfl⟩⟩
  | error error =>
      have sparesStaging := kept (by rintro ⟨⟩)
      have uses : (Workspace.cleanup (manager.database.child staging)).run.Uses
          (Action.Cleans (manager.database.child staging)) :=
        (Workspace.uses_cleanup _).mono Action.Removes.cleans
      let forgotten := (world.perform (.setLive manager.owner.handle false)).2
      refine Program.passes_lift ⟨spares, ?_⟩
      have sparesForgotten :
          Tree.Spares manager.database place [staging] start forgotten.disk := sparesStaging
      refine Program.passes_lift ((Program.passes_cleans uses sparesForgotten List.mem_cons_self
        avoidsStaging).mono weaken ?_)
      intro _ cleaned sparesCleaned
      refine Program.passes_lift (Program.passes_bind ⟨weaken sparesCleaned, ?_⟩)
      change Program.Passes _ _ cleaned (ExceptT.run (ite _ _ _))
      split
      · exact .inr ⟨by rintro ⟨⟩, sparesCleaned⟩
      · exact .inr ⟨by rintro ⟨⟩, sparesCleaned⟩

/-- The beginning of a transaction leaves the collections of the database as they are, and if it
succeeds the workspace holds the same. -/
theorem passes_begin (plain : Path.IsPlain manager.workspaceName)
    (leads : world.disk.LeadsTo manager.database place)
    (avoids : manager.database.Avoids manager.workspaceName)
    (avoidsStaging : manager.database.Avoids (manager.hiddenName world.nextNumber))
    (unused : world.disk.kindAt?
      (manager.database.child (manager.hiddenName world.nextNumber)) = none) :
    manager.begin.run.Passes
      (fun stopped => Tree.Spares manager.database place
        [manager.hiddenName world.nextNumber, manager.workspaceName] world.disk stopped.disk)
      (fun result after => after.disk.LeadsTo manager.database place ∧
        ∀ file ∈ Collections.files,
          after.disk.contents manager.database file = world.disk.contents manager.database file ∧
            (result = .ok () → after.disk.contents manager.workspace file =
              world.disk.contents manager.database file)) world := by
  let staging := manager.hiddenName world.nextNumber
  have plainStaging : Path.IsPlain staging := isPlain_hiddenName plain world.nextNumber
  have hidden : staging ∉ Collections.files := hiddenName_not_mem_files world.nextNumber
  have here := Tree.Spares.refl leads [staging, manager.workspaceName]
  have refused : ∀ {error : TransactionError}, world.disk.LeadsTo manager.database place ∧
      ∀ file ∈ Collections.files,
        world.disk.contents manager.database file = world.disk.contents manager.database file ∧
          ((.error error : Except TransactionError Unit) = .ok () →
            world.disk.contents manager.workspace file =
              world.disk.contents manager.database file) :=
    ⟨leads, fun _ _ => ⟨rfl, by rintro ⟨⟩⟩⟩
  have thereStaging : manager.database.join staging = manager.database.child staging :=
    Path.join_of_isPlain _ plainStaging
  have there : manager.workspace = manager.database.child manager.workspaceName :=
    Path.join_of_isPlain _ plain
  rw [TransactionManager.begin]
  refine Program.passes_lift ⟨here, ?_⟩
  change Program.Passes _ _ world (ExceptT.run (ite _ _ _))
  split
  · exact refused
  · refine Program.passes_lift (Program.passes_bind ⟨here, ?_⟩)
    change Program.Passes _ _ world (ExceptT.run (ite _ _ _))
    split
    · exact refused
    · refine Program.passes_lift ⟨here, ?_⟩
      refine Program.passes_lift ⟨here, ?_⟩
      refine Program.passes_lift ?_
      have shorter : manager.workspaceName.utf8ByteSize < staging.utf8ByteSize := by
        rw [utf8ByteSize_hiddenName, Replacement.temporaryExtra]
        omega
      have leadsDrawn : (manager.drawn world).disk.LeadsTo manager.database place := leads
      have staged := Workspace.passes_stage plainStaging plain avoidsStaging avoids shorter
        (fun unclean => mem_hiddenName unclean world.nextNumber) hidden manager.owner leadsDrawn
        unused
      rw [← thereStaging, ← there] at staged
      refine staged.mono id fun {result stagedWorld} reached => ?_
      obtain ⟨spares, copied, kept⟩ := reached
      have concluded := manager.passes_concludeBegin avoidsStaging spares kept
      rw [← thereStaging] at concluded
      refine concluded.mono id ?_
      rintro outcome after (⟨rfl, rfl, same⟩ | ⟨fails, sparesStaging⟩)
      · rw [same]
        exact ⟨spares.leads, fun file member =>
          ⟨(copied rfl file member).1, fun _ => (copied rfl file member).2⟩⟩
      · refine ⟨sparesStaging.leads, fun file member => ?_⟩
        refine ⟨sparesStaging.contents leads (Collections.ne_empty_of_mem_files member)
          fun inside => ?_, fun ok => absurd ok fails⟩
        exact absurd member (List.mem_singleton.1 inside ▸ hidden)

end TransactionManager
end GraphStore
