import GraphStore.Proofs.Transaction.Writers

/-!
# Publishing transactions

A commit copies the collections of the workspace over those of the database, one after the other.
It stops at the first one that cannot be copied, and what was copied before stays: the database
shows an initial segment of the collections as the transaction left them, and the others as they were.
-/

namespace GraphStore

/-- What the files of a directory hold. -/
def Tree.snapshot (tree : Tree) (place : List String) : Snapshot :=
  fun name => tree.read (place ++ [name])

namespace Document

variable {directory : Path} {name : String} {content : Content} {world : World} {α : Type}
  {next : Unit → Task StorageError α} {during : World → Prop}
  {ends : Except StorageError α → World → Prop}

theorem passes_replace_of_done {disk : Tree}
    (replaced : world.disk.replace directory name content = (.done, disk))
    (here : during { world with disk })
    (later : (next ()).run.Passes during ends { world with disk }) :
    (replace directory name content >>= next).run.Passes during ends world := by
  have performed : world.perform (.replace directory name content) =
      (.done, { world with disk }) := by
    simp only [World.perform, World.onDisk, replaced]
  refine ⟨?_, ?_⟩
  · rw [performed]
    exact here
  · rw [performed]
    exact later

theorem passes_replace_of_fails {reason : Replacement} (fails : reason ≠ .done)
    (refused : world.disk.replace directory name content = (reason, world.disk))
    (here : during world) (reached : ∀ error, ends (.error error) world) :
    (replace directory name content >>= next).run.Passes during ends world := by
  have performed : world.perform (.replace directory name content) = (reason, world) := by
    simp only [World.perform, World.onDisk, refused]
  refine ⟨?_, ?_⟩
  · rw [performed]
    exact here
  · rw [performed]
    cases reason with
    | done => exact absurd rfl fails
    | noDirectory => exact reached _
    | noFile => exact reached _

end Document

namespace TransactionManager

/-- What the files of the workspace hold. -/
def working (manager : TransactionManager) (tree : Tree) : Snapshot :=
  fun name => tree.readAt (manager.workspace.child name)

/-- Whether a collection can be published: the workspace does not have it, or it can be read there
and replaced in the database. -/
def canPublish (manager : TransactionManager) (tree : Tree) (name : String) : Bool :=
  match manager.working tree name with
  | .ok _ => tree.replacement manager.database name == .done
  | .error fault => fault == .missing

/-- The collections that a commit publishes: none if there is no transaction of the manager, else
those before the first one that cannot be published. -/
def published (manager : TransactionManager) (world : World) : List String :=
  if world.active.contains manager.owner.handle ∧
      Owner.ofContent? (manager.working world.disk Owner.file) = some manager.owner then
    Collections.files.takeWhile (manager.canPublish world.disk)
  else []

theorem published_congr (manager : TransactionManager) {left right : World}
    (same : left.unlocked = right.unlocked) : manager.published left = manager.published right := by
  unfold published
  rw [World.active_congr same, World.disk_congr same]

/-- Whether a tree shows some collections as the workspace of another tree holds them and the others
as they are there, except for what may have become of the workspace. -/
def Exposes (manager : TransactionManager) (place : List String) (start : Tree)
    (names : List String) (tree : Tree) : Prop :=
  ∃ mid : Tree, mid.LeadsTo manager.database place ∧
    mid.snapshot place = (start.snapshot place).overlay (manager.working start) names ∧
      Tree.AltersOnly place manager.workspaceName mid tree

theorem canPublish_of_ok {manager : TransactionManager} {tree : Tree} {name : String}
    {content : Content} (read : manager.working tree name = .ok content) :
    manager.canPublish tree name = (tree.replacement manager.database name == .done) := by
  unfold canPublish
  rw [read]

theorem canPublish_of_error {manager : TransactionManager} {tree : Tree} {name : String}
    {fault : Fault} (read : manager.working tree name = .error fault) :
    manager.canPublish tree name = (fault == .missing) := by
  unfold canPublish
  rw [read]

variable {manager : TransactionManager} {place names : List String} {start tree : Tree}
  {world : World}

theorem Exposes.snapshot_eq (exposes : manager.Exposes place start names tree) {name : String}
    (apart : name ≠ manager.workspaceName) :
    tree.snapshot place name = (start.snapshot place).overlay (manager.working start) names name := by
  obtain ⟨mid, -, same, alters⟩ := exposes
  rw [← same, Tree.snapshot, Tree.read, alters.same name apart [], Tree.snapshot, Tree.read]

theorem Exposes.cleaned (exposes : manager.Exposes place start names world.disk)
    (plain : Path.IsPlain manager.workspaceName) {action : Action}
    (cleans : action.Cleans manager.workspace) :
    manager.Exposes place start names (world.perform action).2.disk := by
  obtain ⟨mid, leads, same, alters⟩ := exposes
  rw [workspace, Path.join_of_isPlain manager.database plain] at cleans
  exact ⟨mid, leads, same, alters.cleaned leads cleans⟩

theorem Exposes.opened (exposes : manager.Exposes place start names world.disk)
    {settings : Settings} (sameName : settings.workspaceName = manager.workspaceName) :
    manager.Exposes place start names
      (world.run (Database.open manager.database settings).run).2.disk := by
  obtain ⟨mid, leads, same, alters⟩ := exposes
  rw [← sameName] at alters
  refine ⟨mid, leads, same, ?_⟩
  rw [← sameName]
  exact Database.altersOnly_open leads alters

/-! ## Copying -/

/-- Whether the database shows a snapshot after some collections were copied from the workspace of a
tree: the collections can still be read and replaced as they could before. -/
structure Copied (manager : TransactionManager) (place : List String) (start : Tree)
    (snapshot : Snapshot) (tree : Tree) : Prop where
  leads : tree.LeadsTo manager.database place
  shows_ : tree.snapshot place = snapshot
  reads : ∀ name ∈ Collections.files, manager.working tree name = manager.working start name
  replaces : ∀ name ∈ Collections.files,
    tree.replacement manager.database name = start.replacement manager.database name

theorem Copied.exposes (copied : manager.Copied place start
      ((start.snapshot place).overlay (manager.working start) names) tree) :
    manager.Exposes place start names tree :=
  ⟨tree, copied.leads, copied.shows_, .refl copied.leads.2 _⟩

/-- What is read below a directory is in that directory. -/
theorem hasDirectory_of_working (leads : tree.LeadsTo manager.database place)
    (plain : Path.IsPlain manager.workspaceName) {name : String} {content : Content}
    (read : manager.working tree name = .ok content) :
    tree.HasDirectory (place ++ [manager.workspaceName]) := by
  rw [working, workspace, Path.join_of_isPlain manager.database plain, Tree.readAt,
    Tree.findAt] at read
  cases located : tree.locate ((manager.database.child manager.workspaceName).child name) with
  | error fault =>
      rw [located] at read
      cases read
  | ok target =>
      have follows := Tree.follow_of_locate located
      simp only [Path.child, List.append_assoc, Tree.follow_append, leads.1, Tree.follow] at follows
      split at follows
      · next between stepped =>
          split at stepped
          · obtain rfl := Except.ok.inj stepped
            split at follows
            · next found => exact ⟨_, found⟩
            · cases follows
            · cases follows
          · cases stepped
          · cases stepped
      · cases follows

theorem Copied.replaced {snapshot : Snapshot} (copied : manager.Copied place start snapshot tree)
    (plain : Path.IsPlain manager.workspaceName) {name : String} (member : name ∈ Collections.files)
    {content : Content} (read : manager.working start name = .ok content)
    (possible : start.replacement manager.database name = .done) :
    ∃ after, tree.replace manager.database name content = (.done, after) ∧
      manager.Copied place start (snapshot.put name content) after := by
  have leads := copied.leads
  rcases leads.replace_cases (Collections.ne_empty_of_mem_files member) content with
    ⟨can, -, replaced⟩ | ⟨-, impossible, -⟩
  · obtain ⟨leadsAfter, finds⟩ := leads.replaced content can
    -- The workspace is a directory, so it is another entry than the one that is replaced.
    have stands := hasDirectory_of_working leads plain ((copied.reads name member).trans read)
    have apart : manager.workspaceName ≠ name := by
      intro same
      rw [same] at stands
      exact Tree.not_hasDirectory_of_acceptsFile can.2.2.2 stands
    refine ⟨_, replaced, leadsAfter, ?_, fun other otherMember => ?_, fun other otherMember => ?_⟩
    · funext other
      rw [← copied.shows_, Tree.snapshot, Tree.read, finds, Snapshot.put]
      by_cases same : other = name
      · rw [if_pos same, if_pos same]
      · rw [if_neg same, if_neg same]
        rfl
    · rw [← copied.reads other otherMember, working, working, workspace,
        Path.join_of_isPlain manager.database plain]
      have standsAfter : (tree.update (place ++ [name]) (some (.file content))).HasDirectory
          (place ++ [manager.workspaceName]) := by
        obtain ⟨entries, found⟩ := stands
        exact ⟨entries, (leads.2.find_update_of_ne apart [] [] _).trans found⟩
      refine (leads.child stands).readAt_congr (leadsAfter.child standsAfter)
        (Collections.ne_empty_of_mem_files otherMember) ?_
      rw [List.append_assoc]
      exact leads.2.find_update_of_ne apart [] [other] _
    · rw [← copied.replaces other otherMember]
      exact leads.replacement_congr leadsAfter (Collections.ne_empty_of_mem_files otherMember)
        (leads.acceptsFile_replaced content can other)
  · rw [copied.replaces name member] at impossible
    exact absurd possible impossible

/-- Collections are copied up to the first one that cannot be published. -/
theorem Copied.passes {snapshot : Snapshot}
    (copied : manager.Copied place start snapshot world.disk)
    (plain : Path.IsPlain manager.workspaceName)
    (members : ∀ name ∈ names, name ∈ Collections.files) :
    (Workspace.copyFiles manager.workspace manager.database names).run.Passes
      (fun stopped => ∃ part, part <+: names.takeWhile (manager.canPublish start) ∧
        manager.Copied place start (snapshot.overlay (manager.working start) part) stopped.disk)
      (fun result after => manager.Copied place start (snapshot.overlay (manager.working start)
          (names.takeWhile (manager.canPublish start))) after.disk ∧
        (result = .ok () ↔ names.takeWhile (manager.canPublish start) = names)) world := by
  induction names generalizing snapshot world with
  | nil => exact ⟨copied, fun _ => rfl, fun _ => rfl⟩
  | cons name rest ih =>
      have member := members name List.mem_cons_self
      have membersRest : ∀ other ∈ rest, other ∈ Collections.files := fun other inRest =>
        members other (List.mem_cons_of_mem name inRest)
      refine ⟨⟨[], List.nil_prefix, copied⟩, ?_⟩
      have read : (world.perform (.read (manager.workspace.child name))).1 =
        manager.working start name := copied.reads name member
      rw [read]
      cases holds : manager.working start name with
      | ok content =>
          change Program.Passes _ _ world (Document.replace manager.database name content >>=
            fun _ => Workspace.copyFiles manager.workspace manager.database rest).run
          cases possible : start.replacement manager.database name == .done with
          | true =>
              have can := (canPublish_of_ok holds).trans possible
              obtain ⟨disk, replaced, copiedAfter⟩ :=
                copied.replaced plain member holds (beq_iff_eq.1 possible)
              simp only [List.takeWhile_cons, can, if_true]
              have same : ∀ part, snapshot.overlay (manager.working start) (name :: part) =
                  (snapshot.put name content).overlay (manager.working start) part := by
                intro part
                rw [Snapshot.overlay, holds]
              refine Document.passes_replace_of_done replaced
                ⟨[name], List.prefix_append [name] _, same [] ▸ copiedAfter⟩ ?_
              refine (ih copiedAfter membersRest).mono ?_ ?_
              · rintro stopped ⟨part, isPrefix, reached⟩
                rw [← same] at reached
                exact ⟨name :: part, List.cons_prefix_cons.2 ⟨rfl, isPrefix⟩, reached⟩
              · rintro result after ⟨reached, succeeds⟩
                rw [← same] at reached
                exact ⟨reached, succeeds.trans ⟨congrArg _, List.tail_eq_of_cons_eq⟩⟩
          | false =>
              have cannot := (canPublish_of_ok holds).trans possible
              simp only [List.takeWhile_cons, cannot, Bool.false_eq_true, if_false]
              have named := Collections.ne_empty_of_mem_files member
              have fails : world.disk.replacement manager.database name ≠ .done := by
                rw [copied.replaces name member]
                intro done
                simp [done] at possible
              rcases copied.leads.replace_cases named content with ⟨-, done, -⟩ | ⟨-, -, refused⟩
              · exact absurd done fails
              · exact Document.passes_replace_of_fails fails refused ⟨[], List.nil_prefix, copied⟩
                  fun error => ⟨copied, by rintro ⟨⟩, by rintro ⟨⟩⟩
      | error fault =>
          cases fault with
          | missing =>
              have can := canPublish_of_error holds
              simp only [List.takeWhile_cons, can, beq_self_eq_true, if_true]
              have same : ∀ part, snapshot.overlay (manager.working start) (name :: part) =
                  snapshot.overlay (manager.working start) part := by
                intro part
                rw [Snapshot.overlay, holds]
              refine (ih copied membersRest).mono ?_ ?_
              · rintro stopped ⟨part, isPrefix, reached⟩
                rw [← same] at reached
                exact ⟨name :: part, List.cons_prefix_cons.2 ⟨rfl, isPrefix⟩, reached⟩
              · rintro result after ⟨reached, succeeds⟩
                rw [← same] at reached
                exact ⟨reached, succeeds.trans ⟨congrArg _, List.tail_eq_of_cons_eq⟩⟩
          | obstructed =>
              have cannot := canPublish_of_error holds
              simp only [List.takeWhile_cons, cannot]
              exact ⟨copied, by rintro ⟨⟩, by rintro ⟨⟩⟩

/-! ## Commits -/

/-- The end of a transaction fails only if files cannot be used. -/
theorem finish_ne_noActiveTransaction (manager : TransactionManager) (world : World) :
    (world.run manager.finish.run).1 ≠ .error .noActiveTransaction := by
  have concluded : ∀ (result : Except StorageError Unit) (world : World),
      (Task.runWith World.perform world (do
        ExceptT.lift (manager.setActive false)
        ExceptT.lift (manager.setLive false)
        Task.mapError TransactionError.storage (ExceptT.mk (pure result)))).1 ≠
          .error .noActiveTransaction := by
    intro result world
    rw [Task.runWith_bind_of_ok (Task.runWith_lift _ _ _),
      Task.runWith_bind_of_ok (Task.runWith_lift _ _ _), Task.runWith_mapError]
    cases result with
    | ok _ => rintro ⟨⟩
    | error error => rintro ⟨⟩
  rw [Program.run_eq_runWith, Task.runWith_run, finish,
    Task.runWith_bind_of_ok (Task.runWith_lift _ _ _)]
  split
  · exact concluded (.ok ()) _
  · rw [Task.runWith_bind_of_ok (Task.runWith_lift _ _ _)]
    exact concluded _ _

theorem passes_finish (plain : Path.IsPlain manager.workspaceName)
    (exposes : manager.Exposes place start names world.disk) :
    manager.finish.run.Passes (fun stopped => manager.Exposes place start names stopped.disk)
      (fun result after => manager.Exposes place start names after.disk ∧
        result ≠ .error .noActiveTransaction) world := by
  have passes := Program.passes_of_uses (fun world => manager.Exposes place start names world.disk)
    manager.uses_finish (fun exposes cleans => exposes.cleaned plain cleans) exposes
  refine passes.and_run.mono id ?_
  rintro result after ⟨reached, rfl⟩
  exact ⟨reached, manager.finish_ne_noActiveTransaction world⟩

theorem passes_copyCollections (plain : Path.IsPlain manager.workspaceName)
    (leads : world.disk.LeadsTo manager.database place) :
    (Task.mapError TransactionError.storage
      (Workspace.copyCollections manager.workspace manager.database)).run.Passes
      (fun stopped => ∃ part, part <+: Collections.files.takeWhile (manager.canPublish world.disk) ∧
        manager.Exposes place world.disk part stopped.disk)
      (fun result after => manager.Exposes place world.disk
          (Collections.files.takeWhile (manager.canPublish world.disk)) after.disk ∧
        (result = .ok () →
          Collections.files.takeWhile (manager.canPublish world.disk) = Collections.files) ∧
        result ≠ .error .noActiveTransaction) world := by
  have copied : manager.Copied place world.disk (world.disk.snapshot place) world.disk :=
    ⟨leads, rfl, fun _ _ => rfl, fun _ _ => rfl⟩
  refine Program.passes_mapError ((copied.passes plain fun _ member => member).mono ?_ ?_)
  · rintro stopped ⟨part, isPrefix, reached⟩
    exact ⟨part, isPrefix, reached.exposes⟩
  · rintro result after ⟨reached, succeeds⟩
    refine ⟨reached.exposes, fun ok => succeeds.1 ?_, ?_⟩
    · cases result with
      | ok _ => rfl
      | error error => cases ok
    · cases result with
      | ok _ => rintro ⟨⟩
      | error error => rintro ⟨⟩

/-- A commit publishes collections one after the other, whether it succeeds or not. -/
theorem passes_commit (plain : Path.IsPlain manager.workspaceName)
    (leads : world.disk.LeadsTo manager.database place) :
    manager.commit.run.Passes
      (fun stopped => ∃ part, part <+: manager.published world ∧
        manager.Exposes place world.disk part stopped.disk)
      (fun result after => manager.Exposes place world.disk (manager.published world) after.disk ∧
        (result = .ok () → manager.published world = Collections.files) ∧
        (result = .error .noActiveTransaction → manager.published world = [])) world := by
  have untouched : manager.Exposes place world.disk [] world.disk :=
    ⟨world.disk, leads, rfl, .refl leads.2 _⟩
  have here : ∃ part, part <+: manager.published world ∧
      manager.Exposes place world.disk part world.disk :=
    ⟨[], List.nil_prefix, untouched⟩
  rw [commit]
  refine Program.passes_lift ⟨here, ?_⟩
  cases active : world.active.contains manager.owner.handle with
  | false =>
      have none : manager.published world = [] := by
        rw [published, active, if_neg (by simp)]
      simp only [Program.PassesWith, World.perform, active]
      refine ⟨none ▸ untouched, by rintro ⟨⟩, fun _ => none⟩
  | true =>
      simp only [Program.PassesWith, World.perform, active]
      refine Program.passes_lift ?_
      refine Program.passes_bind (Program.passes_bind ⟨here, ?_⟩)
      change Program.Passes _ _ world (ExceptT.run (ite (decide (Owner.ofContent?
        (manager.working world.disk Owner.file) = some manager.owner) = true) _ _))
      by_cases own : Owner.ofContent? (manager.working world.disk Owner.file) = some manager.owner
      · have some : manager.published world =
            Collections.files.takeWhile (manager.canPublish world.disk) := by
          rw [published, if_pos ⟨active, own⟩]
        rw [if_pos (decide_eq_true own), some]
        refine Program.passes_taskBind (passes_copyCollections plain leads) ?_ ?_
        · rintro value after ⟨reached, succeeds, -⟩
          refine (passes_finish plain reached).mono ?_ ?_
          · rintro stopped reached
            exact ⟨_, List.prefix_rfl, reached⟩
          · rintro result last ⟨reached, storage⟩
            exact ⟨reached, fun _ => succeeds rfl, fun none => absurd none storage⟩
        · rintro error after ⟨reached, -, storage⟩
          exact ⟨reached, by rintro ⟨⟩, fun none => absurd none storage⟩
      · have none : manager.published world = [] := by
          rw [published, if_neg fun both => own both.2]
        rw [if_neg (by simp [own]), none]
        refine Program.passes_taskBind ((passes_finish plain untouched).mono ?_ id) ?_ ?_
        · rintro stopped reached
          exact ⟨[], List.nil_prefix, reached⟩
        · rintro value after ⟨reached, -⟩
          exact ⟨reached, by rintro ⟨⟩, fun _ => rfl⟩
        · rintro error after ⟨reached, -⟩
          exact ⟨reached, by rintro ⟨⟩, fun _ => rfl⟩

end TransactionManager

namespace Database

variable {database : Database} {place : List String} {world : World}

/-- A change of the transaction passes through the same disks as without locks. -/
theorem passes_changeTransaction {change : Task TransactionError Unit} (during : Tree → Prop)
    (ends : Except TransactionError Unit → Tree → Prop) (start : during world.disk)
    (changes : ∀ inside : World, inside.unlocked = world.unlocked →
      change.run.Passes (fun stopped => during stopped.disk)
        (fun result after => ends result after.disk ∧ during after.disk) inside) :
    (database.changeTransaction change).run.Passes (fun stopped => during stopped.disk)
      (fun result after => ends result after.disk) world := by
  have locks : ∀ {program : Program PUnit} {before : World}, program.Uses Action.IsLocking →
      during before.disk → program.Passes (fun stopped => during stopped.disk)
        (fun _ after => after.unlocked = before.unlocked) before := by
    intro program before uses here
    have passes := Program.passes_of_uses (fun world => world.unlocked = before.unlocked) uses
      (fun same locking => (World.unlocked_perform _ locking).trans same) rfl
    refine passes.mono (fun same => ?_) id
    rw [World.disk_congr same]
    exact here
  refine ⟨start, ?_⟩
  change Program.Passes _ _ _ ((Query.Executor.holding database.name LockRegistry.collections
    change).run >>= fun result => Program.perform (.leave database.name true) >>= fun _ =>
      pure result)
  rw [Query.Executor.run_holding_bind]
  have acquires : ((LockRegistry.collectionOrder LockRegistry.collections).forM fun resource =>
      Program.perform (.acquire database.name resource)).Uses Action.IsLocking :=
    Program.uses_forM fun _ => Program.uses_perform trivial
  have releases : ((LockRegistry.collectionOrder LockRegistry.collections).forM fun resource =>
      Program.perform (.release database.name resource)).Uses Action.IsLocking :=
    Program.uses_forM fun _ => Program.uses_perform trivial
  have acquired := @locks _ (world.perform (.enter database.name true)).2 acquires start
  refine Program.passes_bind (acquired.mono id ?_)
  intro _ inside same
  refine Program.passes_bind ((changes inside (same.trans ?_)).mono id ?_)
  · rfl
  · rintro result after ⟨ended, still⟩
    refine Program.passes_bind ((locks releases still).mono id ?_)
    intro _ released same
    have disk := World.disk_congr same
    refine ⟨?_, ?_⟩
    · change during released.disk
      rw [disk]
      exact still
    · change ends result released.disk
      rw [disk]
      exact ended

/-- Wherever a commit stops, an initial segment of the collections is as the workspace holds them and
the others are as they were; opening the database again leaves it at that. -/
theorem commit_publishes_in_order
    (allowed : Settings.isPlainName database.manager.workspaceName)
    (leads : world.disk.LeadsTo database.manager.database place) :
    ((world.run database.commit.run).1 = .ok () →
        database.manager.published world = Collections.files) ∧
      ((world.run database.commit.run).1 = .error .noActiveTransaction →
        database.manager.published world = []) ∧
      (∀ name, name ≠ database.manager.workspaceName →
        (world.run database.commit.run).2.disk.snapshot place name =
          (world.disk.snapshot place).overlay (database.manager.working world.disk)
            (database.manager.published world) name) ∧
      ∀ stopped ∈ world.trace database.commit.run,
        ∃ part, part <+: database.manager.published world ∧
          ∀ (restarted : World) (settings : Settings), restarted.disk = stopped.disk →
            settings.workspaceName = database.manager.workspaceName →
              ∀ name, name ≠ database.manager.workspaceName →
                (restarted.run (Database.open database.manager.database settings).run).2.disk.snapshot
                    place name =
                  (world.disk.snapshot place).overlay (database.manager.working world.disk) part
                    name := by
  have plain := Settings.isPlain_of_isPlainName allowed
  have untouched : database.manager.Exposes place world.disk [] world.disk :=
    ⟨world.disk, leads, rfl, .refl leads.2 _⟩
  have passes : database.commit.run.Passes (fun stopped => ∃ part,
        part <+: database.manager.published world ∧
          database.manager.Exposes place world.disk part stopped.disk)
      (fun result after => database.manager.Exposes place world.disk
          (database.manager.published world) after.disk ∧
        (result = .ok () → database.manager.published world = Collections.files) ∧
        (result = .error .noActiveTransaction → database.manager.published world = []))
      world := by
    refine passes_changeTransaction (fun disk => ∃ part,
        part <+: database.manager.published world ∧
          database.manager.Exposes place world.disk part disk)
      (fun result disk => database.manager.Exposes place world.disk
          (database.manager.published world) disk ∧
        (result = .ok () → database.manager.published world = Collections.files) ∧
        (result = .error .noActiveTransaction → database.manager.published world = []))
      ⟨[], List.nil_prefix, untouched⟩ fun inside same => ?_
    have leadsInside := leads
    rw [← World.disk_congr same] at leadsInside
    have committed := TransactionManager.passes_commit plain leadsInside
    rw [database.manager.published_congr same, World.disk_congr same] at committed
    refine committed.mono id ?_
    rintro result after ⟨reached, ended⟩
    exact ⟨⟨reached, ended⟩, _, List.prefix_rfl, reached⟩
  obtain ⟨reached, succeeds, none⟩ := passes.run
  refine ⟨succeeds, none, fun name apart => reached.snapshot_eq apart, fun stopped member => ?_⟩
  obtain ⟨part, isPrefix, shown⟩ := passes.trace stopped member
  refine ⟨part, isPrefix, fun restarted settings same sameName name apart => ?_⟩
  rw [← same] at shown
  exact (shown.opened sameName).snapshot_eq apart

/-- A handle whose transaction is active, and a world in which a directory was made meanwhile where
its relationships would be published. -/
def obstructed : Database × World :=
  let owner : Owner := ⟨2, "handle"⟩
  let workspace : Tree := .directory [("nodes.json", .file (.text "[]")),
    ("owner.json", .file (.text owner.markerText)), ("relationships.json", .file (.text "[]"))]
  (⟨.ofText "db", {}, .ofText "db", "transaction_temp", owner⟩,
    { disk := .directory [("db", .directory [("relationships.json", .emptyDirectory),
        ("transaction_temp", workspace)])]
      live := ["handle"]
      active := ["handle"] })

/-- The nodes are published, the relationship is not. -/
theorem commit_publishes_in_order_of_obstructed :
    obstructed.1.manager.published obstructed.2 = [Collections.nodesFile] ∧
      (obstructed.2.run obstructed.1.commit.run).2.disk.snapshot ["db"] Collections.nodesFile =
        obstructed.1.manager.working obstructed.2.disk Collections.nodesFile ∧
      (obstructed.2.run obstructed.1.commit.run).2.disk.snapshot ["db"]
          Collections.relationshipsFile =
        obstructed.2.disk.snapshot ["db"] Collections.relationshipsFile := by
  have leads : obstructed.2.disk.LeadsTo obstructed.1.manager.database ["db"] := by
    refine ⟨by decide +kernel, Tree.kind?_eq_some_directory.1 (by decide +kernel)⟩
  have published : obstructed.1.manager.published obstructed.2 = [Collections.nodesFile] := by
    decide +kernel
  obtain ⟨-, -, shown, -⟩ :=
    @commit_publishes_in_order obstructed.1 ["db"] obstructed.2 (by decide +kernel) leads
  rw [published] at shown
  refine ⟨published, (shown _ (by decide +kernel)).trans ?_, (shown _ (by decide +kernel)).trans ?_⟩
  · decide +kernel
  · decide +kernel

/-- A commit that fails may have changed the collections. -/
theorem commit_fails_halfway :
    ¬∀ (database : Database) (world : World) (place : List String),
      Settings.isPlainName database.manager.workspaceName →
        world.disk.LeadsTo database.manager.database place →
          world.active.contains database.name →
            (∃ error, (world.run database.commit.run).1 = .error error) →
              ∀ name ∈ Collections.files,
                (world.run database.commit.run).2.disk.snapshot place name =
                  world.disk.snapshot place name := by
  intro unchanged
  have same := unchanged obstructed.1 obstructed.2 ["db"] (by decide +kernel)
    ⟨by decide +kernel, Tree.kind?_eq_some_directory.1 (by decide +kernel)⟩ (by decide +kernel)
    ⟨.storage (.io "db/relationships.json"), by decide +kernel⟩ Collections.nodesFile
    (by decide +kernel)
  revert same
  decide +kernel

end Database
end GraphStore
