import GraphStore.Proofs.Query.Staleness
import GraphStore.Proofs.Transaction.Servings
import GraphStore.Proofs.Transaction.Statements

/-!
# Stale indexes of a handle

A handle that maintains no indexes still builds them when they are created, on the database or in a
transaction.  What a match finds through an index is what was filed by the last build that it sees.
-/

namespace GraphStore
namespace Database

/-! ## Builds -/

/-- The pairs of which an operation created an index. -/
def Operation.indexed : Operation → Reply → List (String × String)
  | .execute source _, .executed result => Query.indexedBy source result
  | .createIndex label property, .indexed (.ok _) => [(label, property)]
  | _, _ => []

/-- The builds of indexes: those that are committed, and those that the active transaction sees, if
there is one. -/
structure Builds where
  committed : IndexBuilds := []
  working : Option IndexBuilds := none

namespace Builds

/-- The builds that statements see. -/
def current (builds : Builds) : IndexBuilds :=
  builds.working.getD builds.committed

/-- The builds after further ones on the target. -/
def add (builds : Builds) (new : IndexBuilds) : Builds :=
  match builds.working with
  | none => { builds with committed := new ++ builds.committed }
  | some working => { builds with working := some (new ++ working) }

/-- The builds after an operation was replied to that saw some nodes, and after which a transaction
is active or not. -/
def after (builds : Builds) (operation : Operation) (reply : Reply) (nodes : List Node)
    (active : Bool) : Builds :=
  match operation, reply with
  | .begin, .changed (.ok _) => { builds with working := some builds.committed }
  | .begin, _ => builds
  | .commit, _ => if active then builds else { committed := builds.current }
  | .rollback, _ => if active then builds else { builds with working := none }
  | _, _ => builds.add ((operation.indexed reply).map fun pair => (pair, nodes))

end Builds

variable {operation : Operation} {store : Store} {first : IndexCatalog} {builds : IndexBuilds}

/-- A statement of a handle that maintains no indexes changes what is recalled only if it creates an
index. -/
theorem recalls_serveBare {database : Database}
    (unmaintained : database.settings.maintainIndexes = false)
    (statement : operation.IsChange = false) (active : Bool) (recalls : store.Recalls first builds) :
    let ran := (database.serveBare active operation).runWith Store.perform store
    ran.2.Recalls first ((operation.indexed ran.1).map
      (fun pair => (pair, store.loadedNodes (database.manager.targetIf active))) ++ builds) := by
  have progress := (database.advances_serveBare statement active store).runWith
  intro ran
  cases operation with
  | execute source useIndex =>
      have executed := (database.executorIf active).recalls_execute unmaintained recalls source
        useIndex
      rw [show ran = _ from Program.runWith_map Store.perform store Reply.executed _]
      exact executed
  | createIndex label property =>
      have created := (database.executorIf active).recalls_createIndex recalls label property
      rw [show ran = _ from Program.runWith_map Store.perform store Reply.indexed _,
        Program.runWith_map]
      dsimp only at created ⊢
      change Store.Recalls (Task.runWith Store.perform store
        ((database.executorIf active).createIndex label property)).2 first
        ((Operation.indexed _ (.indexed (Except.mapError _ (Task.runWith Store.perform store
          ((database.executorIf active).createIndex label property)).1))).map _ ++ builds)
      generalize Task.runWith Store.perform store
        ((database.executorIf active).createIndex label property) = ran at created ⊢
      rcases ran with ⟨error | size, after⟩
      · exact created
      · exact created
  | probeIndex | listIndexes =>
      exact recalls.congr (congrArg Except.toOption (progress.indexes unmaintained rfl))
  | begin | commit | rollback => cases statement

/-! ## Steps -/

/-- The indexes come last, so that what is published with them is everything. -/
theorem takeWhile_files_of_mem {accepts : String → Bool}
    (member : Collections.indexesFile ∈ Collections.files.takeWhile accepts) :
    Collections.files.takeWhile accepts = Collections.files := by
  unfold Collections.files at *
  rw [List.takeWhile_cons, List.takeWhile_cons, List.takeWhile_cons] at member ⊢
  cases nodes : accepts Collections.nodesFile <;>
    cases relationships : accepts Collections.relationshipsFile <;>
    cases indexes : accepts Collections.indexesFile <;> simp_all +decide

/-- Whether builds tell which indexes are stored: in the database, and in the workspace while the
transaction is active. -/
structure Builds.Describe (builds : Builds) (first : IndexCatalog) (handle : Database)
    (world : World) : Prop where
  isActive : world.active.contains handle.name = builds.working.isSome
  committed : (world.storeAt handle.manager.database).Recalls first builds.committed
  working : ∀ working, builds.working = some working →
    (world.storeAt handle.manager.workspace).Recalls first working ∧
      (world.disk.contents handle.manager.workspace Collections.indexesFile = none →
        world.disk.contents handle.manager.database Collections.indexesFile = none)

namespace Builds

variable {builds : Builds} {handle : Database} {before after : World} {reply : Reply}

theorem Describe.of_idle (idle : before.active.contains handle.name = false)
    (committed : (before.storeAt handle.manager.database).Recalls first builds.committed)
    (none : builds.working = none) : builds.Describe first handle before :=
  ⟨by rw [idle, none]; rfl, committed, fun working some => by rw [none] at some; cases some⟩

/-- What is recalled of a directory depends on its file of indexes. -/
theorem recalls_of_contents {directory other : Path} {recalled : IndexBuilds}
    (recalls : (before.storeAt directory).Recalls first recalled)
    (same : after.disk.contents other Collections.indexesFile =
      before.disk.contents directory Collections.indexesFile) :
    (after.storeAt other).Recalls first recalled :=
  recalls.congr same

theorem Describe.target (describes : builds.Describe first handle before) :
    (before.storeAt (handle.manager.targetIf (before.active.contains handle.name))).Recalls first
      builds.current := by
  rw [describes.isActive, current]
  cases working : builds.working with
  | none => exact describes.committed
  | some recalled => exact (describes.working recalled working).1

theorem after_of_refused (operation : Operation) (error : TransactionError) (nodes : List Node) :
    builds.after operation (.changed (.error error)) nodes builds.working.isSome = builds := by
  rcases builds with ⟨committed, _ | working⟩ <;> cases operation <;> rfl

theorem after_of_not_isChange (statement : operation.IsChange = false) (nodes : List Node)
    (active : Bool) : builds.after operation reply nodes active =
      builds.add ((operation.indexed reply).map fun pair => (pair, nodes)) := by
  cases operation with
  | begin | commit | rollback => cases statement
  | _ => rfl

/-- A commit of everything publishes the indexes of the workspace. -/
theorem Describe.publishes (describes : builds.Describe first handle before)
    (active : before.active.contains handle.name)
    (database : after.disk.contents handle.manager.database Collections.indexesFile =
      handle.manager.publishes before.disk Collections.indexesFile)
    (all : Collections.indexesFile ∈
      Collections.files.takeWhile (handle.manager.canPublish before.disk)) :
    (after.storeAt handle.manager.database).Recalls first builds.current := by
  obtain ⟨working, some⟩ := Option.isSome_iff_exists.1 (describes.isActive ▸ active)
  obtain ⟨recalls, unread⟩ := describes.working working some
  rw [current, some]
  rw [TransactionManager.publishes, if_pos all] at database
  refine recalls_of_contents recalls (database.trans ?_)
  cases found : before.disk.contents handle.manager.workspace Collections.indexesFile with
  | some content => rfl
  | none => exact unread found

section

variable (describes : builds.Describe first handle before)
  (unmaintained : handle.settings.maintainIndexes = false)
  (statement : operation.IsChange = false) (still : after.active = before.active)

include describes unmaintained statement still

theorem Describe.onDatabase (idle : before.active.contains handle.name = false)
    (acts : before.ActsOn handle.manager.database after (handle.serveBare false operation) reply)
    (active : Bool) :
    (builds.after operation reply ((before.storeAt handle.manager.database).loadedNodes
      handle.manager.database) active).Describe first handle after := by
  have none : builds.working = none :=
    Option.not_isSome_iff_eq_none.1 (by rw [← describes.isActive, idle]; decide)
  have served := recalls_serveBare unmaintained statement false describes.committed
  rw [after_of_not_isChange statement, add, none]
  refine .of_idle (still ▸ idle) ?_ rfl
  rw [acts.value_eq]
  exact served.congr (congrArg Except.toOption (acts.reads Collections.indexesFile (by decide)))

theorem Describe.onWorkspace (isActive : before.active.contains handle.name)
    (acts : before.ActsOn handle.manager.workspace after (handle.serveBare true operation) reply)
    (database : before.SameAt handle.manager.database after) (active : Bool) :
    (builds.after operation reply ((before.storeAt handle.manager.workspace).loadedNodes
      handle.manager.workspace) active).Describe first handle after := by
  obtain ⟨working, some⟩ := Option.isSome_iff_exists.1 (describes.isActive ▸ isActive)
  obtain ⟨recalls, unread⟩ := describes.working working some
  have reads := congrArg Except.toOption (acts.reads Collections.indexesFile (by decide))
  have served := recalls_serveBare unmaintained statement true recalls
  have progress := (handle.advances_serveBare statement true
    (before.storeAt handle.manager.workspace)).runWith
  have kept := database Collections.indexesFile (by decide)
  rw [after_of_not_isChange statement, add, some]
  refine ⟨by rw [still, isActive]; rfl, recalls_of_contents describes.committed kept, ?_⟩
  rintro further ⟨⟩
  refine ⟨?_, fun none => ?_⟩
  · rw [acts.value_eq]
    exact served.congr reads
  · rw [kept]
    exact unread (progress.indexes_eq_none (reads.symm.trans none))

end

/-- Builds go on telling which indexes are stored, whatever a handle serves that maintains none. -/
theorem Describe.serving (describes : builds.Describe first handle before)
    (serving : handle.Serving before after operation reply)
    (unmaintained : handle.settings.maintainIndexes = false)
    (marked : before.active.contains handle.name →
      ∃ owner, before.disk.IsMarked handle.manager.workspace owner) :
    let target := handle.manager.targetIf (before.active.contains handle.name)
    (builds.after operation reply ((before.storeAt target).loadedNodes target)
      (after.active.contains handle.name)).Describe first handle after := by
  intro target
  have isActive := describes.isActive
  cases serving with
  | onDatabase statement idle acts workspace still =>
      rw [show target = handle.manager.database from congrArg handle.manager.targetIf idle]
      exact describes.onDatabase unmaintained statement still idle acts _
  | onWorkspace statement active acts database still =>
      rw [show target = handle.manager.workspace from congrArg handle.manager.targetIf active]
      exact describes.onWorkspace unmaintained statement still active acts database _
  | begun idle database workspace active =>
      refine ⟨by rw [active]; rfl, recalls_of_contents describes.committed
        (database _ (by decide)), ?_⟩
      rintro working ⟨⟩
      have same := workspace Collections.indexesFile (by decide)
      refine ⟨recalls_of_contents describes.committed same, fun none => ?_⟩
      rw [database _ (by decide), ← same, none]
  | committed active all database idle =>
      rw [idle]
      exact .of_idle idle (describes.publishes active (database _ (by decide))
        (by rw [all]; decide)) rfl
  | interrupted active some database workspace still =>
      have kept := database Collections.indexesFile (by decide)
      rw [TransactionManager.publishes, if_neg (mt takeWhile_files_of_mem some)] at kept
      rw [still, show builds.after .commit (.changed _) _ true = builds from rfl]
      refine ⟨by rw [still, ← isActive, active], recalls_of_contents describes.committed kept,
        fun working some => ?_⟩
      obtain ⟨recalls, unread⟩ := describes.working working some
      have same := workspace Collections.indexesFile (by decide)
      exact ⟨recalls_of_contents recalls same, fun none => kept.trans (unread (same ▸ none))⟩
  | rolledBack active database idle =>
      rw [idle]
      exact .of_idle idle (recalls_of_contents describes.committed (database _ (by decide))) rfl
  | refused change database workspace still =>
      rw [still, isActive, after_of_refused]
      refine ⟨by rw [still, isActive], recalls_of_contents describes.committed
        (database _ (by decide)), fun working some => ?_⟩
      obtain ⟨recalls, unread⟩ := describes.working working some
      obtain ⟨owner, marked⟩ := marked (by rw [isActive, some]; rfl)
      have same := workspace owner marked Collections.indexesFile (by decide)
      refine ⟨recalls_of_contents recalls same, fun none => ?_⟩
      rw [database _ (by decide), unread (same ▸ none)]

end Builds

/-! ## Runs -/

/-- What one handle that maintains no indexes does from its opening on: the indexes that were stored
then, the builds since then, and the world. -/
inductive Unmaintained (path : Path) : IndexCatalog → Database → Builds → World → Prop where
  /-- The handle is opened while no other is.  Its path does not lead through the workspace or
  through a directory in which a workspace is assembled. -/
  | opened {place : List String} {world after : World} {settings : Settings} {database : Database}
      (unmaintained : settings.maintainIndexes = false)
      (alone : world.live = [] ∧ world.active = []) (process : world.process < 2 ^ 32)
      (avoids : path.Avoids settings.workspaceName)
      (fresh : ∀ number, world.nextNumber ≤ number →
        path.Avoids (Replacement.temporaryName settings.workspaceName (Identifier.token number)))
      (ran : world.run (Database.open path settings).run = (.ok database, after))
      (leads : after.disk.LeadsTo path place) :
      Unmaintained path (after.indexes path) database {} after
  /-- The handle serves an operation.  A workspace is assembled under a name that is not in use. -/
  | served {first : IndexCatalog} {database : Database} {builds : Builds} {world after : World}
      {operation : Operation} {reply : Reply} (run : Unmaintained path first database builds world)
      (unused : operation = .begin → world.disk.kindAt? (path.child (Replacement.temporaryName
        database.settings.workspaceName (Identifier.token world.nextNumber))) = none)
      (ran : world.run (database.serve operation) = (reply, after)) :
      Unmaintained path first database (builds.after operation reply
        ((world.nodes (world.run database.manager.target).1).toOption.getD [])
        (after.active.contains database.name)) after

/-- What holds all along such a run. -/
structure Recalling (path : Path) (place : List String) (first : IndexCatalog)
    (database : Database) (builds : Builds) (world : World) : Prop where
  unmaintained : database.settings.maintainIndexes = false
  isOn : database.IsOn path database.settings.workspaceName world.process
  plain : Path.IsPlain database.settings.workspaceName
  process : world.process < 2 ^ 32
  avoids : path.Avoids database.settings.workspaceName
  fresh : ∀ number, world.nextNumber ≤ number → path.Avoids
    (Replacement.temporaryName database.settings.workspaceName (Identifier.token number))
  held : ∃ holder, world.HasHolder path database.settings.workspaceName holder
  leads : world.disk.LeadsTo path place
  describes : builds.Describe first database world

theorem recalling_opened {path : Path} {place : List String} {world after : World}
    {settings : Settings} {database : Database} (unmaintained : settings.maintainIndexes = false)
    (alone : world.live = [] ∧ world.active = []) (process : world.process < 2 ^ 32)
    (avoids : path.Avoids settings.workspaceName)
    (fresh : ∀ number, world.nextNumber ≤ number →
      path.Avoids (Replacement.temporaryName settings.workspaceName (Identifier.token number)))
    (ran : world.run (Database.open path settings).run = (.ok database, after))
    (leads : after.disk.LeadsTo path place) :
    Recalling path place (after.indexes path) database {} after := by
  obtain ⟨valid, rfl⟩ := open_eq_ok ran
  obtain rfl : (world.run (Database.open path settings).run).2 = after := by rw [ran]
  have memory := memory_run_open path settings world
  have sameProcess := World.process_run (Database.open path settings).run world
  refine ⟨unmaintained, ⟨rfl, rfl, sameProcess.symm⟩, Settings.isPlain_of_isPlainName valid,
    sameProcess ▸ process, avoids, fun number later => fresh number ?_,
    ⟨none, memory.1.trans alone.1, memory.2.trans alone.2⟩, leads, .of_idle ?_ ?_ rfl⟩
  · exact Nat.le_trans (World.nextNumber_le_run _ world) later
  · rw [memory.2, alone.2]
    rfl
  · rw [(World.holds_storeAt leads).indexes_eq]
    exact Store.recalls_nil _ path

namespace Recalling

variable {path : Path} {place : List String} {database : Database} {builds : Builds}
  {world after : World} {reply : Reply}
  (recalling : Recalling path place first database builds world)

include recalling

theorem marked (active : world.active.contains database.name) :
    world.disk.IsMarked database.manager.workspace database.manager.owner := by
  obtain ⟨holder, held⟩ := recalling.held
  rw [recalling.isOn.workspace_eq recalling.plain]
  exact (recalling.isOn.marked_of_active held active).2.2

/-- The target of the statements is a directory. -/
theorem exists_leadsTo_target : ∃ there, world.disk.LeadsTo
    (database.manager.targetIf (world.active.contains database.name)) there := by
  cases active : world.active.contains database.name with
  | false =>
      refine ⟨place, ?_⟩
      rw [show database.manager.targetIf false = path from recalling.isOn.database]
      exact recalling.leads
  | true =>
      obtain ⟨holder, held⟩ := recalling.held
      obtain ⟨-, -, marked⟩ := recalling.isOn.marked_of_active held active
      obtain ⟨above, workspace, shows, -⟩ := marked.shows
      refine ⟨above ++ [database.settings.workspaceName], ?_⟩
      rw [show database.manager.targetIf true = path.child database.settings.workspaceName from
        recalling.isOn.workspace_eq recalling.plain]
      exact shows.leadsTo_child

theorem nodes_eq : (world.nodes (world.run database.manager.target).1).toOption.getD [] =
    let target := database.manager.targetIf (world.active.contains database.name)
    (world.storeAt target).loadedNodes target := by
  obtain ⟨there, leads⟩ := recalling.exists_leadsTo_target
  rw [database.run_target_eq, (World.holds_storeAt leads).nodes_eq]
  rfl

/-- Statements are answered as they are on the store of the target. -/
theorem execute_eq (source : String) (useIndex : Bool) :
    let executor := database.executorIf (world.active.contains database.name)
    (world.run (database.execute source useIndex).run).1 =
      ((executor.execute source useIndex).runWith Store.perform
        (world.storeAt executor.directory)).1 := by
  intro executor
  obtain ⟨there, leads⟩ := recalling.exists_leadsTo_target
  obtain ⟨reply, -⟩ := database.agreeOn_serve world (.execute source useIndex)
  obtain ⟨acts, -⟩ := World.actsOn_run
    (@uses_serveBare database (.execute source useIndex) rfl _) leads
  have same := reply.trans acts.value_eq
  rw [run_execute_eq, serveBare, Program.runWith_map] at same
  exact Reply.executed.inj same

theorem serving (unused : operation = .begin → world.disk.kindAt? (path.child
      (Replacement.temporaryName database.settings.workspaceName
        (Identifier.token world.nextNumber))) = none)
    (ran : world.run (database.serve operation) = (reply, after)) :
    database.Serving world after operation reply ∧ after.disk.LeadsTo path place := by
  obtain ⟨holder, held⟩ := recalling.held
  have served := recalling.isOn.serving operation recalling.plain held recalling.leads
    recalling.avoids (recalling.fresh _ (Nat.le_refl _)) unused
  rwa [ran] at served

theorem served (unused : operation = .begin → world.disk.kindAt? (path.child
      (Replacement.temporaryName database.settings.workspaceName
        (Identifier.token world.nextNumber))) = none)
    (ran : world.run (database.serve operation) = (reply, after)) :
    Recalling path place first database
      (builds.after operation reply
        ((world.nodes (world.run database.manager.target).1).toOption.getD [])
        (after.active.contains database.name)) after := by
  obtain ⟨holder, held⟩ := recalling.held
  obtain ⟨serving, leads⟩ := recalling.serving unused ran
  obtain ⟨next, heldAfter, -⟩ := recalling.isOn.hasHolder_serve recalling.plain held
    recalling.process (recalling.fresh _ (Nat.le_refl _)) operation
  have sameProcess := World.process_run (database.serve operation) world
  have later := World.nextNumber_le_run (database.serve operation) world
  rw [ran] at heldAfter sameProcess later
  refine ⟨recalling.unmaintained, sameProcess.symm ▸ recalling.isOn, recalling.plain,
    sameProcess.symm ▸ recalling.process, recalling.avoids,
    fun number above => recalling.fresh number (Nat.le_trans later above), ⟨next, heldAfter⟩, leads,
    ?_⟩
  rw [recalling.nodes_eq]
  exact recalling.describes.serving serving recalling.unmaintained fun active =>
    ⟨_, recalling.marked active⟩

end Recalling

theorem Unmaintained.recalling {path : Path} {database : Database} {builds : Builds} {world : World}
    (run : Unmaintained path first database builds world) :
    ∃ place, Recalling path place first database builds world := by
  induction run with
  | opened unmaintained alone process avoids fresh ran leads =>
      exact ⟨_, recalling_opened unmaintained alone process avoids fresh ran leads⟩
  | served run unused ran ih =>
      obtain ⟨place, recalling⟩ := ih
      exact ⟨place, recalling.served unused ran⟩

/-! ## Matches -/

/-- In an empty directory a node is created before an index is built over it, and another one like it
afterwards. -/
theorem unmaintained_of_new_directory : ∃ world database builds,
    let node (number : Nat) (order : Int64) : Node :=
      ⟨Identifier.ofNumber number, ["L"], .ofList [("p", .integer 1), ("q", .integer order)]⟩
    Unmaintained (.ofText "db") .empty database builds world ∧
      (world.run (database.execute "MATCH (n:L \x7bp: 1\x7d) RETURN n" true).run).1 =
        .ok ⟨"1 nodes matched with properties", [node 1 1], []⟩ ∧
      (world.run (database.execute "MATCH (n:L \x7bp: 1\x7d) RETURN n" false).run).1 =
        .ok ⟨"2 nodes matched with properties", [node 1 1, node 2 2], []⟩ ∧
      builds.current.filedFor .empty ⟨⟨⟨some "n", some "L", .ofList [("p", .integer 1)]⟩, none⟩,
        none, ["n"]⟩ = [Identifier.ofNumber 1] := by
  let start : World := { disk := .directory [("db", .emptyDirectory)] }
  let settings : Settings := { maintainIndexes := false, indented := false }
  let database := next (.ofText "db") settings start
  let opened := start.run (Database.open (.ofText "db") settings).run
  let created := opened.2.run (database.serve (.execute "CREATE (a:L \x7bp: 1, q: 1\x7d)" true))
  let indexed := created.2.run (database.serve (.createIndex "L" "p"))
  let grown := indexed.2.run (database.serve (.execute "CREATE (b:L \x7bp: 1, q: 2\x7d)" true))
  have steps : (Path.ofText "db").steps = [.down "db"] := by decide +kernel
  have short : ∀ passed, Step.down passed ∈ (Path.ofText "db").steps →
      passed.utf8ByteSize ≤ settings.workspaceName.utf8ByteSize := by
    rw [steps]
    rintro passed (_ | ⟨_, ⟨⟩⟩)
    decide
  have avoids : (Path.ofText "db").Avoids settings.workspaceName := by
    refine Path.avoids_of_not_mem ?_
    rw [steps]
    decide
  have leads : opened.2.disk.LeadsTo (.ofText "db") ["db"] :=
    ⟨by decide +kernel, Tree.kind?_eq_some_directory.1 (by decide +kernel)⟩
  have ranOpen := World.eq_of_answer opened (.ok database) (by decide +kernel)
  have ranCreate := World.eq_of_answer created created.1 rfl
  have ranIndex := World.eq_of_answer indexed (.indexed (.ok 1)) (by decide +kernel)
  have ranGrow := World.eq_of_answer grown grown.1 rfl
  have none : opened.2.indexes (.ofText "db") = .empty := by decide +kernel
  have run := Unmaintained.opened rfl ⟨rfl, rfl⟩ (by decide) avoids
    (fun number _ => Path.avoids_temporaryName short number) ranOpen leads
  rw [none] at run
  replace run := run.served (by rintro ⟨⟩) ranCreate
  replace run := run.served (by rintro ⟨⟩) ranIndex
  replace run := run.served (by rintro ⟨⟩) ranGrow
  refine ⟨_, _, _, run, ?_, ?_, ?_⟩
  · decide +kernel
  · decide +kernel
  · decide +kernel

/-- A match of a handle that maintains no indexes answers with those of the nodes that it finds in
all nodes that were filed when the index was built the last time, and with all of them if none of its
ids was. -/
theorem Unmaintained.execute_eq_among {path : Path} {database : Database} {builds : Builds}
    {world : World} (run : Unmaintained path first database builds world) {source : String}
    {query : Query.MatchQuery} (parsed : Query.parse source = .ok (.matching query)) :
    (world.run (database.execute source true).run).1 =
      (world.run (database.execute source false).run).1.map fun answer =>
        answer.among (builds.current.filedFor first query) := by
  obtain ⟨place, recalling⟩ := run.recalling
  let executor := database.executorIf (world.active.contains database.name)
  rw [recalling.execute_eq, recalling.execute_eq, executor.execute_of_parse parsed,
    executor.execute_of_parse parsed]
  exact executor.runWith_executeMatch_among recalling.describes.target query

theorem execute_eq_among_of_new_directory : ∃ world database builds,
    Unmaintained (.ofText "db") .empty database builds world ∧
      (world.run (database.execute "MATCH (n:L \x7bp: 1\x7d) RETURN n" true).run).1 =
        (world.run (database.execute "MATCH (n:L \x7bp: 1\x7d) RETURN n" false).run).1.map
          fun answer => answer.among [Identifier.ofNumber 1] := by
  obtain ⟨world, database, builds, run, -, -, filed⟩ := unmaintained_of_new_directory
  have parsed : Query.parse "MATCH (n:L \x7bp: 1\x7d) RETURN n" = .ok (.matching
      ⟨⟨⟨some "n", some "L", .ofList [("p", .integer 1)]⟩, none⟩, none, ["n"]⟩) := by
    decide +kernel
  have among := run.execute_eq_among parsed
  rw [filed] at among
  exact ⟨world, database, builds, run, among⟩

/-- A match that probes the indexes misses a node that was created after the index was built. -/
theorem match_misses_unfiled : ∃ world database builds narrowed all,
    Unmaintained (.ofText "db") .empty database builds world ∧
      (world.run (database.execute "MATCH (n:L \x7bp: 1\x7d) RETURN n" true).run).1 =
        .ok narrowed ∧
      (world.run (database.execute "MATCH (n:L \x7bp: 1\x7d) RETURN n" false).run).1 = .ok all ∧
      ∃ node ∈ all.nodes, node ∉ narrowed.nodes := by
  obtain ⟨world, database, builds, run, narrowed, all, -⟩ := unmaintained_of_new_directory
  refine ⟨world, database, builds, _, _, run, narrowed, all, _,
    List.mem_cons_of_mem _ List.mem_cons_self, ?_⟩
  decide

end Database
end GraphStore
