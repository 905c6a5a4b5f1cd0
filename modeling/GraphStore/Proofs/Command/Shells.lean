import GraphStore.Command.Run
import GraphStore.Proofs.Transaction.Lifetimes
import GraphStore.Proofs.Transaction.Openings

/-!
# What a shell leaves behind

A shell mixes queries with beginnings and ends of transactions.  In the end its directory is as if
only those queries had been executed, one after the other and without any transaction, that were read
outside of a transaction or in one that was committed.
-/

namespace GraphStore

/-! ## The queries that count -/

/-- The queries that a shell has read: those that count, and while a transaction is active those that
will count when it is committed. -/
structure Ledger where
  /-- The queries that count. -/
  kept : List String := []
  /-- The queries of the active transaction. -/
  pending : Option (List String) := none

namespace Shell

/-- A ledger after one more request.  Whether a transaction begins or ends depends on the world in
which the request is served. -/
def note (shell : Shell) (world : World) (ledger : Ledger) : Request → Ledger
  | .query text =>
    match ledger.pending with
    | none => { ledger with kept := ledger.kept ++ [text] }
    | some texts => { ledger with pending := some (texts ++ [text]) }
  | .begin =>
    if (world.run shell.database.begin.run).1 = .ok () then { ledger with pending := some [] }
    else ledger
  | .commit =>
    if (world.run shell.database.commit.run).1 = .ok () then
      ⟨ledger.kept ++ ledger.pending.getD [], none⟩
    else ledger
  | .rollback =>
    if (world.run shell.database.rollback.run).1 = .ok () then { ledger with pending := none }
    else ledger
  | .nothing | .quit | .help | .indexes => ledger

/-- A ledger after the lines that a shell serves. -/
def noteLines (shell : Shell) (world : World) (ledger : Ledger) : List String → Ledger
  | [] => ledger
  | line :: rest =>
    match Request.ofLine line with
    | .quit => ledger
    | request =>
      shell.noteLines (world.run (shell.serve request)).2 (shell.note world ledger request) rest

end Shell

namespace Database

variable {database : Database} {place : List String} {start world : World} {store : Store}
  {texts : List String}

/-- Whether a handle that executes queries one after the other comes from one world to another.  The
ids that are generated may be any that were not generated before. -/
inductive Executes (database : Database) (start : World) : List String → World → Prop where
  /-- No query is executed. -/
  | nil : Executes database start [] start
  /-- One more query is executed. -/
  | concat {texts : List String} {last : World} (executes : Executes database start texts last)
      {number : Nat} (later : last.nextNumber ≤ number) (text : String) :
      Executes database start (texts ++ [text])
        ({ last with nextNumber := number }.run
          (database.respond text database.settings.useIndexes)).2

/-- Whether a handle that executes queries without a transaction leaves a directory with a store, as
far as the store does not say which number is next. -/
def Yields (database : Database) (place : List String) (start : World) (texts : List String)
    (store : Store) : Prop :=
  ∃ last, database.Executes start texts last ∧ last.nextNumber ≤ store.nextNumber ∧
    database.manager.Rests place (store.withNumber last.nextNumber) last

theorem run_respond_eq (database : Database) (world : World) (text : String) (useIndex : Bool) :
    (world.run (database.respond text useIndex)).2 =
      (world.run (database.serve (.execute text useIndex))).2 := by
  rw [respond, serve, World.run_map, World.run_map]

/-- Without a query a directory is left with the store that it holds. -/
theorem Yields.of_rests (rests : database.manager.Rests place store start) :
    database.Yields place start [] store := by
  refine ⟨start, .nil, Nat.le_of_eq rests.holds.number, ?_⟩
  rw [rests.holds.number, Store.withNumber_nextNumber]
  exact rests

theorem Yields.withNumber (yields : database.Yields place start texts store) {number : Nat}
    (later : store.nextNumber ≤ number) :
    database.Yields place start texts (store.withNumber number) := by
  obtain ⟨last, executes, before, rests⟩ := yields
  exact ⟨last, executes, before.trans later, rests⟩

theorem Yields.reliable (yields : database.Yields place start texts store)
    (fits : database.manager.database.Fits Workspace.fileRoom) :
    database.Yields place start texts store.reliable := by
  obtain ⟨last, executes, before, rests⟩ := yields
  exact ⟨last, executes, before, rests.reliable fits⟩

/-- One more query makes of the store what it makes of it in the directory. -/
theorem Yields.concat (yields : database.Yields place start texts store)
    (proper : database.manager.IsProper) (text : String) :
    database.Yields place start (texts ++ [text])
      (database.storeAfter (.execute text database.settings.useIndexes) store) := by
  obtain ⟨last, executes, before, rests⟩ := yields
  let drawn : World := { last with nextNumber := store.nextNumber }
  have restsDrawn : database.manager.Rests place
      ((store.withNumber last.nextNumber).withNumber drawn.nextNumber) drawn :=
    rests.transport rfl before rests.idle
  rw [Store.withNumber_withNumber, Store.withNumber_nextNumber] at restsDrawn
  have restsAfter := rests_serve proper restsDrawn
    (show Operation.IsChange (.execute text database.settings.useIndexes) = false from rfl)
  rw [← run_respond_eq] at restsAfter
  have number := restsAfter.holds.number
  refine ⟨_, executes.concat before text, Nat.le_of_eq number, ?_⟩
  rw [number, Store.withNumber_nextNumber]
  exact restsAfter

/-- Giving up a handle that is idle changes nothing. -/
theorem runWith_close_of_idle {world : World}
    (idle : world.active.contains database.manager.owner.handle = false) :
    database.close.runWith World.perform world = ((), world) := by
  rw [close, Program.runWith_bind, Task.runWith_run,
    TransactionManager.runWith_rollback_of_idle idle]
  rfl

end Database

/-! ## One request after the other -/

namespace Shell

variable {shell : Shell} {place : List String} {start world : World} {ledger : Ledger}

/-- Whether a world is what a ledger says: the directory is as the queries that count leave it, and
while a transaction is active the workspace is as these and the pending ones leave it. -/
inductive Tracks (shell : Shell) (place : List String) (start : World) : Ledger → World → Prop where
  /-- No transaction is active. -/
  | resting {kept : List String} {store : Store} {world : World}
      (rests : shell.database.manager.Rests place store world)
      (yields : shell.database.Yields place start kept store) :
      Tracks shell place start ⟨kept, none⟩ world
  /-- A transaction is active. -/
  | working {kept texts : List String} {committed store : Store} {world : World}
      (works : shell.database.manager.Works place committed store world)
      (yields : shell.database.Yields place start kept committed)
      (more : shell.database.Yields place start (kept ++ texts) store) :
      Tracks shell place start ⟨kept, some texts⟩ world

/-- A request is served as the ledger notes it. -/
theorem Tracks.serve (tracks : shell.Tracks place start ledger world)
    (proper : shell.database.manager.IsProper) (request : Request) :
    shell.Tracks place start (shell.note world ledger request)
      (world.run (shell.serve request)).2 := by
  cases request with
  | nothing | quit | help => exact tracks
  | query text =>
      have same : (world.run (shell.serve (.query text))).2 = (world.run (shell.database.serve
          (.execute text shell.database.settings.useIndexes))).2 := by
        rw [← Database.run_respond_eq, Shell.serve, ← map_eq_pure_bind, World.run_map]
      rw [same]
      cases tracks with
      | resting rests yields =>
          exact .resting (Database.rests_serve proper rests rfl) (yields.concat proper text)
      | working works yields more =>
          refine .working (Database.works_execute proper works _ _) yields ?_
          rw [← List.append_assoc]
          exact more.concat proper text
  | indexes =>
      rw [Shell.serve, World.run_map]
      cases tracks with
      | resting rests yields => exact .resting (Database.rests_listIndexes proper rests) yields
      | working works yields more =>
          exact .working (Database.works_listIndexes proper works) yields more
  | begin =>
      rw [Shell.serve, World.run_map, note]
      cases tracks with
      | resting rests yields =>
          rcases Database.rests_begin proper rests with ⟨begun, works⟩ | ⟨⟨error, failed⟩, restsAfter⟩
          · rw [if_pos begun]
            refine .working works (yields.reliable works.fits) ?_
            rw [List.append_nil]
            exact (yields.reliable works.fits).withNumber works.later
          · rw [if_neg (by rw [failed]; rintro ⟨⟩)]
            exact .resting restsAfter (yields.withNumber (rests.holds.number ▸
              World.nextNumber_le_run _ world))
      | working works yields more =>
          obtain ⟨⟨error, failed⟩, worksAfter⟩ := Database.works_begin works
          rw [if_neg (by rw [failed]; rintro ⟨⟩)]
          exact .working worksAfter yields more
  | commit =>
      rw [Shell.serve, World.run_map, note]
      cases tracks with
      | resting rests yields =>
          obtain ⟨⟨error, failed⟩, restsAfter⟩ := Database.rests_commit rests
          rw [if_neg (by rw [failed]; rintro ⟨⟩)]
          exact .resting restsAfter yields
      | working works yields more =>
          obtain ⟨succeeds, rests⟩ := Database.works_commit proper works
          rw [if_pos succeeds]
          exact .resting rests more
  | rollback =>
      rw [Shell.serve, World.run_map, note]
      cases tracks with
      | resting rests yields =>
          obtain ⟨⟨error, failed⟩, restsAfter⟩ := Database.rests_rollback rests
          rw [if_neg (by rw [failed]; rintro ⟨⟩)]
          exact .resting restsAfter yields
      | working works yields more =>
          obtain ⟨succeeds, rests⟩ := Database.works_rollback proper works
          rw [if_pos succeeds]
          exact .resting rests (yields.withNumber works.later)

theorem run_prompt (shell : Shell) (world : World) : (world.run shell.prompt).2 = world := by
  rw [Program.run_eq_runWith, prompt, Program.runWith_bind, Database.inTransaction,
    TransactionManager.runWith_isActive]
  split <;> rfl

/-- Lines are served as the ledger notes them. -/
theorem Tracks.serveLines (tracks : shell.Tracks place start ledger world)
    (proper : shell.database.manager.IsProper) (lines : List String) :
    shell.Tracks place start (shell.noteLines world ledger lines)
      (world.run (shell.serveLines lines)).2 := by
  induction lines generalizing ledger world with
  | nil =>
      rw [Shell.serveLines, noteLines, run_prompt]
      exact tracks
  | cons line rest ih =>
      have prompted := shell.run_prompt world
      rw [Program.run_eq_runWith] at prompted
      rw [Shell.serveLines, noteLines, Program.run_eq_runWith, Program.runWith_bind, prompted]
      generalize Request.ofLine line = request
      cases request with
      | quit => exact tracks
      | _ =>
          simp only [Program.runWith_bind, Program.runWith_pure, ← Program.run_eq_runWith]
          exact ih (tracks.serve proper _)

theorem run_close_of_rests {store : Store} (rests : shell.database.manager.Rests place store world) :
    (shell.database.close.runWith World.perform world).2 = world :=
  congrArg Prod.snd (Database.runWith_close_of_idle rests.idle)

/-- Whoever leaves the shell leaves the directory with the queries that count. -/
theorem Tracks.leave (tracks : shell.Tracks place start ledger world)
    (proper : shell.database.manager.IsProper) :
    ∃ store, shell.database.manager.Rests place store (world.run shell.leave).2 ∧
      shell.database.Yields place start ledger.kept store := by
  have asked : shell.database.inTransaction.runWith World.perform world =
      (world.active.contains shell.database.manager.owner.handle, world) :=
    TransactionManager.runWith_isActive _ world
  rw [Program.run_eq_runWith, Shell.leave, Program.runWith_bind, asked]
  cases tracks with
  | resting rests yields =>
      rw [rests.idle]
      simp only [Bool.false_eq_true, if_false]
      rw [Program.runWith_bind, Program.runWith_pure, Program.runWith_bind, run_close_of_rests rests]
      exact ⟨_, rests, yields⟩
  | working works yields more =>
      obtain ⟨succeeds, rests⟩ := Database.works_rollback proper works
      rw [Program.run_eq_runWith] at succeeds rests
      rw [works.active]
      simp only [if_true]
      rw [Program.runWith_bind, Program.runWith_bind, run_close_of_rests rests, succeeds]
      exact ⟨_, rests, yields.withNumber works.later⟩

end Shell

/-! ## A whole run -/

namespace TransactionManager

variable {manager : TransactionManager} {place : List String} {world : World}

/-- Whether the path of a manager names a directory, nothing stands there under the name of the
workspace or a hidden one that is still to be drawn, and no directory in the place of a collection,
and the manager is idle. -/
structure IsVacant (manager : TransactionManager) (place : List String) (world : World) :
    Prop where
  usable : manager.database.isUsable
  leads : world.disk.LeadsTo manager.database place
  ordered : world.disk.IsOrdered
  regular : ∀ file ∈ Collections.files, world.disk.kind? (place ++ [file]) ≠ some .directory
  free : world.disk.kind? (place ++ [manager.workspaceName]) = none
  unused : ∀ number, world.nextNumber ≤ number →
    world.disk.kind? (place ++ [manager.hiddenName number]) = none
  idle : manager.owner.handle ∉ world.active

/-- It does not matter which numbers were drawn. -/
theorem IsVacant.drawn (vacant : manager.IsVacant place world) {number : Nat}
    (later : world.nextNumber ≤ number) :
    manager.IsVacant place { world with nextNumber := number } :=
  { vacant with unused := fun next more => vacant.unused next (later.trans more) }

theorem IsVacant.rests (vacant : manager.IsVacant place world) (proper : manager.IsProper) :
    manager.Rests place (world.storeAt manager.database) world := by
  obtain ⟨-, leads, ordered, regular, free, unused, idle⟩ := vacant
  have short := proper.short
  refine ⟨World.holds_storeAt leads, ⟨⟨leads, ?_⟩, ordered, fun file member => ?_,
    fun number more => ?_⟩, Bool.eq_false_iff.2 fun inside => idle (List.contains_iff_mem.1 inside)⟩
  · exact leads.2.find_of_kind?_none
      (decide_eq_true (Nat.le_trans (Nat.le_add_right _ _) short)) free
  · exact leads.2.read_ne_obstructed (Tree.fits_of_mem_names (List.mem_cons_of_mem _ member))
      (regular file member)
  · refine leads.2.find_of_kind?_none ?_ (unused number more)
    rw [Tree.fits, Replacement.utf8ByteSize_temporaryName _ (Identifier.utf8ByteSize_token number)]
    exact decide_eq_true short

end TransactionManager

namespace Command

variable {text : String} {database : Database} {place : List String} {world opened : World}

theorem run_shell_eq (format : Format)
    (ran : world.run (Database.open (.ofText text) {}).run = (.ok database, opened))
    (lines : List String) :
    (world.run ((Command.shell text).run format {} lines)).2 =
      (database.close.runWith World.perform
        (((opened.run (Shell.serveLines ⟨database, format⟩ lines)).2.run
          (Shell.leave ⟨database, format⟩)).2)).2 := by
  rw [Program.run_eq_runWith, Task.runWith_run] at ran
  show (world.run (withDatabase text {} fun database => Shell.run ⟨database, format⟩ lines)).2 = _
  simp only [Program.run_eq_runWith]
  rw [withDatabase, Program.runWith_bind, Task.runWith_run, ran]
  simp only [Shell.run, Program.runWith_bind, Program.runWith_pure]

theorem rests_after_shell (format : Format)
    (ran : world.run (Database.open (.ofText text) {}).run = (.ok database, opened))
    (proper : database.manager.IsProper) (vacant : database.manager.IsVacant place opened)
    (lines : List String) :
    ∃ store, database.manager.Rests place store
        (world.run ((Command.shell text).run format {} lines)).2 ∧
      database.Yields place opened (Shell.noteLines ⟨database, format⟩ opened {} lines).kept
        store := by
  have rests := vacant.rests proper
  have tracks : Shell.Tracks ⟨database, format⟩ place opened {} opened :=
    .resting rests (Database.Yields.of_rests rests)
  obtain ⟨store, restsLast, yields⟩ := (tracks.serveLines proper lines).leave proper
  rw [run_shell_eq format ran lines,
    @Shell.run_close_of_rests ⟨database, format⟩ _ _ _ restsLast]
  exact ⟨store, restsLast, yields⟩

theorem isProper_next (process : world.process < 2 ^ 32) :
    (Database.next (.ofText text) {} world).manager.IsProper := by
  have valid : ({} : Settings).isValid := by decide +kernel
  have named : ({} : Settings).workspaceName.utf8ByteSize + Replacement.temporaryExtra ≤
      Tree.nameLimit ∧ ({} : Settings).workspaceName ∉ Collections.files := by decide
  exact ⟨Settings.isPlain_of_isPlainName valid, named.1, named.2, process⟩

/-- A shell that runs on a directory without a workspace leaves none, and leaves the collections as
those queries would that count, executed one after the other without a transaction. -/
theorem shell_keeps_queries_that_count (text : String) (format : Format)
    (vacant : (Database.next (.ofText text) {} world).manager.IsVacant place world)
    (process : world.process < 2 ^ 32) (lines : List String) :
    let database := Database.next (.ofText text) {} world
    let opened : World := { world with nextNumber := world.nextNumber + 1 }
    let ended := (world.run ((Command.shell text).run format {} lines)).2
    world.run (Database.open (.ofText text) {}).run = (.ok database, opened) ∧
      ended.disk.kindAt? ((Path.ofText text).child ({} : Settings).workspaceName) = none ∧
      ∃ last, database.Executes opened
          (Shell.noteLines ⟨database, format⟩ opened {} lines).kept last ∧
        ∀ file ∈ Collections.files, ended.disk.readAt ((Path.ofText text).child file) =
          last.disk.readAt ((Path.ofText text).child file) := by
  intro database opened ended
  have proper : database.manager.IsProper := isProper_next process
  have plain : Path.IsPlain ({} : Settings).workspaceName := proper.plain
  have free : world.disk.kindAt? ((Path.ofText text).join ({} : Settings).workspaceName) = none :=
    (vacant.rests proper).kindAt?_workspace proper
  have ran : world.run (Database.open (.ofText text) {}).run = (.ok database, opened) := by
    rw [Program.run_eq_runWith, Task.runWith_run]
    exact Database.runWith_open_of_free (by decide +kernel) vacant.usable vacant.leads free
      vacant.idle
  obtain ⟨store, rests, last, executes, -, restsThere⟩ :=
    rests_after_shell format ran proper (vacant.drawn (Nat.le_succ _)) lines
  have left : ended.disk.kindAt? ((Path.ofText text).join ({} : Settings).workspaceName) = none :=
    rests.kindAt?_workspace proper
  rw [Path.join_of_isPlain _ plain] at left
  exact ⟨ran, left, last, executes, fun file member =>
    (rests.holds.read file member).trans (restsThere.holds.read file member).symm⟩

/-- Of six queries two count: one outside of a transaction, and one in the transaction that is
committed. -/
theorem shell_keeps_queries_that_count_of_mixed_lines :
    let lines := ["CREATE (a:A)", ":begin", "CREATE (b:B)", ":rollback", ":commit", ":begin",
      ":begin", "CREATE (c:C)", ":commit", ":begin", "CREATE (d:D)", ":q", "CREATE (e:E)"]
    let world : World := { disk := .directory [("db", .emptyDirectory)] }
    ∃ last, (Database.next (.ofText "db") {} world).Executes
        { world with nextNumber := world.nextNumber + 1 } ["CREATE (a:A)", "CREATE (c:C)"] last ∧
      ∀ file ∈ Collections.files,
        (world.run ((Command.shell "db").run .table {} lines)).2.disk.readAt
            ((Path.ofText "db").child file) =
          last.disk.readAt ((Path.ofText "db").child file) := by
  intro lines world
  have found : world.disk.find ["db"] = .ok .emptyDirectory := rfl
  have leads : world.disk.LeadsTo (.ofText "db") ["db"] := ⟨by decide +kernel, _, found⟩
  have free : ∀ name, world.disk.kind? (["db"] ++ [name]) = none := by
    intro name
    rw [Tree.kind?, Tree.find_append_of_ok found, Tree.emptyDirectory, Tree.find_singleton]
    cases Tree.fits name <;> rfl
  have vacant : (Database.next (.ofText "db") {} world).manager.IsVacant ["db"] world :=
    ⟨by decide +kernel, leads,
      Tree.isOrdered_emptyDirectory.update ["db"] Tree.isOrdered_emptyDirectory,
      fun file _ => by rw [free]; rintro ⟨⟩, free _, fun number _ => free _, List.not_mem_nil⟩
  obtain ⟨-, -, last, executes, same⟩ :=
    shell_keeps_queries_that_count "db" .table vacant (by decide) lines
  have counted : (Shell.noteLines ⟨Database.next (.ofText "db") {} world, .table⟩
      { world with nextNumber := world.nextNumber + 1 } {} lines).kept =
      ["CREATE (a:A)", "CREATE (c:C)"] := by decide +kernel
  rw [counted] at executes
  exact ⟨last, executes, same⟩

end Command
end GraphStore
