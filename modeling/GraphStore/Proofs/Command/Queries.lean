import GraphStore.Proofs.Command.Shells
import GraphStore.Proofs.Query.Failures
import GraphStore.Proofs.Query.Staleness
import GraphStore.Proofs.Transaction.Repetitions

/-!
# Queries in a shell and on the command line

A query can be given to the program itself or to a shell.  Both leave the directory with the same
files.  The shell asks the settings whether indexes are probed and the program does not, so where
the settings say no, the program may find only those nodes of the shell that an index holds.
-/

namespace GraphStore

namespace Query

/-- Blanks around a text do not matter. -/
theorem parse_trimString (source : String) : parse (Text.trimString source) = parse source := by
  have same : Text.trim (Text.trimString source).toList = Text.trim source.toList := by
    rw [Text.trimString, String.toList_ofList, Text.trim, Text.trim, Text.strip_strip]
  rw [parse, same, parse]

end Query

/-! ## Responses of a handle -/

namespace Database

variable {database : Database} {world : World} {place : List String}

theorem respond_trimString (database : Database) (source : String) (useIndex : Bool) :
    database.respond (Text.trimString source) useIndex = database.respond source useIndex := by
  simp only [respond, execute, Query.Executor.execute, Query.parse_trimString]

/-- A response does not depend on whether indexes are probed, apart from the nodes that these do not
hold. -/
theorem respond_among (idle : world.active.contains database.name = false)
    (leads : world.disk.LeadsTo database.manager.database place) (source : String) :
    (world.run (database.respond source true)).1 =
      (world.run (database.respond source false)).1.among
        (Query.filedFor (world.indexes database.manager.database) source) := by
  have acts : (world.run database.manager.target).1 = database.manager.database := by
    rw [run_target_eq, idle]
    rfl
  rw [respond, respond, World.run_map, World.run_map, (holds_execute acts leads source true).1,
    (holds_execute acts leads source false).1, ← Query.Response.ofResult_among,
    (World.holds_storeAt leads).indexes_eq]
  exact congrArg Query.Response.ofResult (Query.Executor.runWith_execute_among _ _ source)

/-- A match leaves the disk as it is. -/
theorem disk_run_respond_of_matching {source : String} {query : Query.MatchQuery}
    (parsed : Query.parse source = .ok (.matching query)) (useIndex : Bool) :
    (world.run (database.respond source useIndex)).2.disk = world.disk := by
  have unlocked := (database.agreeOn_serve world (.execute source useIndex)).2
  rw [run_respond_eq, World.disk_congr unlocked, serveBare, World.run_map]
  exact (Query.Executor.execute_keeps_disk _ source useIndex world).1 ⟨query, parsed⟩

/-- The files do not depend on whether indexes are probed. -/
theorem disk_run_respond_useIndex (source : String) (first second : Bool) :
    (world.run (database.respond source first)).2.disk =
      (world.run (database.respond source second)).2.disk := by
  by_cases isMatch : ∃ query, Query.parse source = .ok (.matching query)
  · obtain ⟨query, parsed⟩ := isMatch
    rw [disk_run_respond_of_matching parsed, disk_run_respond_of_matching parsed]
  · have same : ∀ executor : Query.Executor, executor.execute source first =
        executor.execute source second := fun executor =>
      executor.execute_useIndex_of_not_matching (not_exists.1 isMatch) first second
    simp only [respond, execute, same]

/-- A statement leaves a handle as idle as it was. -/
theorem active_run_respond (source : String) (useIndex : Bool) :
    (world.run (database.respond source useIndex)).2.active = world.active := by
  have unlocked := (database.agreeOn_serve world (.execute source useIndex)).2
  have uses := @uses_serveBare database (.execute source useIndex) rfl
    (world.active.contains database.name)
  rw [run_respond_eq, World.active_congr unlocked]
  exact (World.memory_run (uses.mono fun concerns => concerns.isQuiet) world).2

end Database

/-! ## Lines of a shell -/

namespace Shell

variable {shell : Shell} {world : World} {line text : String}

theorem Request.eq_trimString_of_ofLine (asks : ofLine line = .query text) :
    text = Text.trimString line := by
  unfold ofLine at asks
  split at asks <;> first | cases asks; rfl | cases asks

section

variable (idle : world.active.contains shell.database.name = false)

include idle

theorem runWith_inTransaction_of_idle :
    shell.database.inTransaction.runWith World.perform world = (false, world) :=
  (TransactionManager.runWith_isActive _ world).trans (congrArg (·, world) idle)

theorem runWith_prompt_of_idle :
    shell.prompt.runWith World.perform world = ([.err "tessera> "], world) := by
  rw [prompt, Program.runWith_bind, runWith_inTransaction_of_idle idle]
  rfl

/-- Leaving a shell without a transaction changes nothing. -/
theorem runWith_leave_of_idle :
    shell.leave.runWith World.perform world = (([.line "Bye!"], 0), world) := by
  rw [leave, Program.runWith_bind, runWith_inTransaction_of_idle idle]
  simp only [Bool.false_eq_true, if_false, Program.runWith_bind, Program.runWith_pure,
    Database.runWith_close_of_idle idle, List.nil_append]

/-- A line with a query is answered before the other lines are served. -/
theorem runWith_serveLines_query (asks : Request.ofLine line = .query text) (rest : List String) :
    let typed := world.run
      (shell.database.respond text shell.database.settings.useIndexes)
    let later := typed.2.run (shell.serveLines rest)
    (shell.serveLines (line :: rest)).runWith World.perform world =
      ([.err "tessera> "] ++ Output.ofResponse typed.1 shell.format ++ later.1, later.2) := by
  simp only [Program.run_eq_runWith]
  rw [serveLines, asks, Program.runWith_bind, runWith_prompt_of_idle idle]
  simp only [serve, Program.runWith_bind, Program.runWith_pure]

/-- A shell answers a query on its first line before anything else. -/
theorem runWith_run_query (asks : Request.ofLine line = .query text) (rest : List String) :
    ∃ more code, ((shell.run (line :: rest)).runWith World.perform world).1 =
      (shell.greeting ++ ([.err "tessera> "] ++ Output.ofResponse
        (world.run (shell.database.respond text shell.database.settings.useIndexes)).1
        shell.format ++ more), code) := by
  rw [run, Program.runWith_bind, runWith_serveLines_query idle asks]
  simp only [Program.runWith_bind, Program.runWith_pure, List.append_assoc]
  exact ⟨_, _, rfl⟩

/-- A shell that is given a query only leaves what the query leaves. -/
theorem runWith_run_only_query (asks : Request.ofLine line = .query text) :
    let typed := world.run (shell.database.respond text shell.database.settings.useIndexes)
    ((shell.run [line]).runWith World.perform world).2 = typed.2 := by
  intro typed
  have idleAfter : typed.2.active.contains shell.database.name = false := by
    rw [Database.active_run_respond]
    exact idle
  have served : ((shell.serveLines [line]).runWith World.perform world).2 = typed.2 := by
    rw [runWith_serveLines_query idle asks, serveLines, Program.run_eq_runWith _ shell.prompt]
    exact congrArg Prod.snd (runWith_prompt_of_idle idleAfter)
  rw [run, Program.runWith_bind, served, Program.runWith_bind, runWith_leave_of_idle idleAfter]
  rfl

end

end Shell

/-! ## Whole runs -/

namespace Command

variable {path text line : String} {settings : Settings} {database : Database}
  {world opened : World}

/-- An action on an open database is carried out before the database is closed. -/
theorem run_withDatabase (action : Database → Program (List Output × Nat))
    (opens : world.run (Database.open (.ofText path) settings).run = (.ok database, opened)) :
    let acted := opened.run (action database)
    world.run (withDatabase path settings action) =
      (acted.1, (database.close.runWith World.perform acted.2).2) := by
  rw [Program.run_eq_runWith, Task.runWith_run] at opens
  simp only [Program.run_eq_runWith]
  rw [withDatabase, Program.runWith_bind, Task.runWith_run, opens]
  simp only [Program.runWith_bind, Program.runWith_pure]

/-- An action that leaves the handle idle is all that is done to an open database. -/
theorem run_withDatabase_of_idle {action : Database → Program (List Output × Nat)}
    (opens : world.run (Database.open (.ofText path) settings).run = (.ok database, opened))
    (idle : (opened.run (action database)).2.active.contains database.name = false) :
    world.run (withDatabase path settings action) = opened.run (action database) := by
  rw [run_withDatabase action opens, Database.runWith_close_of_idle idle]

/-- What is written, and the exit code, for the response to a query. -/
def answered (format : Format) : Query.Response → List Output × Nat
  | .success answer => (Output.ofResponse (.success answer) format, 0)
  | .failure message => (Output.ofResponse (.failure message) format ++ [.error message], 1)

theorem run_runQuery (format : Format) (text : String) (useIndex : Bool) (world : World) :
    world.run (runQuery format text useIndex database) =
      (answered format (world.run (database.respond text useIndex)).1,
        (world.run (database.respond text useIndex)).2) := by
  simp only [Program.run_eq_runWith]
  rw [runQuery, Program.runWith_bind]
  rcases (database.respond text useIndex).runWith World.perform world with ⟨answer | message, after⟩
  · rfl
  · rfl

end Command

theorem Configuration.isValid_of_parse {source : String} {settings : Settings}
    (parsed : parse source = .ok settings) : settings.isValid := by
  have standard : ({} : Settings).isValid := by decide +kernel
  unfold parse at parsed
  split at parsed
  · cases parsed
    exact standard
  · split at parsed
    · cases parsed
    · cases parsed
      exact standard
    · split at parsed
      · unfold validate at parsed
        split at parsed
        · next valid =>
            cases parsed
            exact valid
        · cases parsed
      · cases parsed

/-- Settings that are read from a file are allowed, and reading them changes nothing. -/
theorem Configuration.runWith_load (path : Path) (world : World) :
    let loaded := (load path).runWith World.perform world
    loaded.2 = world ∧ ∀ settings, loaded.1 = .ok settings → settings.isValid := by
  rw [load, Task.runWith_bind_of_ok (Task.runWith_perform _ _ _)]
  simp only [World.perform]
  split
  · exact ⟨rfl, fun settings parsed => isValid_of_parse parsed⟩
  · exact ⟨rfl, by rintro settings ⟨⟩⟩

namespace Invocation

variable {invocation : Invocation} {chosen : Settings} {world : World}

theorem run_settings (accepted : (world.run invocation.settings).1 = .ok chosen) :
    world.run invocation.settings = (.ok chosen, world) ∧ chosen.isValid := by
  rw [Program.run_eq_runWith] at accepted ⊢
  rw [settings] at accepted ⊢
  cases named : invocation.configuration with
  | none =>
      rw [named] at accepted
      cases accepted
      exact ⟨rfl, by decide +kernel⟩
  | some path =>
      obtain ⟨same, valid⟩ := Configuration.runWith_load (.ofText path) world
      rw [named] at accepted
      simp only [Program.runWith_bind, Task.runWith_run] at accepted ⊢
      rcases loaded : (Configuration.load (.ofText path)).runWith World.perform world with
        ⟨error | read, after⟩
      · rw [loaded] at accepted
        cases accepted
      · rw [loaded] at accepted same valid
        cases accepted
        exact ⟨congrArg (Except.ok chosen, ·) same, valid chosen rfl⟩

/-- An invocation runs its command with the settings that were accepted. -/
theorem run_eq (accepted : (world.run invocation.settings).1 = .ok chosen) (lines : List String) :
    world.run (invocation.run lines) =
      world.run (invocation.command.run invocation.format chosen lines) := by
  have read := (run_settings accepted).1
  rw [Program.run_eq_runWith] at read
  simp only [Program.run_eq_runWith]
  rw [run, Program.runWith_bind, read]

/-- On a directory without a workspace, a query of the command line and the same line given first to
a shell leave the same files.  They obtain the same response if the settings say that indexes are
probed.  Otherwise the query obtains, of the nodes of the shell, only those that an index holds. -/
theorem query_agrees_with_shell {configuration : Option String} {format : Format}
    {path line text : String} {place : List String}
    (accepted : (world.run (settings ⟨configuration, format, .query path line true⟩)).1 =
      .ok chosen)
    (usable : (Path.ofText path).isUsable) (leads : world.disk.LeadsTo (.ofText path) place)
    (free : world.disk.kindAt? ((Path.ofText path).join chosen.workspaceName) = none)
    (fresh : Identifier.ofNumber world.nextNumber ∉ world.active)
    (asks : Shell.Request.ofLine line = .query text) :
    let database := Database.next (.ofText path) chosen world
    let shell : Shell := ⟨database, format⟩
    let opened : World := { world with nextNumber := world.nextNumber + 1 }
    let asked := opened.run (database.respond line true)
    let typed := opened.run (database.respond text chosen.useIndexes)
    (∀ lines, world.run (run ⟨configuration, format, .query path line true⟩ lines) =
        (Command.answered format asked.1, asked.2)) ∧
      (∀ rest, ∃ more code,
        (world.run (run ⟨configuration, format, .shell path⟩ (line :: rest))).1 =
          (shell.greeting ++ ([.err "tessera> "] ++ Output.ofResponse typed.1 format ++ more),
            code)) ∧
      typed.2.disk = asked.2.disk ∧
      (world.run (run ⟨configuration, format, .shell path⟩ [line])).2.disk = asked.2.disk ∧
      (chosen.useIndexes → asked.1 = typed.1) ∧
      (chosen.useIndexes = false →
        asked.1 = typed.1.among (Query.filedFor (world.indexes (.ofText path)) line)) := by
  intro database shell opened asked typed
  have acceptedShell : (world.run (settings ⟨configuration, format, .shell path⟩)).1 = .ok chosen :=
    accepted
  have valid : chosen.isValid := (run_settings accepted).2
  have opens : world.run (Database.open (.ofText path) chosen).run = (.ok database, opened) := by
    rw [Program.run_eq_runWith, Task.runWith_run]
    exact Database.runWith_open_of_free valid usable leads free fresh
  have idle : opened.active.contains database.name = false :=
    @Database.contains_next_of_fresh (.ofText path) chosen world fresh
  have idleAfter : ∀ source useIndex,
      (opened.run (database.respond source useIndex)).2.active.contains database.name = false :=
    fun source useIndex => by rw [Database.active_run_respond]; exact idle
  have sameText : typed = opened.run (database.respond line chosen.useIndexes) := by
    rw [← Database.respond_trimString, ← Shell.Request.eq_trimString_of_ofLine asks]
  have sameFiles : typed.2.disk = asked.2.disk := by
    rw [sameText]
    exact Database.disk_run_respond_useIndex line _ _
  have sameIndexes : opened.indexes (.ofText path) = world.indexes (.ofText path) := by
    have leadsOpened : opened.disk.LeadsTo (.ofText path) place := leads
    rw [(World.holds_storeAt leadsOpened).indexes_eq, (World.holds_storeAt leads).indexes_eq]
    exact Store.catalog_of_toOption rfl _
  refine ⟨fun lines => ?_, fun rest => ?_, sameFiles, ?_, fun probed => ?_, fun scanned => ?_⟩
  · rw [run_eq accepted, ← Command.run_runQuery]
    exact Command.run_withDatabase_of_idle opens
      (by rw [Command.run_runQuery]; exact idleAfter line true)
  · obtain ⟨more, code, written⟩ :=
      @Shell.runWith_run_query shell opened line text idle asks rest
    rw [run_eq acceptedShell]
    exact ⟨more, code, (congrArg Prod.fst (Command.run_withDatabase _ opens)).trans
      (by rw [Program.run_eq_runWith]; exact written)⟩
  · have only : (opened.run (shell.run [line])).2 = typed.2 := by
      rw [Program.run_eq_runWith]
      exact @Shell.runWith_run_only_query shell opened line text idle asks
    have ran : world.run (Command.withDatabase path chosen fun database =>
        Shell.run ⟨database, format⟩ [line]) = opened.run (shell.run [line]) :=
      Command.run_withDatabase_of_idle opens (by rw [only]; exact idleAfter text _)
    rw [run_eq acceptedShell, ← sameFiles, ← only]
    exact congrArg (·.2.disk) ran
  · rw [sameText, probed]
  · rw [sameText, scanned, ← sameIndexes]
    exact Database.respond_among idle leads line

/-- Where the settings say that indexes are not probed, the shell finds a node that a stale index
misses, and the query does not. -/
theorem query_agrees_with_shell_of_stale_index :
    let node (id : String) := "\x7b\"id\": \"" ++ id ++
      "\", \"labels\": [\"L\"], \"properties\": \x7b\"p\": 1\x7d\x7d"
    let indexes := "\x7b\"L\": \x7b\"p\": \x7b\"1\": [\"a\"]\x7d\x7d\x7d"
    let world : World := { disk := .directory [
      ("config.yaml", .file (.text "use_index_by_default: false\n")),
      ("db", .directory [("indexes.json", .file (.text indexes)),
        ("nodes.json", .file (.text ("[" ++ node "a" ++ ", " ++ node "b" ++ "]")))])] }
    let text := "MATCH (n:L \x7bp: 1\x7d) RETURN n"
    let line := " " ++ text
    let chosen : Settings := { useIndexes := false }
    let database := Database.next (.ofText "db") chosen world
    let opened : World := { world with nextNumber := world.nextNumber + 1 }
    let asked := (opened.run (database.respond line true)).1
    let typed := (opened.run (database.respond text false)).1
    let found (id : String) : Node := ⟨id, ["L"], .ofList [("p", .integer 1)]⟩
    asked = typed.among (Query.filedFor (world.indexes (.ofText "db")) line) ∧
      asked = .success ⟨"1 nodes matched with properties", [found "a"], []⟩ ∧
      typed = .success ⟨"2 nodes matched with properties", [found "a", found "b"], []⟩ := by
  intro node indexes world text line chosen database opened asked typed found
  have accepted : (world.run (settings ⟨some "config.yaml", .json, .query "db" line true⟩)).1 =
      .ok chosen := by decide +kernel
  have leads : world.disk.LeadsTo (.ofText "db") ["db"] := ⟨by decide +kernel, _, rfl⟩
  have asks : Shell.Request.ofLine line = .query text := by decide +kernel
  obtain ⟨-, -, -, -, -, scanned⟩ := query_agrees_with_shell accepted (by decide +kernel) leads
    (by decide +kernel) List.not_mem_nil asks
  exact ⟨scanned rfl, by decide +kernel, by decide +kernel⟩

end Invocation
end GraphStore
