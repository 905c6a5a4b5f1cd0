import GraphStore.Proofs.Query.Saves
import GraphStore.Proofs.Transaction.Interleavings

/-!
# Matches beside creations

A match takes no locks, so other threads of its handle go on creating between its loads.  Each load
finds its collection as it is between two whole creations, but different loads may find different
such states: the indexes are no newer than the nodes, and the relationships are at most one creation
older than the nodes.
-/

namespace GraphStore
namespace Database

open Collections

variable {database : Database} {directory : Path} {start : World × List Share}
  {guests index : Nat} {past past' : List Nat} {pending pending' : List String}
  {world world' serial serial' : World} {threads : List Thread} {thread moved : Thread}

/-! ## States between creations -/

/-- Whether a world is reached when whole operations are served in the first turns of an order. -/
def StateAfter (database : Database) (start : World × List Share) (order : List Nat) (turns : Nat)
    (state : World) : Prop :=
  ∃ shares, database.serveInTurns? start (order.take turns) = some (state, shares)

theorem StateAfter.mono {turns : Nat} {state : World}
    (after : database.StateAfter start past turns state) (isPrefix : past <+: past')
    (bound : turns ≤ past.length) : database.StateAfter start past' turns state := by
  obtain ⟨later, rfl⟩ := isPrefix
  obtain ⟨shares, served⟩ := after
  exact ⟨shares, by rw [List.take_append_of_le_length bound, served]⟩

/-- How many operations have been served as a whole in what a collection shows, when the last one
has still to save some collections. -/
def level (past : List Nat) (pending : List String) (name : String) : Nat :=
  if name ∈ pending then past.length - 1 else past.length

theorem level_le (past : List Nat) (pending : List String) (name : String) :
    level past pending name ≤ past.length := by
  unfold level
  split <;> omega

theorem length_le_level (past : List Nat) (pending : List String) (name : String) :
    past.length ≤ level past pending name + 1 := by
  unfold level
  split <;> omega

theorem level_mono_right (past : List Nat) (fewer : ∀ name ∈ pending', name ∈ pending)
    (name : String) : level past pending name ≤ level past pending' name := by
  unfold level
  split
  · split <;> omega
  · next absent => rw [if_neg fun member => absent (fewer name member)]

/-! ## Threads that create -/

/-- Whether a thread only creates things in a directory, and saves only some files while it
works. -/
def Thread.Creates (database : Database) (directory : Path) (pending : List String)
    (thread : Thread) : Prop :=
  (∀ operation ∈ thread.share.todo, operation.IsCreation) ∧
    match thread.stage with
    | .outside | .leaving .. => True
    | .waiting _ _ current => current.Asks database.name database.manager.targetIf ∨
        current.Takes database.name directory
    | .working _ _ current => current.Saves directory pending

theorem Thread.Creates.of_idle (creates : thread.Creates database directory pending)
    (idle : thread.stage.isWorking = false) : thread.Creates database directory pending' := by
  obtain ⟨share, stage⟩ := thread
  cases stage with
  | working alone reply current => cases idle
  | _ => exact creates

/-- A world in which threads create things in a directory, while some guests are in the gate as
well.  The last operation that took effect has still to save the pending files. -/
structure Creating (database : Database) (directory : Path) (start : World × List Share)
    (guests : Nat) (past : List Nat) (pending : List String) (world serial : World)
    (threads : List Thread) : Prop where
  interleaved : Interleaved database guests world serial threads
  served : database.serveInTurns? start past = some (serial, threads.map Thread.settled)
  active : world.active = start.1.active
  leads : ∃ place, world.disk.LeadsTo directory place
  creates : ∀ {index : Nat} {thread : Thread}, threads[index]? = some thread →
    thread.Creates database directory pending
  isSuffix : pending <:+ files
  /-- Somebody is working as long as files are pending. -/
  worker : pending ≠ [] → ∃ thread ∈ threads, thread.stage.isWorking
  /-- The pending files are as before the last operation. -/
  before : pending ≠ [] → ∃ earlier last state shares, past = earlier ++ [last] ∧
    database.serveInTurns? start earlier = some (state, shares) ∧
      state.active = start.1.active ∧
        ∀ name ∈ pending, world.reading directory name = state.reading directory name

namespace Creating

theorem named {name : String} (member : name ∈ files) : name ≠ "" := by
  rintro rfl
  exact absurd member (by decide)

/-- The collections that are not pending are as after the operations that took effect. -/
theorem reading_serial
    (creating : Creating database directory start guests past pending world serial threads) :
    serial.active = start.1.active ∧ ∀ name ∈ files, name ∉ pending →
      world.reading directory name = serial.reading directory name := by
  obtain ⟨place, leads⟩ := creating.leads
  have guarded := creating.interleaved.guarded
  cases held : (world.registry database.name).isHeld LockRegistry.nodes with
  | false =>
      have same := creating.interleaved.unlocked held
      refine ⟨(World.active_congr same).symm.trans creating.active, fun name _ _ => ?_⟩
      rw [World.reading, World.disk_congr same, World.reading]
  | true =>
      -- The rest of the work leads to the serial world and only saves pending files.
      have counted := guarded.working
      rw [held, Bool.toNat_true] at counted
      obtain ⟨worker, member, working⟩ := List.countP_pos_iff.1 (Nat.lt_of_sub_eq_succ counted)
      obtain ⟨other, found⟩ := List.mem_iff_getElem?.1 member
      have follows := creating.interleaved.follows found
      obtain ⟨-, saves⟩ := creating.creates found
      obtain ⟨share, stage⟩ := worker
      cases stage with
      | working alone reply current =>
          obtain ⟨-, -, after⟩ := follows
          obtain ⟨-, kept⟩ := World.reading_run saves
            (fun name member => named (creating.isSuffix.subset member)) leads
          refine ⟨?_, fun name member absent => ?_⟩
          · rw [← World.active_congr after, saves.active_run, creating.active]
          · rw [← kept name (named member) absent, World.reading, World.disk_congr after,
              World.reading]
      | _ => cases working

/-- Each collection is as after some of the operations that took effect. -/
theorem shows
    (creating : Creating database directory start guests past pending world serial threads)
    {name : String} (member : name ∈ files) :
    ∃ state, database.StateAfter start past (level past pending name) state ∧
      state.active = start.1.active ∧
        world.reading directory name = state.reading directory name := by
  by_cases waits : name ∈ pending
  · obtain ⟨earlier, last, state, shares, rfl, served, active, same⟩ :=
      creating.before (List.ne_nil_of_mem waits)
    refine ⟨state, ⟨shares, ?_⟩, active, same name waits⟩
    rw [level, if_pos waits, List.length_append, List.length_singleton, Nat.add_sub_cancel,
      List.take_left, served]
  · obtain ⟨active, same⟩ := creating.reading_serial
    refine ⟨serial, ⟨threads.map Thread.settled, ?_⟩, active, same name member waits⟩
    rw [level, if_neg waits, List.take_length, creating.served]

/-- One thread moves. -/
theorem move (creating : Creating database directory start guests past pending world serial threads)
    (found : threads[index]? = some thread)
    (interleaved : Interleaved database guests world' serial' (threads.set index moved))
    (served : database.serveInTurns? start past' =
      some (serial', (threads.set index moved).map Thread.settled))
    (active : world'.active = world.active) (leads : ∃ place, world'.disk.LeadsTo directory place)
    (creates : moved.Creates database directory pending')
    (others : pending' = pending ∨ ∀ {other : Nat} {otherThread : Thread}, other ≠ index →
      threads[other]? = some otherThread → otherThread.stage.isWorking = false)
    (isSuffix : pending' <:+ files)
    (worker : pending' ≠ [] →
      moved.stage.isWorking ∨ thread.stage.isWorking = false ∧ pending ≠ [])
    (before : pending' ≠ [] → ∃ earlier last state shares, past' = earlier ++ [last] ∧
      database.serveInTurns? start earlier = some (state, shares) ∧
        state.active = start.1.active ∧
          ∀ name ∈ pending', world'.reading directory name = state.reading directory name) :
    Creating database directory start guests past' pending' world' serial'
      (threads.set index moved) := by
  refine ⟨interleaved, served, active.trans creating.active, leads, fun foundOther => ?_,
    isSuffix, fun some => ?_, before⟩
  · rcases eq_or_of_getElem?_set found foundOther with rfl | ⟨differs, foundBefore⟩
    · exact creates
    · rcases others with rfl | idle
      · exact creating.creates foundBefore
      · exact (creating.creates foundBefore).of_idle (idle differs foundBefore)
  · rcases worker some with working | ⟨idle, someBefore⟩
    · exact ⟨moved, List.mem_set (List.getElem?_eq_some_iff.1 found).1 _, working⟩
    · obtain ⟨other, member, working⟩ := creating.worker someBefore
      obtain ⟨place, foundOther⟩ := List.mem_iff_getElem?.1 member
      refine ⟨other, List.mem_iff_getElem?.2 ⟨place, ?_⟩, working⟩
      rw [List.getElem?_set_ne, foundOther]
      rintro rfl
      rw [found] at foundOther
      rw [← Option.some.inj foundOther, idle] at working
      cases working

/-- One thread moves, and nothing happens on the disk. -/
theorem quiet
    (creating : Creating database directory start guests past pending world serial threads)
    (found : threads[index]? = some thread)
    (interleaved : Interleaved database guests world' serial (threads.set index moved))
    (served : database.serveInTurns? start (past ++ []) =
      some (serial, (threads.set index moved).map Thread.settled))
    (active : world'.active = world.active) (disk : world'.disk = world.disk)
    (creates : moved.Creates database directory pending)
    (works : thread.stage.isWorking → moved.stage.isWorking) :
    Creating database directory start guests past pending world' serial
      (threads.set index moved) := by
  rw [List.append_nil] at served
  have reading : ∀ name, world'.reading directory name = world.reading directory name := by
    intro name
    rw [World.reading, disk, World.reading]
  refine creating.move found interleaved served active (by rw [disk]; exact creating.leads) creates
    (.inl rfl) creating.isSuffix (fun some => ?_) fun some => ?_
  · cases idle : thread.stage.isWorking with
    | false => exact .inr ⟨rfl, some⟩
    | true => exact .inl (works idle)
  · obtain ⟨earlier, last, state, shares, same, servedEarlier, activeState, kept⟩ :=
      creating.before some
    refine ⟨earlier, last, state, shares, same, servedEarlier, activeState, fun name member => ?_⟩
    rw [reading, kept name member]

/-- An operation takes effect: all collections are pending now. -/
theorem begin (creating : Creating database directory start guests past pending world serial threads)
    (found : threads[index]? = some thread)
    (free : (world.registry database.name).isHeld LockRegistry.nodes = false)
    (creates : moved.Creates database directory files) (working : moved.stage.isWorking)
    (unlocked : world'.unlocked = world.unlocked)
    (interleaved : Interleaved database guests world' serial' (threads.set index moved))
    (served : database.serveInTurns? start (past ++ [index]) =
      some (serial', (threads.set index moved).map Thread.settled)) :
    Creating database directory start guests (past ++ [index]) files world' serial'
      (threads.set index moved) := by
  have guarded := creating.interleaved.guarded
  have disk := World.disk_congr unlocked
  rw [free] at guarded
  refine creating.move found interleaved served (World.active_congr unlocked)
    (by rw [disk]; exact creating.leads) creates
    (.inr fun _ foundOther => guarded.idle_of_free foundOther) List.suffix_rfl
    (fun _ => .inl working) fun _ => ⟨past, index, serial, _, rfl, creating.served,
      creating.reading_serial.1, fun name _ => ?_⟩
  rw [World.reading, disk, World.disk_congr (creating.interleaved.unlocked free), World.reading]

/-- The worker saves a collection: one less is pending. -/
theorem save (creating : Creating database directory start guests past pending world serial threads)
    {share : Share} {alone : Bool} {reply : Reply} {current later : Program Reply} {name : String}
    {others : List String} {content : Content}
    (found : threads[index]? = some ⟨share, .working alone reply current⟩)
    (isSuffix : name :: others <:+ pending) (saves : later.Saves directory others)
    (interleaved : Interleaved database guests
      (world.perform (.replace directory name content)).2 serial
      (threads.set index ⟨share, .working alone reply later⟩))
    (served : database.serveInTurns? start past = some (serial,
      (threads.set index ⟨share, .working alone reply later⟩).map Thread.settled)) :
    Creating database directory start guests past others
      (world.perform (.replace directory name content)).2 serial
      (threads.set index ⟨share, .working alone reply later⟩) := by
  have member := isSuffix.subset List.mem_cons_self
  have inner : (Action.replace directory name content).IsInner false := trivial
  obtain ⟨todo, -⟩ := creating.creates found
  obtain ⟨place, leads⟩ := creating.leads
  obtain ⟨leadsAfter, kept⟩ :=
    World.reading_replace leads (named (creating.isSuffix.subset member)) content
  refine creating.move found interleaved served (world.active_perform inner) ⟨place, leadsAfter⟩
    ⟨todo, saves⟩ (.inr fun differs foundOther =>
      creating.interleaved.guarded.idle_of_working found rfl foundOther differs)
    (((List.suffix_cons name others).trans isSuffix).trans creating.isSuffix)
    (fun _ => .inl rfl) fun _ => ?_
  obtain ⟨earlier, last, state, shares, same, servedEarlier, active, waits⟩ :=
    creating.before (List.ne_nil_of_mem member)
  refine ⟨earlier, last, state, shares, same, servedEarlier, active, fun other inOthers => ?_⟩
  have inPending := isSuffix.subset (List.mem_cons_of_mem name inOthers)
  refine (kept other (named (creating.isSuffix.subset inPending)) ?_).trans (waits other inPending)
  rintro rfl
  exact (List.nodup_cons.1 ((isSuffix.trans creating.isSuffix).sublist.nodup
    (by decide))).1 inOthers

variable {action : Action} {next : action.Answer → Program (List Reply)}

/-- One step of a thread. -/
theorem step (creating : Creating database directory start guests past pending world serial threads)
    (target : directory = database.manager.targetIf (start.1.active.contains database.name))
    (found : threads[index]? = some thread) (program : thread.program database = .act action next)
    (enabled : world.enabled action) :
    ∃ moved serial' past' pending', moved.program database = next (world.perform action).1 ∧
      Creating database directory start guests past' pending' (world.perform action).2 serial'
        (threads.set index moved) ∧
      past <+: past' ∧ ∀ name, level past pending name ≤ level past' pending' name := by
  obtain ⟨moved, serial', takesEffect, move, rest, interleaved, servedTurn⟩ :=
    creating.interleaved.step found program enabled
  have served := serveInTurns?_append creating.served (Interleaved.turns index takesEffect)
  rw [servedTurn] at served
  have stays : past <+: past ∧ ∀ name, level past pending name ≤ level past pending name :=
    ⟨List.prefix_rfl, fun _ => le_rfl⟩
  obtain ⟨todo, stage⟩ := creating.creates found
  cases move with
  | @enter operation operations replies alone later serves =>
      obtain ⟨enters, same, asks⟩ := database.creates_serve (todo operation List.mem_cons_self)
      cases serves.symm.trans same
      exact ⟨_, _, past, pending, rest, creating.quiet found interleaved served rfl rfl
        ⟨fun other member => todo other (List.mem_cons_of_mem operation member), .inl asks⟩
        (by rintro ⟨⟩), stays⟩
  | @ask share alone operation later =>
      obtain ⟨asks, same, takes⟩ | ⟨takes, same, -⟩ := stage
      · cases same
        have taken := takes (world.active.contains database.name)
        rw [creating.active, ← target] at taken
        rw [creating.active] at interleaved served rest
        exact ⟨_, _, past, pending, rest, creating.quiet found interleaved served rfl rfl
          ⟨todo, .inr taken⟩ (by rintro ⟨⟩), stays⟩
      · cases same
  | @start share alone operation later =>
      obtain ⟨asks, same, -⟩ | ⟨takes, same, saves⟩ := stage
      · cases same
      · cases same
        have free : (world.registry database.name).isHeld LockRegistry.nodes = false := by
          simpa [World.enabled] using enabled
        have unlocked : (world.perform (.acquire database.name LockRegistry.nodes)).2.unlocked =
          world.unlocked := rfl
        refine ⟨_, _, past ++ [index], files, rest, creating.begin found free ⟨todo, saves⟩ rfl
          unlocked interleaved served, List.prefix_append _ _, fun name => ?_⟩
        refine (level_le past pending name).trans ?_
        rw [level, List.length_append, List.length_singleton]
        split <;> omega
  | @skip share alone operation later =>
      obtain ⟨asks, same, -⟩ | ⟨takes, same, -⟩ := stage <;> cases same
  | @work share alone reply action later =>
      rcases stage with ⟨name, others, content, isSuffix, rfl, saves⟩ | ⟨silent, saves⟩
      · have fewer : ∀ other ∈ others, other ∈ pending :=
          fun other inOthers => isSuffix.subset (List.mem_cons_of_mem name inOthers)
        rw [Interleaved.turns, if_neg Bool.false_ne_true, List.append_nil] at served
        exact ⟨_, _, past, others, rest, creating.save found isSuffix (saves _) interleaved served,
          List.prefix_rfl, level_mono_right past fewer⟩
      · exact ⟨_, _, past, pending, rest, creating.quiet found interleaved served
          (silent.active_perform world) (silent.disk_perform world) ⟨todo, saves _⟩ fun _ => rfl,
          stays⟩
  | @giveBack share alone reply later =>
      rw [Interleaved.turns, if_neg Bool.false_ne_true, List.append_nil] at served
      exact ⟨_, _, past, [], rest, creating.move found interleaved served rfl creating.leads
        ⟨todo, trivial⟩ (.inr fun differs foundOther =>
          creating.interleaved.guarded.idle_of_working found rfl foundOther differs)
        List.nil_suffix (fun some => absurd rfl some) (fun some => absurd rfl some),
        List.prefix_rfl, level_mono_right past fun _ member => absurd member List.not_mem_nil⟩
  | @unlock share alone reply resource later =>
      exact ⟨_, _, past, pending, rest, creating.quiet found interleaved served rfl rfl
        ⟨todo, trivial⟩ (by rintro ⟨⟩), stays⟩
  | @leave share alone reply later =>
      exact ⟨_, _, past, pending, rest, creating.quiet found interleaved served rfl rfl
        ⟨todo, trivial⟩ (by rintro ⟨⟩), stays⟩

end Creating

/-! ## Matches -/

/-- The collections in the order in which a match loads them. -/
def loadOrder : List String :=
  [indexesFile, nodesFile, relationshipsFile]

/-- What a match has seen: each collection as it is after some turns of an order.  The indexes are
no newer than the nodes, and the relationships at most one turn older than the nodes. -/
structure Sighting (database : Database) (directory : Path) (start : World × List Share)
    (order : List Nat) (seen : String → Nat) (readings : String → Except Fault Content) :
    Prop where
  indexes_le_nodes : seen indexesFile ≤ seen nodesFile
  nodes_le_relationships : seen nodesFile ≤ seen relationshipsFile + 1
  le_length : ∀ name ∈ files, seen name ≤ order.length
  shows : ∀ name ∈ files, ∃ state, database.StateAfter start order (seen name) state ∧
    state.active = start.1.active ∧ readings name = state.reading directory name

variable {seen : String → Nat} {readings : String → Except Fault Content}

theorem Sighting.mono (sighting : Sighting database directory start past seen readings)
    (isPrefix : past <+: past') : Sighting database directory start past' seen readings := by
  refine ⟨sighting.indexes_le_nodes, sighting.nodes_le_relationships,
    fun name member => (sighting.le_length name member).trans isPrefix.length_le,
    fun name member => ?_⟩
  obtain ⟨state, after, active, same⟩ := sighting.shows name member
  exact ⟨state, after.mono isPrefix (sighting.le_length name member), active, same⟩

theorem eq_of_mem_of_isSuffix {α : Type} {first : α} {rest items : List α}
    (isSuffix : items <:+ first :: rest) (absent : first ∉ rest) (member : first ∈ items) :
    items = first :: rest := by
  rcases List.suffix_cons_iff.1 isSuffix with same | shorter
  · exact same
  · exact absurd (shorter.subset member) absent

/-- What a match would see if it loaded everything now. -/
theorem Creating.sighting
    (creating : Creating database directory start guests past pending world serial threads) :
    Sighting database directory start past (level past pending) (world.reading directory) := by
  refine ⟨?_, ?_, fun name _ => level_le past pending name, fun name => creating.shows⟩
  · -- As long as the nodes are pending, so are the indexes.
    by_cases waits : nodesFile ∈ pending
    · rw [eq_of_mem_of_isSuffix creating.isSuffix (by decide) waits]
      rfl
    · rw [level.eq_1 past pending nodesFile, if_neg waits]
      exact level_le past pending indexesFile
  · exact (level_le past pending nodesFile).trans (length_le_level past pending relationshipsFile)

/-- What a match has seen that loads the remaining collections now. -/
theorem Sighting.refresh {remaining : List String}
    (sighting : Sighting database directory start past seen readings)
    (creating : Creating database directory start guests past pending world serial threads)
    (bound : ∀ name ∈ files, seen name ≤ level past pending name)
    (isSuffix : remaining <:+ loadOrder) :
    Sighting database directory start past
      (fun name => if name ∈ remaining then level past pending name else seen name)
      (fun name => if name ∈ remaining then world.reading directory name else readings name) := by
  have now := creating.sighting
  have refreshed : ∀ name ∈ files,
      seen name ≤ if name ∈ remaining then level past pending name else seen name := by
    intro name member
    split
    · exact bound name member
    · exact le_rfl
  refine ⟨?_, ?_, fun name member => ?_, fun name member => ?_⟩
  · by_cases waits : indexesFile ∈ remaining
    · rw [eq_of_mem_of_isSuffix isSuffix (by decide) waits]
      exact now.indexes_le_nodes
    · rw [if_neg waits]
      exact sighting.indexes_le_nodes.trans (refreshed nodesFile (by decide))
  · by_cases waits : nodesFile ∈ remaining
    · have member : relationshipsFile ∈ remaining := by
        rcases List.suffix_cons_iff.1 isSuffix with rfl | shorter
        · decide
        · rw [eq_of_mem_of_isSuffix shorter (by decide) waits]
          decide
      rw [if_pos waits, if_pos member]
      exact now.nodes_le_relationships
    · rw [if_neg waits]
      exact sighting.nodes_le_relationships.trans
        (Nat.succ_le_succ (refreshed relationshipsFile (by decide)))
  · split
    · exact now.le_length name member
    · exact sighting.le_length name member
  · split
    · exact now.shows name member
    · exact sighting.shows name member

/-- What is left of a match that answers as soon as its loads are done. -/
def answering (database : Database) (loads : Program (Except Query.ExecutionError Query.Answer)) :
    Program (List Reply) :=
  loads.bind fun result => .act (.leave database.name false) fun _ => .done [.executed result]

/-- How a match begins on the current target. -/
theorem serveAll_match {source : String} {query : Query.MatchQuery}
    (parsed : Query.parse source = .ok (.matching query)) (useIndex : Bool) :
    database.serveAll [.execute source useIndex] =
      .act (.enter database.name false) fun _ => .act (.isActive database.name) fun active =>
        database.answering ((Query.Executor.ofSettings (database.manager.targetIf active)
          database.name database.settings).executeMatch query useIndex).run := by
  have executes : ∀ active, ((Query.Executor.ofSettings (database.manager.targetIf active)
      database.name database.settings).execute source useIndex).run =
        ((Query.Executor.ofSettings (database.manager.targetIf active) database.name
          database.settings).executeMatch query useIndex).run := by
    intro active
    rw [Query.Executor.execute, parsed]
    rfl
  have serves : database.serveAll [.execute source useIndex] =
      .act (.enter database.name false) fun _ => .act (.isActive database.name) fun active =>
        database.answering ((Query.Executor.ofSettings (database.manager.targetIf active)
          database.name database.settings).execute source useIndex).run := by
    change ((Reply.executed <$> (database.execute source useIndex).run) >>= fun reply =>
      pure [reply] : Program (List Reply)) = _
    rw [bind_map_left]
    refine congrArg (Program.act (.enter database.name false)) (funext fun _ => ?_)
    refine congrArg (Program.act (.isActive database.name)) (funext fun active => ?_)
    cases active with
    | false => exact Program.bind_bind _ _ _
    | true => exact Program.bind_bind _ _ _
  simp only [serves, executes]

/-- How far a match is whose loads all together are given.  While it loads, its answer is going to
be that on what it has seen and on what it will load. -/
inductive Reading (database : Database) (directory : Path) (start : World × List Share)
    (whole : Program (Except Query.ExecutionError Query.Answer)) (past : List Nat)
    (pending : List String) : Nat → Program (List Reply) → Prop where
  /-- It has not entered the gate yet. -/
  | outside {asks : Bool → Program (List Reply)}
      (target : asks (start.1.active.contains database.name) = database.answering whole) :
      Reading database directory start whole past pending 0
        (.act (.enter database.name false) fun _ => .act (.isActive database.name) asks)
  /-- It has not asked for the current target yet. -/
  | asking {asks : Bool → Program (List Reply)}
      (target : asks (start.1.active.contains database.name) = database.answering whole) :
      Reading database directory start whole past pending 1 (.act (.isActive database.name) asks)
  /-- It loads collections. -/
  | loading {rest : Program (Except Query.ExecutionError Query.Answer)} {remaining : List String}
      {seen : String → Nat} {readings : String → Except Fault Content}
      (loads : rest.Loads directory remaining) (isSuffix : remaining <:+ loadOrder)
      (sighting : Sighting database directory start past seen readings)
      (bound : ∀ name ∈ files, seen name ≤ level past pending name)
      (answers : ∀ later : String → Except Fault Content,
        (∀ name, name ∉ remaining → later name = readings name) →
          (rest.runWith Store.perform (.ofReading later)).1 =
            (whole.runWith Store.perform (.ofReading later)).1) :
      Reading database directory start whole past pending 1 (database.answering rest)
  /-- It has answered. -/
  | gone {seen : String → Nat} {readings : String → Except Fault Content}
      (sighting : Sighting database directory start past seen readings) :
      Reading database directory start whole past pending 0
        (.done [.executed (whole.runWith Store.perform (.ofReading readings)).1])

variable {whole : Program (Except Query.ExecutionError Query.Answer)}
  {program : Program (List Reply)}

/-- What others do takes nothing from what a match has seen. -/
theorem Reading.mono (reading : Reading database directory start whole past pending guests program)
    (isPrefix : past <+: past')
    (later : ∀ name, level past pending name ≤ level past' pending' name) :
    Reading database directory start whole past' pending' guests program := by
  cases reading with
  | outside target => exact .outside target
  | asking target => exact .asking target
  | loading loads isSuffix sighting bound answers =>
      exact .loading loads isSuffix (sighting.mono isPrefix)
        (fun name member => (bound name member).trans (later name)) answers
  | gone sighting => exact .gone (sighting.mono isPrefix)

/-! ### Guests in the gate -/

theorem Guarded.admit {gate : Gate} {held : Bool} (guarded : Guarded guests gate held threads)
    (opened : gate.alone = false) :
    Guarded (guests + 1) { gate with together := gate.together + 1 } held threads := by
  have together := guarded.together
  refine ⟨?_, guarded.alone, fun closed => ?_, guarded.working⟩
  · simp only
    omega
  · rw [opened] at closed
    cases closed

theorem Guarded.dismiss {gate : Gate} {held : Bool}
    (guarded : Guarded (guests + 1) gate held threads) :
    Guarded guests { gate with together := gate.together - 1 } held threads := by
  have together := guarded.together
  refine ⟨?_, guarded.alone, fun closed => ?_, guarded.working⟩
  · simp only
    omega
  · have empty := guarded.exclusive closed
    omega

/-- A guest comes or goes. -/
theorem Creating.guest {guests' : Nat}
    (creating : Creating database directory start guests past pending world serial threads)
    (unlocked : world'.unlocked = world.unlocked)
    (registry : world'.registry database.name = world.registry database.name)
    (guarded : Guarded guests' (world'.gate database.name)
      ((world.registry database.name).isHeld LockRegistry.nodes) threads) :
    Creating database directory start guests' past pending world' serial threads := by
  have before := creating.before
  have interleaved := creating.interleaved
  have disk := World.disk_congr unlocked
  refine ⟨⟨interleaved.writers,
      fun found => interleaved.others_of_unlocked unlocked rfl found, ?_, ?_⟩,
    creating.served, (World.active_congr unlocked).trans creating.active, ?_, creating.creates,
    creating.isSuffix, creating.worker, ?_⟩
  · rw [registry]
    exact guarded
  · rw [registry, unlocked]
    exact interleaved.unlocked
  · rw [disk]
    exact creating.leads
  · simp only [World.reading, disk] at before ⊢
    exact before

variable {action : Action} {next : action.Answer → Program (List Reply)}

/-- One step of the match. -/
theorem Reading.step (reading : Reading database directory start whole past pending guests program)
    (creating : Creating database directory start guests past pending world serial threads)
    (loads : whole.Loads directory loadOrder) (same : program = .act action next)
    (enabled : world.enabled action) :
    ∃ guests', Creating database directory start guests' past pending (world.perform action).2
        serial threads ∧
      Reading database directory start whole past pending guests'
        (next (world.perform action).1) := by
  have guarded := creating.interleaved.guarded
  cases reading with
  | outside target =>
      cases same
      have opened : (world.gate database.name).alone = false := by
        simpa [World.enabled] using enabled
      refine ⟨1, creating.guest rfl rfl ?_, .asking target⟩
      rw [World.perform, World.gate_changeGate]
      exact guarded.admit opened
  | @asking asks target =>
      cases same
      refine ⟨1, creating, ?_⟩
      change Reading _ _ _ _ _ _ 1 (asks (world.active.contains database.name))
      rw [creating.active, target]
      exact .loading loads List.suffix_rfl creating.sighting (fun _ _ => le_rfl) fun _ _ => rfl
  | @loading rest remaining seen readings loadsRest isSuffix sighting bound answers =>
      cases rest with
      | done result =>
          cases same
          refine ⟨0, creating.guest rfl rfl ?_, ?_⟩
          · rw [World.perform, World.gate_changeGate]
            exact guarded.dismiss
          · have answer : result = _ := answers readings fun _ _ => rfl
            change Reading _ _ _ _ _ _ 0 (.done [.executed result])
            rw [answer]
            exact .gone sighting
      | act first later =>
          obtain ⟨name, others, isSuffixHere, rfl, loadsLater⟩ := loadsRest
          cases same
          have member := isSuffixHere.subset List.mem_cons_self
          have fewer : ∀ other ∈ others, other ∈ remaining :=
            fun other inOthers => isSuffixHere.subset (List.mem_cons_of_mem name inOthers)
          have absent : name ∉ others := (List.nodup_cons.1
            ((isSuffixHere.trans isSuffix).sublist.nodup (by decide))).1
          refine ⟨1, creating, .loading (loadsLater _)
            (((List.suffix_cons name others).trans isSuffixHere).trans isSuffix)
            (sighting.refresh creating bound isSuffix) (fun other inFiles => ?_)
            fun future agrees => ?_⟩
          · split
            · exact le_rfl
            · exact bound other inFiles
          · have here := agrees name absent
            rw [if_pos member] at here
            rw [← answers future fun other gone => ?_]
            · simp only [Program.runWith, Store.perform, Path.entryName_child, Store.ofReading, here]
              rfl
            · rw [agrees other fun inOthers => gone (fewer other inOthers), if_neg gone]
  | gone sighting => cases same

/-- Any number of steps of the match and of threads that create. -/
theorem Reading.run (reading : Reading database directory start whole past pending guests program)
    (creating : Creating database directory start guests past pending world serial threads)
    (loads : whole.Loads directory loadOrder)
    (target : directory = database.manager.targetIf (start.1.active.contains database.name))
    {schedule : List Nat} {after : World} {programs : List (Program (List Reply))}
    (ran : world.interleave? (program :: threads.map (Thread.program database)) schedule =
      some (after, programs)) :
    ∃ last moved lastSerial order unsaved inside,
      programs = last :: moved.map (Thread.program database) ∧
      Creating database directory start inside order unsaved after lastSerial moved ∧
      Reading database directory start whole order unsaved inside last := by
  induction schedule generalizing world serial threads past pending guests program with
  | nil =>
      cases ran
      exact ⟨program, threads, serial, past, pending, guests, rfl, creating, reading⟩
  | cons index rest ih =>
      rw [World.interleave?] at ran
      cases turned : world.turn? (program :: threads.map (Thread.program database)) index with
      | none => simp [turned] at ran
      | some state =>
          obtain ⟨action, next, found, enabled, rfl⟩ := World.turn?_eq_some turned
          rw [turned] at ran
          cases index with
          | zero =>
              obtain ⟨guests', creatingNext, readingNext⟩ :=
                reading.step creating loads (Option.some.inj found) enabled
              exact ih readingNext creatingNext ran
          | succ index =>
              rw [List.getElem?_cons_succ, List.getElem?_map, Option.map_eq_some_iff] at found
              obtain ⟨thread, found, same⟩ := found
              obtain ⟨moved, serial', past', pending', rest_eq, creatingNext, isPrefix, later⟩ :=
                creating.step target found same enabled
              rw [List.set_cons_succ, ← rest_eq, ← List.map_set] at ran
              exact ih (reading.mono isPrefix later) creatingNext ran

/-! ## Answers -/

/-- The answer of a match that nothing disturbs. -/
theorem run_match {source : String} {query : Query.MatchQuery} {useIndex : Bool}
    (parsed : Query.parse source = .ok (.matching query)) {state : World} {names : List String}
    (target : directory = database.manager.targetIf (state.active.contains database.name))
    (loads : ((Query.Executor.ofSettings directory database.name
      database.settings).executeMatch query useIndex).run.Loads directory names)
    (reads : ∀ name ∈ names, (Store.ofReading readings).read name = state.reading directory name) :
    (state.run (database.serve (.execute source useIndex))).1 =
      .executed (((Query.Executor.ofSettings directory database.name
        database.settings).executeMatch query useIndex).run.runWith Store.perform
          (.ofReading readings)).1 := by
  have single : (state.run (database.serveAll [.execute source useIndex])).1 =
      [(state.run (database.serve (.execute source useIndex))).1] := by
    change (state.run ((database.serve _).bind fun reply => .done [reply])).1 = _
    rw [World.run_bind]
    rfl
  have entered : (state.changeGate database.name fun gate =>
      { gate with together := gate.together + 1 }).unlocked = state.unlocked := rfl
  have answered := (World.run_congr entered ((Query.Executor.ofSettings directory database.name
    database.settings).executeMatch query useIndex).run).1.trans
      (loads.run reads)
  rw [serveAll_match parsed] at single
  change ((World.changeGate _ _ _).run (database.answering ((Query.Executor.ofSettings
    (database.manager.targetIf (state.active.contains database.name)) _ _).executeMatch
      query useIndex).run)).1 = _ at single
  rw [← target, answering, World.run_bind] at single
  rw [← answered]
  exact (List.cons.inj single).1.symm

/-- A match beside threads that create answers as it does on collections that each are as between
two of their operations.  If it loads only the nodes, then it answers as if it had run alone between
two of their operations.  The order of these operations is the one in which they took effect. -/
theorem match_reads_in_order {source : String} {query : Query.MatchQuery} {useIndex : Bool}
    {operations : List (List Operation)} {place : List String}
    (parsed : Query.parse source = .ok (.matching query))
    (creations : ∀ todo ∈ operations, ∀ operation ∈ todo, operation.IsCreation)
    (opened : world.gate database.name = {})
    (free : (world.registry database.name).isHeld LockRegistry.nodes = false)
    (target : directory = database.manager.targetIf (world.active.contains database.name))
    (leads : world.disk.LeadsTo directory place) {schedule : List Nat} {after : World}
    {reply : Reply} {others : List (Program (List Reply))}
    (ran : world.interleave? (database.serveAll [.execute source useIndex] ::
      operations.map database.serveAll) schedule = some (after, .done [reply] :: others)) :
    ∃ order seen readings,
      Sighting database directory (world, operations.map fun todo => ⟨todo, []⟩) order seen
        readings ∧
      reply = .executed (((Query.Executor.ofSettings directory database.name
        database.settings).executeMatch query useIndex).run.runWith Store.perform
          (.ofReading readings)).1 ∧
      (query.isScan useIndex → ∃ state,
        database.StateAfter (world, operations.map fun todo => ⟨todo, []⟩) order
          (seen nodesFile) state ∧
        reply = (state.run (database.serve (.execute source useIndex))).1) ∧
      ∀ answers : List (List Reply), others = answers.map .done → ∃ last,
        database.serveInTurns? (world, operations.map fun todo => ⟨todo, []⟩) order =
          some (last, answers.map fun replies => ⟨[], replies⟩) ∧
        last.unlocked = after.unlocked := by
  have writers : ∀ todo ∈ operations, ∀ operation ∈ todo, operation.IsWriter :=
    fun todo member operation inTodo => Operation.IsCreation.isWriter (creations todo member operation inTodo)
  have programs : (operations.map fun todo => Thread.mk ⟨todo, []⟩ .outside).map
      (Thread.program database) = operations.map database.serveAll := by
    rw [List.map_map]
    exact List.map_congr_left fun todo _ => Program.bind_done (database.serveAll todo)
  have settled : (operations.map fun todo => Thread.mk ⟨todo, []⟩ .outside).map Thread.settled =
      operations.map fun todo => ⟨todo, []⟩ := by
    rw [List.map_map]
    rfl
  have creating : Creating database directory (world, operations.map fun todo => ⟨todo, []⟩) 0 []
      [] world world (operations.map fun todo => ⟨⟨todo, []⟩, .outside⟩) := by
    refine ⟨Interleaved.start writers opened free, by rw [settled]; rfl, rfl, ⟨place, leads⟩,
      fun found => ?_, List.nil_suffix, fun some => absurd rfl some, fun some => absurd rfl some⟩
    obtain ⟨todo, member, rfl⟩ := List.mem_map.1 (List.mem_of_getElem? found)
    exact ⟨creations todo member, trivial⟩
  have loads := (Query.Executor.ofSettings directory database.name
    database.settings).loads_executeMatch query useIndex
  rw [serveAll_match parsed, ← programs] at ran
  obtain ⟨last, moved, serial, order, unsaved, inside, ended, creatingLast, done⟩ :=
    (Reading.outside (by rw [← target])).run creating loads target ran
  obtain ⟨first, rest⟩ := List.cons.inj ended
  cases done with
  | outside | asking => cases first
  | @loading rest => cases rest <;> cases first
  | @gone seen readings sighting =>
      cases first
      refine ⟨order, seen, readings, sighting, rfl, fun scan => ?_, fun answers finished => ?_⟩
      · obtain ⟨state, reached, active, same⟩ := sighting.shows nodesFile (by decide)
        rw [← active] at target
        refine ⟨state, reached, (run_match parsed target ((Query.Executor.ofSettings directory
          database.name database.settings).loads_executeMatch_of_isScan scan)
            fun name member => ?_).symm⟩
        rw [List.mem_singleton.1 member]
        exact same
      · obtain ⟨shares, same⟩ := creatingLast.interleaved.finished (rest.symm.trans finished)
        exact ⟨serial, by rw [creatingLast.served, shares], same⟩

/-- A match of labelled nodes between the two saves of a creation. -/
theorem match_reads_in_order_of_labelled_nodes :
    let operations : List (List Operation) := [[.execute "CREATE (:A)-[:T]->(:A)" true]]
    let reply : Reply :=
      .executed (.ok ⟨"1 nodes matched", [⟨Identifier.ofNumber 0, ["A"], .empty⟩], []⟩)
    ∃ (database : Database) (world after state : World) (others : List (Program (List Reply)))
        (order : List Nat) (turns : Nat),
      world.interleave? (database.serveAll [.execute "MATCH (n:A) RETURN n" true] ::
          operations.map database.serveAll)
          [1, 1, 1, 1, 1, 1, 1, 1, 1, 1, 0, 0, 0, 0, 1, 1, 1, 1, 1, 1] =
        some (after, .done [reply] :: others) ∧
      database.StateAfter (world, operations.map fun todo => ⟨todo, []⟩) order turns state ∧
      reply = (state.run (database.serve (.execute "MATCH (n:A) RETURN n" true))).1 := by
  intro operations reply
  let node : Node := ⟨Identifier.ofNumber 0, ["A"], .empty⟩
  let world : World := { disk := .directory [("db", .emptyDirectory)] }
  let database : Database := ⟨.ofText "db", {}, .ofText "db", "transaction_temp", 2, "handle"⟩
  have ended : (world.interleave? (database.serveAll [.execute "MATCH (n:A) RETURN n" true] ::
      operations.map database.serveAll)
      [1, 1, 1, 1, 1, 1, 1, 1, 1, 1, 0, 0, 0, 0, 1, 1, 1, 1, 1, 1]).map
        (fun state => state.2.map Program.value?) = some ([[reply], [.executed (.ok
          ⟨"Nodes and relationship created", [node, node],
            [⟨Identifier.ofNumber 1, node.id, node.id, "T", .empty⟩]⟩)]].map some) := by
    decide +kernel
  obtain ⟨after, ran⟩ := Program.exists_of_value? ended
  have parsed : Query.parse "MATCH (n:A) RETURN n" =
      .ok (.matching ⟨⟨⟨some "n", some "A", .empty⟩, none⟩, none, ["n"]⟩) := by decide +kernel
  have leads : world.disk.LeadsTo database.manager.database ["db"] :=
    ⟨by decide +kernel, Tree.kind?_eq_some_directory.1 (by decide +kernel)⟩
  obtain ⟨order, seen, readings, -, -, alone, -⟩ := match_reads_in_order parsed
    (show ∀ todo ∈ operations, _ by decide +kernel) rfl rfl rfl leads ran
  obtain ⟨state, reached, same⟩ := alone (by decide +kernel)
  exact ⟨database, world, after, state, _, order, _, ran, reached, same⟩

/-- A single operation leads to a single other state. -/
theorem StateAfter.of_single {operation : Operation} {order : List Nat} {turns : Nat}
    {state : World}
    (after : database.StateAfter (world, [⟨[operation], []⟩]) order turns state) :
    state = world ∨ state = (world.run (database.serve operation)).2 := by
  obtain ⟨shares, served⟩ := after
  generalize order.take turns = first at served
  cases first with
  | nil =>
      cases served
      exact .inl rfl
  | cons index rest =>
      cases index with
      | zero =>
          cases rest with
          | nil =>
              cases served
              exact .inr rfl
          | cons next rest => cases next <;> cases served
      | succ index => cases served

/-- A match may see the nodes of a creation without its relationship. -/
theorem match_sees_two_states :
    ¬∀ (database : Database) (world after : World) (place : List String) (source : String)
        (useIndex : Bool) (operations : List (List Operation)) (schedule : List Nat)
        (reply : Reply) (others : List (Program (List Reply))),
      (∀ todo ∈ operations, ∀ operation ∈ todo, operation.IsCreation) →
        world.gate database.name = {} →
          (world.registry database.name).isHeld LockRegistry.nodes = false →
            world.disk.LeadsTo (database.manager.targetIf
              (world.active.contains database.name)) place →
              world.interleave? (database.serveAll [.execute source useIndex] ::
                operations.map database.serveAll) schedule =
                  some (after, .done [reply] :: others) →
                ∃ order turns state, database.StateAfter
                  (world, operations.map fun todo => ⟨todo, []⟩) order turns state ∧
                    reply = (state.run (database.serve (.execute source useIndex))).1 := by
  intro claim
  let world : World := { disk := .directory [("db", .emptyDirectory)] }
  let database : Database := ⟨.ofText "db", { indented := false }, .ofText "db",
    "transaction_temp", 2, "handle"⟩
  let creation : Operation := .execute "CREATE (:A)-[:T]->(:A)" true
  let node : Node := ⟨Identifier.ofNumber 0, ["A"], .empty⟩
  let reply : Reply := .executed (.ok ⟨"1 nodes and 0 relationships returned", [node], []⟩)
  have ended : (world.interleave? [database.serveAll [.execute "MATCH (n) RETURN n" true],
      database.serveAll [creation]]
      [1, 1, 1, 1, 1, 1, 1, 1, 1, 1, 0, 0, 0, 0, 0, 1, 1, 1, 1, 1, 1]).map
        (fun state => state.2.map Program.value?) = some ([[reply], [.executed (.ok
          ⟨"Nodes and relationship created", [node, node],
            [⟨Identifier.ofNumber 1, node.id, node.id, "T", .empty⟩]⟩)]].map some) := by
    decide +kernel
  obtain ⟨after, ran⟩ := Program.exists_of_value? ended
  obtain ⟨order, turns, state, reached, same⟩ := claim database world after ["db"]
    "MATCH (n) RETURN n" true [[creation]] _ reply _ (by decide +kernel) rfl rfl
    ⟨by decide +kernel, Tree.kind?_eq_some_directory.1 (by decide +kernel)⟩ ran
  -- Neither before the creation nor after it does the match answer this.
  have before : reply ≠ (world.run (database.serve (.execute "MATCH (n) RETURN n" true))).1 := by
    decide +kernel
  have later : reply ≠ ((world.run (database.serve creation)).2.run
      (database.serve (.execute "MATCH (n) RETURN n" true))).1 := by decide +kernel
  rcases reached.of_single with rfl | rfl
  · exact before same
  · exact later same

end Database
end GraphStore
