import GraphStore.Proofs.Transaction.Writers

/-!
# Interleaved writers

Threads that share a handle serve their operations action by action.  A writer takes effect when it
takes the lock of the nodes: what it does until it gives this lock back is the rest of a run that
nobody disturbs.  So there is an order in which the threads could have served the same operations one
at a time.
-/

namespace GraphStore
namespace Database

/-! ## One operation at a time -/

/-- What a thread has still to do, and what it was answered so far. -/
structure Share where
  /-- The operations that are left. -/
  todo : List Operation
  /-- The answers to those before. -/
  replies : List Reply := []

/-- Let one of several threads serve its next operation as a whole, if it has one. -/
def serveTurn? (database : Database) (state : World × List Share) (index : Nat) :
    Option (World × List Share) :=
  match state.2[index]? with
  | some ⟨operation :: rest, replies⟩ =>
    let (reply, world) := state.1.run (database.serve operation)
    some (world, state.2.set index ⟨rest, replies ++ [reply]⟩)
  | _ => none

/-- Let threads serve whole operations in a given order of turns. -/
def serveInTurns? (database : Database) (state : World × List Share) (order : List Nat) :
    Option (World × List Share) :=
  order.foldlM database.serveTurn? state

variable {database : Database} {world serial : World}

theorem serveInTurns?_append {state next : World × List Share} {first : List Nat}
    (served : database.serveInTurns? state first = some next) (second : List Nat) :
    database.serveInTurns? state (first ++ second) = database.serveInTurns? next second := by
  rw [serveInTurns?, List.foldlM_append, ← serveInTurns?, served]
  rfl

/-! ## Threads -/

/-- Where a thread is in its current operation. -/
inductive Stage where
  /-- It has not entered the gate yet. -/
  | outside
  /-- It has not taken the lock of the nodes yet. -/
  | waiting (alone : Bool) (operation : Operation) (current : Program Reply)
  /-- It holds the lock of the nodes, and will reply what is said here. -/
  | working (alone : Bool) (reply : Reply) (current : Program Reply)
  /-- It has given the lock of the nodes back. -/
  | leaving (alone : Bool) (reply : Reply) (current : Program Reply)

/-- Whether a thread is inside the gate, alone or together with others. -/
def Stage.isInside (alone : Bool) : Stage → Bool
  | outside => false
  | waiting other .. | working other .. | leaving other .. => alone == other

/-- Whether a thread holds the lock of the nodes. -/
def Stage.isWorking : Stage → Bool
  | working .. => true
  | _ => false

@[simp]
theorem Stage.isInside_outside (alone : Bool) : outside.isInside alone = false := rfl

@[simp]
theorem Stage.isWorking_outside : outside.isWorking = false := rfl

theorem Stage.isInside_not {alone : Bool} {stage : Stage} (inside : stage.isInside alone) :
    stage.isInside (!alone) = false := by
  cases stage with
  | outside => rfl
  | _ =>
      rw [isInside, beq_iff_eq] at inside
      subst inside
      cases alone <;> rfl

/-- A thread: its share apart from its current operation, and its stage. -/
structure Thread where
  /-- What comes after the current operation, and what was answered before it. -/
  share : Share
  /-- Where the thread is in the current operation. -/
  stage : Stage := .outside

/-- Serve what is left of a share, after what was answered already. -/
def resume (database : Database) (share : Share) : Program (List Reply) :=
  (database.serveAll share.todo).bind fun later => .done (share.replies ++ later)

theorem resume_nil (replies : List Reply) : database.resume ⟨[], replies⟩ = .done replies := by
  change Program.done (replies ++ []) = .done replies
  rw [List.append_nil]

theorem resume_cons (operation : Operation) (rest : List Operation) (replies : List Reply) :
    database.resume ⟨operation :: rest, replies⟩ =
      (database.serve operation).bind fun reply =>
        database.resume ⟨rest, replies ++ [reply]⟩ := by
  change ((database.serve operation).bind fun reply => (database.serveAll rest).bind fun later =>
    .done (reply :: later)).bind _ = _
  rw [Program.bind_bind]
  congr 1
  funext reply
  rw [Program.bind_bind, resume]
  congr 1
  funext later
  simp [Program.bind]

namespace Thread

/-- What a thread will still do. -/
def program (database : Database) (thread : Thread) : Program (List Reply) :=
  match thread.stage with
  | .outside => database.resume thread.share
  | .waiting _ _ current | .working _ _ current | .leaving _ _ current =>
    current.bind fun reply =>
      database.resume ⟨thread.share.todo, thread.share.replies ++ [reply]⟩

/-- The share of a thread if operations take effect as a whole. -/
def settled (thread : Thread) : Share :=
  match thread.stage with
  | .outside => thread.share
  | .waiting _ operation _ => ⟨operation :: thread.share.todo, thread.share.replies⟩
  | .working _ reply _ | .leaving _ reply _ =>
    ⟨thread.share.todo, thread.share.replies ++ [reply]⟩

/-- What is known of a thread in a world, where another world has been reached with whole
operations.  A waiting thread will still do what its operation does, as long as the transaction is
active or not as it is now; the rest of a working thread leads to the other world. -/
def Follows (database : Database) (world serial : World) (thread : Thread) : Prop :=
  match thread.stage with
  | .outside => True
  | .waiting alone operation current => current.Waits database.name alone ∧
      ∀ other : World, other.active.contains database.name = world.active.contains database.name →
        Program.AgreeOn other current (database.serve operation)
  | .working alone reply current => current.Works database.name alone ∧
      (world.run current).1 = reply ∧ (world.run current).2.unlocked = serial.unlocked
  | .leaving alone reply current => current.Leaves database.name alone reply

variable {thread : Thread} {world' serial' : World}

/-- Locks and gates do not matter to what is known of a thread. -/
theorem Follows.transport (follows : thread.Follows database world serial)
    (same : world'.unlocked = world.unlocked) (sameSerial : serial'.unlocked = serial.unlocked) :
    thread.Follows database world' serial' := by
  obtain ⟨share, stage⟩ := thread
  cases stage with
  | outside => trivial
  | waiting alone operation current =>
      refine ⟨follows.1, fun other still => follows.2 other ?_⟩
      rw [still, World.active_congr same]
  | working alone reply current =>
      obtain ⟨works, value, after⟩ := follows
      obtain ⟨sameValue, sameAfter⟩ := World.run_congr same current
      exact ⟨works, sameValue.trans value, (sameAfter.trans after).trans sameSerial.symm⟩
  | leaving alone reply current => exact follows

/-- What others do on the disk does not matter to a thread that is not working. -/
theorem Follows.transport_of_idle (follows : thread.Follows database world serial)
    (idle : thread.stage.isWorking = false)
    (active : thread.stage.isInside true ∨ thread.stage.isInside false →
      world'.active.contains database.name = world.active.contains database.name) :
    thread.Follows database world' serial' := by
  obtain ⟨share, stage⟩ := thread
  cases stage with
  | outside => trivial
  | waiting alone operation current =>
      refine ⟨follows.1, fun other still => follows.2 other ?_⟩
      rw [still, active]
      cases alone
      · exact .inr rfl
      · exact .inl rfl
  | working alone reply current => cases idle
  | leaving alone reply current => exact follows

end Thread

/-! ## Interleavings -/

theorem countP_set_add {α : Type} (holds : α → Bool) {items : List α} {index : Nat} {item : α}
    (found : items[index]? = some item) (new : α) :
    (items.set index new).countP holds + (holds item).toNat =
      items.countP holds + (holds new).toNat := by
  induction items generalizing index with
  | nil => cases found
  | cons first rest ih =>
      cases index with
      | zero =>
          cases found
          simp only [List.set_cons_zero, List.countP_cons]
          cases holds item <;> cases holds new <;> simp
      | succ index =>
          have counted := ih found
          simp only [List.set_cons_succ, List.countP_cons]
          omega

theorem eq_false_of_countP_le_one {α : Type} {holds : α → Bool} {items : List α}
    (few : items.countP holds ≤ 1) {index other : Nat} {item otherItem : α}
    (found : items[index]? = some item) (isTrue : holds item)
    (foundOther : items[other]? = some otherItem) (differs : other ≠ index) :
    holds otherItem = false := by
  -- Without the one at `index` nothing is left to be counted.
  have marked : (items.map holds)[index]? = some (holds item) := by
    rw [List.getElem?_map, found, Option.map_some]
  have counted := countP_set_add id marked false
  rw [List.countP_map, Function.id_comp, isTrue] at counted
  have none : ((items.map holds).set index false).countP id = 0 := by
    simp only [id_eq, Bool.toNat_true, Bool.toNat_false] at counted
    omega
  have kept : holds otherItem ∈ (items.map holds).set index false := by
    refine List.mem_of_getElem? (i := other) ?_
    rw [List.getElem?_set_ne (Ne.symm differs), List.getElem?_map, foundOther, Option.map_some]
  exact Bool.not_eq_true _ ▸ List.countP_eq_zero.1 none _ kept

theorem eq_or_of_getElem?_set {α : Type} {items : List α} {index other : Nat}
    {item new otherItem : α} (found : items[index]? = some item)
    (foundOther : (items.set index new)[other]? = some otherItem) :
    otherItem = new ∨ other ≠ index ∧ items[other]? = some otherItem := by
  by_cases same : other = index
  · subst same
    rw [List.getElem?_set_self', found] at foundOther
    exact .inl (Option.some.inj foundOther).symm
  · rw [List.getElem?_set_ne (Ne.symm same)] at foundOther
    exact .inr ⟨same, foundOther⟩

/-- The gate and the lock of the nodes are as threads and some guests in the gate have left them. -/
structure Guarded (guests : Nat) (gate : Gate) (held : Bool) (threads : List Thread) : Prop where
  together : gate.together = guests + threads.countP fun thread => thread.stage.isInside false
  alone : (threads.countP fun thread => thread.stage.isInside true) = gate.alone.toNat
  exclusive : gate.alone → gate.together = 0
  working : (threads.countP fun thread => thread.stage.isWorking) = held.toNat

namespace Guarded

variable {guests index other : Nat} {gate gate' : Gate} {held held' : Bool}
  {threads : List Thread} {thread moved otherThread : Thread}

/-- One thread moves, and the gate and the lock change with it. -/
theorem move (guarded : Guarded guests gate held threads) (found : threads[index]? = some thread)
    (together : gate'.together + (thread.stage.isInside false).toNat =
      gate.together + (moved.stage.isInside false).toNat)
    (alone : gate'.alone.toNat + (thread.stage.isInside true).toNat =
      gate.alone.toNat + (moved.stage.isInside true).toNat)
    (exclusive : gate'.alone → gate'.together = 0)
    (working : held'.toNat + thread.stage.isWorking.toNat =
      held.toNat + moved.stage.isWorking.toNat) :
    Guarded guests gate' held' (threads.set index moved) := by
  have countTogether := countP_set_add (fun thread => thread.stage.isInside false) found moved
  have countAlone := countP_set_add (fun thread => thread.stage.isInside true) found moved
  have countWorking := countP_set_add (fun thread => thread.stage.isWorking) found moved
  have togetherBefore := guarded.together
  have aloneBefore := guarded.alone
  have workingBefore := guarded.working
  refine ⟨?_, ?_, exclusive, ?_⟩
  · omega
  · omega
  · omega

theorem enter {share later : Share} {operation : Operation} {current : Program Reply}
    {alone : Bool} (guarded : Guarded guests gate held threads)
    (found : threads[index]? = some ⟨share, .outside⟩)
    (free : !gate.alone && (!alone || gate.together == 0)) :
    Guarded guests
      (if alone then { gate with alone := true } else { gate with together := gate.together + 1 })
      held (threads.set index ⟨later, .waiting alone operation current⟩) := by
  simp only [Bool.and_eq_true, Bool.not_eq_true', Bool.or_eq_true, beq_iff_eq] at free
  obtain ⟨opened, empty⟩ := free
  cases alone with
  | false => exact guarded.move found rfl rfl (fun closed => by simp [opened] at closed) rfl
  | true =>
      refine guarded.move found rfl ?_ (fun _ => ?_) rfl
      · simp [opened, Stage.isInside]
      · simpa using empty

theorem leave {later : Share} {alone : Bool} (guarded : Guarded guests gate held threads)
    (found : threads[index]? = some thread) (inside : thread.stage.isInside alone)
    (idle : thread.stage.isWorking = false) :
    Guarded guests
      (if alone then { gate with alone := false } else { gate with together := gate.together - 1 })
      held (threads.set index ⟨later, .outside⟩) := by
  have counted : 0 < threads.countP fun thread => thread.stage.isInside alone :=
    List.countP_pos_iff.2 ⟨thread, List.mem_of_getElem? found, inside⟩
  have elsewhere := Stage.isInside_not inside
  have togetherBefore := guarded.together
  have aloneBefore := guarded.alone
  cases alone with
  | false =>
      have opened : gate.alone = false := by
        by_contra closed
        have empty := guarded.exclusive (Bool.not_eq_false _ ▸ closed)
        omega
      refine guarded.move found ?_ ?_ (fun closed => by simp [opened] at closed) ?_
      · simp only [inside, Bool.false_eq_true, if_false, Stage.isInside_outside, Bool.toNat_true,
          Bool.toNat_false]
        omega
      · simpa using elsewhere
      · simp [idle]
  | true =>
      refine guarded.move found ?_ ?_ (fun closed => by simp at closed) ?_
      · simpa using elsewhere
      · have few := Bool.toNat_le gate.alone
        simp only [inside, if_true, Stage.isInside_outside, Bool.toNat_true, Bool.toNat_false]
        omega
      · simp [idle]

theorem idle_of_free (guarded : Guarded guests gate false threads)
    (found : threads[index]? = some thread) : thread.stage.isWorking = false :=
  Bool.not_eq_true _ ▸ List.countP_eq_zero.1 guarded.working _ (List.mem_of_getElem? found)

theorem held_of_working (guarded : Guarded guests gate held threads)
    (found : threads[index]? = some thread) (working : thread.stage.isWorking) : held = true := by
  have counted : 0 < threads.countP fun thread => thread.stage.isWorking :=
    List.countP_pos_iff.2 ⟨thread, List.mem_of_getElem? found, working⟩
  rw [guarded.working] at counted
  cases held with
  | false => cases counted
  | true => rfl

theorem idle_of_working (guarded : Guarded guests gate held threads)
    (found : threads[index]? = some thread) (working : thread.stage.isWorking)
    (foundOther : threads[other]? = some otherThread) (differs : other ≠ index) :
    otherThread.stage.isWorking = false := by
  have few : (threads.countP fun thread => thread.stage.isWorking) ≤ 1 := by
    rw [guarded.working]
    exact Bool.toNat_le held
  exact eq_false_of_countP_le_one few found working foundOther differs

/-- Who is inside the gate alone is the only one inside. -/
theorem outside_of_alone (guarded : Guarded guests gate held threads)
    (found : threads[index]? = some thread) (alone : thread.stage.isInside true)
    (foundOther : threads[other]? = some otherThread) (differs : other ≠ index) :
    ¬(otherThread.stage.isInside true ∨ otherThread.stage.isInside false) := by
  rintro (inside | inside)
  · have few : (threads.countP fun thread => thread.stage.isInside true) ≤ 1 := by
      rw [guarded.alone]
      exact Bool.toNat_le gate.alone
    rw [eq_false_of_countP_le_one few found alone foundOther differs] at inside
    cases inside
  · have some : 0 < threads.countP fun thread => thread.stage.isInside true :=
      List.countP_pos_iff.2 ⟨thread, List.mem_of_getElem? found, alone⟩
    have someTogether : 0 < threads.countP fun thread => thread.stage.isInside false :=
      List.countP_pos_iff.2 ⟨otherThread, List.mem_of_getElem? foundOther, inside⟩
    have closed : gate.alone := by
      rw [guarded.alone] at some
      exact Bool.toNat_eq_one.1 (by have := Bool.toNat_le gate.alone; omega)
    have empty := guarded.exclusive closed
    rw [guarded.together] at empty
    omega

end Guarded

/-- A world in which writers are interleaved, while some guests are in the gate as well.  Another
world has been reached with whole operations; it is the same, locks and gates apart, unless a thread
holds the lock of the nodes. -/
structure Interleaved (database : Database) (guests : Nat) (world serial : World)
    (threads : List Thread) : Prop where
  writers : ∀ {index : Nat} {thread : Thread}, threads[index]? = some thread →
    ∀ operation ∈ thread.share.todo, operation.IsWriter
  follows : ∀ {index : Nat} {thread : Thread}, threads[index]? = some thread →
    thread.Follows database world serial
  guarded : Guarded guests (world.gate database.name)
    ((world.registry database.name).isHeld LockRegistry.nodes) threads
  unlocked : (world.registry database.name).isHeld LockRegistry.nodes = false →
    world.unlocked = serial.unlocked

namespace Interleaved

variable {guests index : Nat} {threads : List Thread} {thread moved : Thread}
  {world' serial' : World}

/-- One thread moves. -/
theorem move (interleaved : Interleaved database guests world serial threads)
    (found : threads[index]? = some thread)
    (todo : ∀ operation ∈ moved.share.todo, operation ∈ thread.share.todo)
    (follows : moved.Follows database world' serial')
    (others : ∀ {other : Nat} {otherThread : Thread}, other ≠ index →
      threads[other]? = some otherThread → otherThread.Follows database world' serial')
    (guarded : Guarded guests (world'.gate database.name)
      ((world'.registry database.name).isHeld LockRegistry.nodes) (threads.set index moved))
    (unlocked : (world'.registry database.name).isHeld LockRegistry.nodes = false →
      world'.unlocked = serial'.unlocked) :
    Interleaved database guests world' serial' (threads.set index moved) := by
  refine ⟨fun foundOther operation member => ?_, fun foundOther => ?_, guarded, unlocked⟩
  · rcases eq_or_of_getElem?_set found foundOther with rfl | ⟨-, before⟩
    · exact interleaved.writers found operation (todo operation member)
    · exact interleaved.writers before operation member
  · rcases eq_or_of_getElem?_set found foundOther with rfl | ⟨differs, before⟩
    · exact follows
    · exact others differs before

theorem others_of_unlocked (interleaved : Interleaved database guests world serial threads)
    (same : world'.unlocked = world.unlocked) (sameSerial : serial'.unlocked = serial.unlocked)
    {other : Nat} {otherThread : Thread} (foundOther : threads[other]? = some otherThread) :
    otherThread.Follows database world' serial' :=
  (interleaved.follows foundOther).transport same sameSerial

/-! ### Steps -/

/-- How a thread moves with an action.  The last two arguments are the serial world after it and
whether its operation takes effect. -/
inductive Move (database : Database) (world serial : World) :
    Thread → Action → Thread → World → Bool → Prop where
  /-- It enters the gate. -/
  | enter {operation : Operation} {rest : List Operation} {replies : List Reply} {alone : Bool}
      {later : Unit → Program Reply}
      (serves : database.serve operation = .act (.enter database.name alone) later) :
      Move database world serial ⟨⟨operation :: rest, replies⟩, .outside⟩
        (.enter database.name alone)
        ⟨⟨rest, replies⟩, .waiting alone operation (later ())⟩ serial false
  /-- It learns whether a transaction is active. -/
  | ask {share : Share} {alone : Bool} {operation : Operation} {later : Bool → Program Reply} :
      Move database world serial
        ⟨share, .waiting alone operation (.act (.isActive database.name) later)⟩
        (.isActive database.name)
        ⟨share, .waiting alone operation (later (world.active.contains database.name))⟩ serial
        false
  /-- It takes the lock of the nodes. -/
  | start {share : Share} {alone : Bool} {operation : Operation} {later : Unit → Program Reply} :
      Move database world serial
        ⟨share, .waiting alone operation
          (.act (.acquire database.name LockRegistry.nodes) later)⟩
        (.acquire database.name LockRegistry.nodes)
        ⟨share, .working alone (serial.run (database.serve operation)).1 (later ())⟩
        (serial.run (database.serve operation)).2 true
  /-- It leaves without work. -/
  | skip {share : Share} {alone : Bool} {operation : Operation} {later : Unit → Program Reply} :
      Move database world serial
        ⟨share, .waiting alone operation (.act (.leave database.name alone) later)⟩
        (.leave database.name alone)
        ⟨⟨share.todo, share.replies ++ [(serial.run (database.serve operation)).1]⟩, .outside⟩
        (serial.run (database.serve operation)).2 true
  /-- It works, or takes another lock. -/
  | work {share : Share} {alone : Bool} {reply : Reply} {action : Action}
      {later : action.Answer → Program Reply} :
      Move database world serial ⟨share, .working alone reply (.act action later)⟩ action
        ⟨share, .working alone reply (later (world.perform action).1)⟩ serial false
  /-- It gives the lock of the nodes back. -/
  | giveBack {share : Share} {alone : Bool} {reply : Reply} {later : Unit → Program Reply} :
      Move database world serial
        ⟨share, .working alone reply (.act (.release database.name LockRegistry.nodes) later)⟩
        (.release database.name LockRegistry.nodes) ⟨share, .leaving alone reply (later ())⟩
        serial false
  /-- It gives another lock back. -/
  | unlock {share : Share} {alone : Bool} {reply : Reply} {resource : String}
      {later : Unit → Program Reply} :
      Move database world serial
        ⟨share, .leaving alone reply (.act (.release database.name resource) later)⟩
        (.release database.name resource) ⟨share, .leaving alone reply (later ())⟩ serial false
  /-- It leaves the gate. -/
  | leave {share : Share} {alone : Bool} {reply : Reply} {later : Unit → Program Reply} :
      Move database world serial
        ⟨share, .leaving alone reply (.act (.leave database.name alone) later)⟩
        (.leave database.name alone) ⟨⟨share.todo, share.replies ++ [reply]⟩, .outside⟩ serial
        false

/-- The turns that a thread takes in the serial world when it moves. -/
def turns (index : Nat) (takesEffect : Bool) : List Nat :=
  if takesEffect then [index] else []

/-- What a step of a thread leads to: the thread moves, the world is interleaved again, and the
thread has taken a turn in the serial world if its operation takes effect. -/
def Steps (database : Database) (guests : Nat) (world serial : World) (threads : List Thread)
    (index : Nat) (thread : Thread) (action : Action) (rest : Program (List Reply)) : Prop :=
  ∃ moved serial' takesEffect,
    Move database world serial thread action moved serial' takesEffect ∧
      moved.program database = rest ∧
      Interleaved database guests (world.perform action).2 serial' (threads.set index moved) ∧
      database.serveInTurns? (serial, threads.map Thread.settled) (turns index takesEffect) =
        some (serial', (threads.set index moved).map Thread.settled)

private theorem set_eq_self {α : Type} {items : List α} {item : α}
    (found : items[index]? = some item) : items.set index item = items := by
  obtain ⟨bound, rfl⟩ := List.getElem?_eq_some_iff.1 found
  exact List.set_getElem_self bound

variable {action : Action} {next : action.Answer → Program (List Reply)}

/-- A step that takes no turn in the serial world. -/
theorem quiet (interleaved : Interleaved database guests (world.perform action).2 serial
      (threads.set index moved))
    (found : threads[index]? = some thread)
    (move : Move database world serial thread action moved serial false)
    (same : moved.settled = thread.settled) :
    Steps database guests world serial threads index thread action (moved.program database) := by
  refine ⟨moved, serial, false, move, rfl, interleaved, ?_⟩
  have settled : (threads.map Thread.settled)[index]? = some thread.settled := by
    rw [List.getElem?_map, found, Option.map_some]
  rw [List.map_set, same, set_eq_self settled]
  rfl

/-- A step in which an operation takes effect as a whole. -/
theorem turn (operation : Operation) (share : Share)
    (interleaved : Interleaved database guests (world.perform action).2
      (serial.run (database.serve operation)).2 (threads.set index moved))
    (found : threads[index]? = some thread)
    (move : Move database world serial thread action moved
      (serial.run (database.serve operation)).2 true)
    (before : thread.settled = ⟨operation :: share.todo, share.replies⟩)
    (after : moved.settled =
      ⟨share.todo, share.replies ++ [(serial.run (database.serve operation)).1]⟩) :
    Steps database guests world serial threads index thread action (moved.program database) := by
  refine ⟨moved, _, true, move, rfl, interleaved, ?_⟩
  have settled : (threads.map Thread.settled)[index]? =
      some ⟨operation :: share.todo, share.replies⟩ := by
    rw [List.getElem?_map, found, Option.map_some, before]
  rw [List.map_set, after]
  simp only [turns, if_true, serveInTurns?, List.foldlM_cons, List.foldlM_nil, serveTurn?, settled]
  rfl

theorem step_outside (interleaved : Interleaved database guests world serial threads)
    {share : Share} (found : threads[index]? = some ⟨share, .outside⟩)
    (program : database.resume share = .act action next) (enabled : world.enabled action) :
    Steps database guests world serial threads index ⟨share, .outside⟩ action
      (next (world.perform action).1) := by
  obtain ⟨todo, replies⟩ := share
  cases todo with
  | nil =>
      rw [resume_nil] at program
      cases program
  | cons operation rest =>
      have writes := database.writes_serve
        (interleaved.writers found operation List.mem_cons_self)
      rw [resume_cons] at program
      cases serves : database.serve operation with
      | done reply =>
          rw [serves] at writes
          exact writes.elim
      | act first later =>
          rw [serves] at writes program
          obtain ⟨alone, rfl, waits⟩ := writes
          cases program
          have guarded : Guarded guests
              ((world.perform (.enter database.name alone)).2.gate database.name)
              ((world.registry database.name).isHeld LockRegistry.nodes)
              (threads.set index ⟨⟨rest, replies⟩, .waiting alone operation (later ())⟩) := by
            rw [World.perform, World.gate_changeGate]
            exact interleaved.guarded.enter found enabled
          have same : (world.perform (.enter database.name alone)).2.unlocked = world.unlocked := rfl
          have agrees : ∀ other : World,
              Program.AgreeOn other (later ()) (database.serve operation) := by
            intro other
            have same : other.unlocked =
              (other.perform (.enter database.name alone)).2.unlocked := rfl
            rw [serves]
            exact World.run_congr same (later ())
          have moves : Interleaved database guests
              (world.perform (.enter database.name alone)).2 serial
              (threads.set index ⟨⟨rest, replies⟩, .waiting alone operation (later ())⟩) :=
            interleaved.move found (fun _ => List.mem_cons_of_mem _)
              ⟨waits (), fun other _ => agrees other⟩
              (fun _ foundOther => interleaved.others_of_unlocked same rfl foundOther) guarded
              interleaved.unlocked
          exact moves.quiet found (.enter serves) rfl

/-- As long as a thread inside the gate is not working, nobody changes which transactions are
active. -/
theorem active_eq (interleaved : Interleaved database guests world serial threads)
    (found : threads[index]? = some thread) (idle : thread.stage.isWorking = false)
    (inside : thread.stage.isInside true ∨ thread.stage.isInside false) :
    serial.active = world.active := by
  have guarded := interleaved.guarded
  cases held : (world.registry database.name).isHeld LockRegistry.nodes with
  | false => exact (World.active_congr (interleaved.unlocked held)).symm
  | true =>
      have counted := guarded.working
      rw [held, Bool.toNat_true] at counted
      obtain ⟨worker, member, working⟩ := List.countP_pos_iff.1 (Nat.lt_of_sub_eq_succ counted)
      obtain ⟨other, foundOther⟩ := List.mem_iff_getElem?.1 member
      have differs : index ≠ other := by
        rintro rfl
        rw [found] at foundOther
        rw [Option.some.inj foundOther, working] at idle
        cases idle
      have follows := interleaved.follows foundOther
      obtain ⟨share, stage⟩ := worker
      cases stage with
      | working alone reply current =>
          cases alone with
          | true => exact absurd inside (guarded.outside_of_alone foundOther rfl found differs)
          | false =>
              obtain ⟨works, -, after⟩ := follows
              rw [← World.active_congr after]
              exact works.active_run world
      | _ => cases working

theorem step_waiting (interleaved : Interleaved database guests world serial threads)
    {share : Share} {alone : Bool} {operation : Operation} {current : Program Reply}
    (found : threads[index]? = some ⟨share, .waiting alone operation current⟩)
    (program : (Thread.mk share (.waiting alone operation current)).program database =
      .act action next) (enabled : world.enabled action) :
    Steps database guests world serial threads index ⟨share, .waiting alone operation current⟩
      action (next (world.perform action).1) := by
  obtain ⟨waits, agrees⟩ := interleaved.follows found
  cases current with
  | done reply => exact waits.elim
  | act first later =>
      cases program
      rcases waits with ⟨rfl, waits⟩ | ⟨rfl, works⟩ | ⟨rfl, ends⟩
      · -- The thread learns whether a transaction is active.
        have moves : Interleaved database guests world serial
            (threads.set index ⟨share, .waiting alone operation
              (later (world.active.contains database.name))⟩) := by
          refine interleaved.move found (fun _ member => member) ⟨waits _, fun other still => ?_⟩
            (fun _ foundOther => interleaved.follows foundOther)
            (interleaved.guarded.move found rfl rfl interleaved.guarded.exclusive rfl)
            interleaved.unlocked
          have agreesOther := agrees other still
          rw [← still]
          exact agreesOther
        exact moves.quiet found .ask rfl
      · -- The thread takes the lock of the nodes, and so its operation takes effect.
        have free : (world.registry database.name).isHeld LockRegistry.nodes = false := by
          simpa [World.enabled] using enabled
        have guarded := interleaved.guarded
        rw [free] at guarded
        obtain ⟨value, after⟩ := agrees world rfl
        obtain ⟨sameValue, sameAfter⟩ :=
          World.run_congr (interleaved.unlocked free) (database.serve operation)
        have taken : ((world.perform (.acquire database.name LockRegistry.nodes)).2.registry
            database.name).isHeld LockRegistry.nodes = true := by
          simp [World.perform, LockRegistry.isHeld_acquire]
        have moves : Interleaved database guests
            (world.perform (.acquire database.name LockRegistry.nodes)).2
            (serial.run (database.serve operation)).2
            (threads.set index ⟨share, .working alone
              (serial.run (database.serve operation)).1 (later ())⟩) := by
          refine interleaved.move found (fun _ member => member)
            ⟨works (), value.trans sameValue, after.trans sameAfter⟩
            (fun _ foundOther => (interleaved.follows foundOther).transport_of_idle
              (guarded.idle_of_free foundOther) fun _ => rfl) ?_ ?_
          · rw [taken]
            exact guarded.move found rfl rfl guarded.exclusive rfl
          · rw [taken]
            rintro ⟨⟩
        exact moves.turn operation share found .start rfl rfl
      · -- The thread leaves without work.
        obtain ⟨reply, ends⟩ := ends ()
        have active := interleaved.active_eq found rfl (by cases alone <;> simp [Stage.isInside])
        obtain ⟨value, after⟩ := agrees serial (by rw [active])
        have ran : serial.run (.act (.leave database.name alone) later) =
            (reply, (serial.perform (.leave database.name alone)).2) := by
          change (serial.perform (.leave database.name alone)).2.run (later ()) = _
          rw [ends]
          rfl
        rw [ran] at value after
        obtain rfl : reply = (serial.run (database.serve operation)).1 := value
        have moves : Interleaved database guests (world.perform (.leave database.name alone)).2
            (serial.run (database.serve operation)).2
            (threads.set index
              ⟨⟨share.todo, share.replies ++ [(serial.run (database.serve operation)).1]⟩, .outside⟩) := by
          have same : (world.perform (.leave database.name alone)).2.unlocked = world.unlocked := rfl
          refine interleaved.move found (fun _ member => member) trivial
            (fun _ foundOther => interleaved.others_of_unlocked same after.symm foundOther) ?_
            fun free => (interleaved.unlocked free).trans after
          rw [World.perform, World.gate_changeGate]
          exact interleaved.guarded.leave found (by simp [Stage.isInside]) rfl
        change Steps _ _ _ _ _ _ _ _ ((later ()).bind _)
        rw [ends]
        exact moves.turn operation share found .skip rfl rfl

theorem step_working (interleaved : Interleaved database guests world serial threads)
    {share : Share} {alone : Bool} {reply : Reply} {current : Program Reply}
    (found : threads[index]? = some ⟨share, .working alone reply current⟩)
    (program : (Thread.mk share (.working alone reply current)).program database =
      .act action next) :
    Steps database guests world serial threads index ⟨share, .working alone reply current⟩ action
      (next (world.perform action).1) := by
  obtain ⟨works, value, after⟩ := interleaved.follows found
  have guarded := interleaved.guarded
  have held := guarded.held_of_working found rfl
  have others : ∀ {other : Nat} {otherThread : Thread}, other ≠ index →
      threads[other]? = some otherThread → otherThread.stage.isWorking = false :=
    fun differs foundOther => guarded.idle_of_working found rfl foundOther differs
  cases current with
  | done reply => exact works.elim
  | act first later =>
      cases program
      rcases works with ⟨inner | ⟨resource, differs, rfl⟩, works⟩ | ⟨rfl, leaves⟩
      · -- The thread works.
        have moves : Interleaved database guests (world.perform action).2 serial
            (threads.set index ⟨share, .working alone reply (later (world.perform action).1)⟩) := by
          refine interleaved.move found (fun _ member => member) ⟨works _, value, after⟩
            (fun differs foundOther => (interleaved.follows foundOther).transport_of_idle
              (others differs foundOther) fun inside => ?_) ?_ ?_
          · cases alone with
            | false => rw [world.active_perform inner]
            | true => exact absurd inside (guarded.outside_of_alone found rfl foundOther differs)
          · rw [world.gate_perform inner, world.registry_perform inner]
            exact guarded.move found rfl rfl guarded.exclusive rfl
          · rw [world.registry_perform inner, held]
            rintro ⟨⟩
        exact moves.quiet found .work rfl
      · -- The thread takes another lock.
        have same : (world.perform (.acquire database.name resource)).2.unlocked =
          world.unlocked := rfl
        have still : ((world.perform (.acquire database.name resource)).2.registry
            database.name).isHeld LockRegistry.nodes = true := by
          simp [World.perform, LockRegistry.isHeld_acquire, held]
        have moves : Interleaved database guests
            (world.perform (.acquire database.name resource)).2 serial
            (threads.set index ⟨share, .working alone reply (later ())⟩) := by
          refine interleaved.move found (fun _ member => member) ⟨works _, value, after⟩
            (fun _ foundOther => interleaved.others_of_unlocked same rfl foundOther) ?_ ?_
          · rw [still, ← held]
            exact guarded.move found rfl rfl guarded.exclusive rfl
          · rw [still]
            rintro ⟨⟩
        exact moves.quiet found .work rfl
      · -- The thread gives the lock of the nodes back.
        obtain ⟨left, leaves⟩ := leaves ()
        obtain ⟨ranValue, ranAfter⟩ :=
          leaves.run (world.perform (.release database.name LockRegistry.nodes)).2
        obtain rfl : left = reply := ranValue.symm.trans value
        have same : (world.perform (.release database.name LockRegistry.nodes)).2.unlocked =
          world.unlocked := rfl
        have free : ((world.perform (.release database.name LockRegistry.nodes)).2.registry
            database.name).isHeld LockRegistry.nodes = false := by
          simp [World.perform, LockRegistry.isHeld_release]
        have moves : Interleaved database guests
            (world.perform (.release database.name LockRegistry.nodes)).2 serial
            (threads.set index ⟨share, .leaving alone left (later ())⟩) := by
          refine interleaved.move found (fun _ member => member) leaves
            (fun _ foundOther => interleaved.others_of_unlocked same rfl foundOther) ?_
            fun _ => ranAfter.symm.trans after
          rw [free]
          rw [held] at guarded
          exact guarded.move found rfl rfl guarded.exclusive rfl
        exact moves.quiet found .giveBack rfl

theorem step_leaving (interleaved : Interleaved database guests world serial threads)
    {share : Share} {alone : Bool} {reply : Reply} {current : Program Reply}
    (found : threads[index]? = some ⟨share, .leaving alone reply current⟩)
    (program : (Thread.mk share (.leaving alone reply current)).program database =
      .act action next) :
    Steps database guests world serial threads index ⟨share, .leaving alone reply current⟩ action
      (next (world.perform action).1) := by
  have leaves := interleaved.follows found
  have guarded := interleaved.guarded
  cases current with
  | done reply => exact leaves.elim
  | act first later =>
      cases program
      rcases leaves with ⟨⟨resource, differs, rfl⟩, leaves⟩ | ⟨rfl, ends⟩
      · -- The thread gives another lock back.
        have same : (world.perform (.release database.name resource)).2.unlocked =
          world.unlocked := rfl
        have still : ((world.perform (.release database.name resource)).2.registry
            database.name).isHeld LockRegistry.nodes =
              (world.registry database.name).isHeld LockRegistry.nodes := by
          simp [World.perform, LockRegistry.isHeld_release, Ne.symm differs]
        have moves : Interleaved database guests
            (world.perform (.release database.name resource)).2 serial
            (threads.set index ⟨share, .leaving alone reply (later ())⟩) := by
          refine interleaved.move found (fun _ member => member) (leaves ())
            (fun _ foundOther => interleaved.others_of_unlocked same rfl foundOther) ?_ ?_
          · rw [still]
            exact guarded.move found rfl rfl guarded.exclusive rfl
          · rw [still]
            exact interleaved.unlocked
        exact moves.quiet found .unlock rfl
      · -- The thread leaves the gate.
        have same : (world.perform (.leave database.name alone)).2.unlocked = world.unlocked := rfl
        have moves : Interleaved database guests (world.perform (.leave database.name alone)).2
            serial (threads.set index ⟨⟨share.todo, share.replies ++ [reply]⟩, .outside⟩) := by
          refine interleaved.move found (fun _ member => member) trivial
            (fun _ foundOther => interleaved.others_of_unlocked same rfl foundOther) ?_
            interleaved.unlocked
          rw [World.perform, World.gate_changeGate]
          exact guarded.leave found (by simp [Stage.isInside]) rfl
        change Steps _ _ _ _ _ _ _ _ ((later ()).bind _)
        rw [ends]
        exact moves.quiet found .leave rfl

/-- One step of a thread. -/
theorem step (interleaved : Interleaved database guests world serial threads)
    (found : threads[index]? = some thread) (program : thread.program database = .act action next)
    (enabled : world.enabled action) :
    Steps database guests world serial threads index thread action
      (next (world.perform action).1) := by
  obtain ⟨share, stage⟩ := thread
  cases stage with
  | outside => exact interleaved.step_outside found program enabled
  | waiting alone operation current => exact interleaved.step_waiting found program enabled
  | working alone reply current => exact interleaved.step_working found program
  | leaving alone reply current => exact interleaved.step_leaving found program

/-- Any number of steps. -/
theorem run (interleaved : Interleaved database guests world serial threads)
    {schedule : List Nat} {after : World} {programs : List (Program (List Reply))}
    (ran : world.interleave? (threads.map (Thread.program database)) schedule =
      some (after, programs)) :
    ∃ moved last order, programs = moved.map (Thread.program database) ∧
      Interleaved database guests after last moved ∧
        database.serveInTurns? (serial, threads.map Thread.settled) order =
          some (last, moved.map Thread.settled) := by
  induction schedule generalizing world serial threads with
  | nil =>
      cases ran
      exact ⟨threads, serial, [], rfl, interleaved, rfl⟩
  | cons index rest ih =>
      rw [World.interleave?] at ran
      cases turned : world.turn? (threads.map (Thread.program database)) index with
      | none => simp [turned] at ran
      | some state =>
          obtain ⟨action, next, found, enabled, rfl⟩ := World.turn?_eq_some turned
          rw [turned] at ran
          rw [List.getElem?_map, Option.map_eq_some_iff] at found
          obtain ⟨thread, found, program⟩ := found
          obtain ⟨moved, serial', takesEffect, -, rest_eq, interleavedNext, served⟩ :=
            interleaved.step found program enabled
          rw [← rest_eq, ← List.map_set] at ran
          obtain ⟨last, lastSerial, laterOrder, programs_eq, interleavedLast, servedLater⟩ :=
            ih interleavedNext ran
          refine ⟨last, lastSerial, turns index takesEffect ++ laterOrder, programs_eq, interleavedLast, ?_⟩
          rw [serveInTurns?_append served, servedLater]

/-- The world in which threads begin. -/
theorem start {world : World} {operations : List (List Operation)}
    (writers : ∀ todo ∈ operations, ∀ operation ∈ todo, operation.IsWriter)
    (opened : world.gate database.name = { together := guests })
    (free : (world.registry database.name).isHeld LockRegistry.nodes = false) :
    Interleaved database guests world world
      (operations.map fun todo => ⟨⟨todo, []⟩, .outside⟩) := by
  have starts : ∀ {index : Nat} {thread : Thread},
      (operations.map fun todo => Thread.mk ⟨todo, []⟩ .outside)[index]? = some thread →
        ∃ todo ∈ operations, thread = ⟨⟨todo, []⟩, .outside⟩ := by
    intro index thread found
    obtain ⟨todo, member, same⟩ := List.mem_map.1 (List.mem_of_getElem? found)
    exact ⟨todo, member, same.symm⟩
  refine ⟨fun found => ?_, fun found => ?_, ⟨?_, ?_, ?_, ?_⟩, fun _ => rfl⟩
  · obtain ⟨todo, member, rfl⟩ := starts found
    exact writers todo member
  · obtain ⟨todo, member, rfl⟩ := starts found
    trivial
  · simp [opened, List.countP_map, Function.comp_def]
  · simp [opened, List.countP_map, Function.comp_def]
  · simp [opened]
  · simp [free, List.countP_map, Function.comp_def]

/-- A thread that has come to its end has served its share. -/
theorem settled_of_done (interleaved : Interleaved database guests world serial threads)
    (found : threads[index]? = some thread) {replies : List Reply}
    (ended : thread.program database = .done replies) :
    thread.settled = ⟨[], replies⟩ ∧ thread.stage.isWorking = false := by
  have follows := interleaved.follows found
  obtain ⟨⟨todo, before⟩, stage⟩ := thread
  cases stage with
  | outside =>
      cases todo with
      | nil =>
          rw [Thread.program, resume_nil] at ended
          cases ended
          exact ⟨rfl, rfl⟩
      | cons operation rest =>
          have writes := database.writes_serve
            (interleaved.writers found operation List.mem_cons_self)
          rw [Thread.program, resume_cons] at ended
          cases serves : database.serve operation with
          | done reply =>
              rw [serves] at writes
              exact writes.elim
          | act action next =>
              rw [serves] at ended
              cases ended
  | waiting alone operation current =>
      cases current with
      | done reply => exact follows.1.elim
      | act action next => cases ended
  | working alone reply current =>
      cases current with
      | done reply => exact follows.1.elim
      | act action next => cases ended
  | leaving alone reply current =>
      cases current with
      | done reply => exact follows.elim
      | act action next => cases ended

/-- Threads that have come to their ends have served their shares, and the world is the one reached
with whole operations. -/
theorem finished (interleaved : Interleaved database guests world serial threads)
    {answers : List (List Reply)}
    (ended : threads.map (Thread.program database) = answers.map .done) :
    threads.map Thread.settled = answers.map (fun replies => ⟨[], replies⟩) ∧
      serial.unlocked = world.unlocked := by
  have settled : ∀ {index : Nat} {thread : Thread}, threads[index]? = some thread →
      ∃ replies, answers[index]? = some replies ∧ thread.settled = ⟨[], replies⟩ ∧
        thread.stage.isWorking = false := by
    intro index thread found
    have same := congrArg (fun programs => programs[index]?) ended
    simp only [List.getElem?_map, found, Option.map_some] at same
    obtain ⟨replies, answered, done⟩ := Option.map_eq_some_iff.1 same.symm
    exact ⟨replies, answered, interleaved.settled_of_done found done.symm⟩
  constructor
  · have lengths : answers.length = threads.length := by
      simpa using (congrArg List.length ended).symm
    refine List.ext_getElem? fun index => ?_
    rw [List.getElem?_map, List.getElem?_map]
    cases found : threads[index]? with
    | none =>
        have beyond : answers[index]? = none := by
          rw [List.getElem?_eq_none_iff] at found ⊢
          omega
        rw [beyond]
        rfl
    | some thread =>
        obtain ⟨replies, answered, same, -⟩ := settled found
        rw [answered, Option.map_some, Option.map_some, same]
  · have none : (threads.countP fun thread => thread.stage.isWorking) = 0 := by
      refine List.countP_eq_zero.2 fun thread member => ?_
      obtain ⟨index, found⟩ := List.mem_iff_getElem?.1 member
      obtain ⟨replies, -, -, idle⟩ := settled found
      simp [idle]
    have counted := interleaved.guarded.working
    rw [none] at counted
    exact (interleaved.unlocked (Bool.toNat_eq_zero.1 counted.symm)).symm

end Interleaved

/-! ## Serialisability -/

/-- Threads of writers that share a handle answer as if they had served their operations one at a
time in some order of turns, and leave the same disk. -/
theorem writers_serialisable {operations : List (List Operation)}
    (writers : ∀ todo ∈ operations, ∀ operation ∈ todo, operation.IsWriter)
    (opened : world.gate database.name = {})
    (free : (world.registry database.name).isHeld LockRegistry.nodes = false)
    {schedule : List Nat} {after : World} {answers : List (List Reply)}
    (ran : world.interleave? (operations.map database.serveAll) schedule =
      some (after, answers.map .done)) :
    ∃ order last,
      database.serveInTurns? (world, operations.map fun todo => ⟨todo, []⟩) order =
        some (last, answers.map fun replies => ⟨[], replies⟩) ∧
      last.unlocked = after.unlocked := by
  have interleaved := @Interleaved.start database 0 world operations writers opened free
  have programs : (operations.map fun todo => Thread.mk ⟨todo, []⟩ .outside).map
      (Thread.program database) = operations.map database.serveAll := by
    rw [List.map_map]
    refine List.map_congr_left fun todo _ => ?_
    exact Program.bind_done (database.serveAll todo)
  rw [← programs] at ran
  obtain ⟨moved, last, order, ended, interleavedLast, served⟩ := interleaved.run ran
  obtain ⟨shares, same⟩ := interleavedLast.finished ended.symm
  have whole : (operations.map fun todo => Thread.mk ⟨todo, []⟩ .outside).map Thread.settled =
      operations.map fun todo => ⟨todo, []⟩ := by
    rw [List.map_map]
    rfl
  rw [whole, shares] at served
  exact ⟨order, last, served, same⟩

/-- Two threads create a node each, and the second one waits for the locks of the first. -/
theorem writers_serialisable_of_two_creations :
    let operations : List (List Operation) :=
      [[.execute "CREATE (n:A)" true], [.execute "CREATE (n:B)" true]]
    let answers : List (List Reply) :=
      [[.executed (.ok ⟨"Node(s) created", [⟨Identifier.ofNumber 0, ["A"], .empty⟩], []⟩)],
        [.executed (.ok ⟨"Node(s) created", [⟨Identifier.ofNumber 1, ["B"], .empty⟩], []⟩)]]
    ∃ (database : Database) (world after last : World) (order : List Nat),
      world.interleave? (operations.map database.serveAll)
          [0, 1, 0, 1, 0, 0, 0, 0, 0, 0, 0, 1, 0, 1, 0, 1, 1, 1, 1, 1, 1, 1] =
        some (after, answers.map .done) ∧
      database.serveInTurns? (world, operations.map fun todo => ⟨todo, []⟩) order =
        some (last, answers.map fun replies => ⟨[], replies⟩) ∧
      last.unlocked = after.unlocked := by
  intro operations answers
  let world : World := { disk := .directory [("db", .emptyDirectory)] }
  let database : Database := ⟨.ofText "db", {}, .ofText "db", "transaction_temp", 2, "handle"⟩
  have ended : (world.interleave? (operations.map database.serveAll)
      [0, 1, 0, 1, 0, 0, 0, 0, 0, 0, 0, 1, 0, 1, 0, 1, 1, 1, 1, 1, 1, 1]).map
        (fun state => state.2.map Program.value?) = some (answers.map some) := by decide +kernel
  obtain ⟨after, ran⟩ := Program.exists_of_value? ended
  obtain ⟨order, last, served, same⟩ :=
    writers_serialisable (show ∀ todo ∈ operations, _ by decide +kernel) rfl rfl ran
  exact ⟨database, world, after, last, order, ran, served, same⟩

end Database
end GraphStore
