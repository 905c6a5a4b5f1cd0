import GraphStore.Proofs.Program.Runs
import GraphStore.Proofs.SortedMaps

/-!
# Sections under locks

A writer enters the gate of its handle and takes the lock of the nodes before every other lock.  It
gives that lock back as soon as its work is done, and only gives back other locks and leaves the
gate afterwards.  The predicates of this file follow a program through these stages; what a run of
the program does to the disk does not depend on locks and gates at all.
-/

namespace GraphStore

/-! ## Worlds without their locks -/

namespace World

variable {left right : World}

/-- A world without its locks and gates. -/
def unlocked (world : World) : World :=
  { world with registries := .empty, gates := .empty }

@[simp]
theorem unlocked_unlocked (world : World) : world.unlocked.unlocked = world.unlocked := rfl

@[simp]
theorem unlocked_changeRegistry (world : World) (name : String)
    (change : LockRegistry → LockRegistry) :
    (world.changeRegistry name change).unlocked = world.unlocked := rfl

@[simp]
theorem unlocked_changeGate (world : World) (handle : String) (change : Gate → Gate) :
    (world.changeGate handle change).unlocked = world.unlocked := rfl

theorem active_congr (same : left.unlocked = right.unlocked) : left.active = right.active := by
  have active := congrArg World.active same
  exact active

theorem disk_congr (same : left.unlocked = right.unlocked) : left.disk = right.disk := by
  have disk := congrArg World.disk same
  exact disk

theorem live_congr (same : left.unlocked = right.unlocked) : left.live = right.live := by
  have live := congrArg World.live same
  exact live

theorem process_congr (same : left.unlocked = right.unlocked) : left.process = right.process := by
  have process := congrArg World.process same
  exact process

theorem nextNumber_congr (same : left.unlocked = right.unlocked) :
    left.nextNumber = right.nextNumber := by
  have number := congrArg World.nextNumber same
  exact number

private theorem perform_unlocked (world : World) (action : Action) :
    (world.unlocked.perform action).1 = (world.perform action).1 ∧
      (world.unlocked.perform action).2.unlocked = (world.perform action).2.unlocked := by
  cases action <;>
    simp only [perform, onDisk, unlocked, changeRegistry, changeGate, and_self]

theorem perform_congr (same : left.unlocked = right.unlocked) (action : Action) :
    (left.perform action).1 = (right.perform action).1 ∧
      (left.perform action).2.unlocked = (right.perform action).2.unlocked := by
  obtain ⟨leftAnswer, leftAfter⟩ := left.perform_unlocked action
  obtain ⟨rightAnswer, rightAfter⟩ := right.perform_unlocked action
  rw [← leftAnswer, ← leftAfter, ← rightAnswer, ← rightAfter, same]
  exact ⟨rfl, rfl⟩

/-- Programs run alike on worlds that differ in locks and gates only. -/
theorem run_congr {α : Type} (same : left.unlocked = right.unlocked) (program : Program α) :
    (left.run program).1 = (right.run program).1 ∧
      (left.run program).2.unlocked = (right.run program).2.unlocked := by
  induction program generalizing left right with
  | done value => exact ⟨rfl, same⟩
  | act action next ih =>
      obtain ⟨answer, after⟩ := perform_congr same action
      simp only [run, answer]
      exact ih _ after

/-- A turn is an action that is enabled. -/
theorem turn?_eq_some {α : Type} {world : World} {programs : List (Program α)} {index : Nat}
    {state : World × List (Program α)} (turned : world.turn? programs index = some state) :
    ∃ action next, programs[index]? = some (.act action next) ∧ world.enabled action ∧
      state = ((world.perform action).2,
        programs.set index (next (world.perform action).1)) := by
  unfold turn? at turned
  split at turned
  · next action next found =>
      split at turned
      · next enabled => exact ⟨action, next, found, enabled, (Option.some.inj turned).symm⟩
      · cases turned
  · cases turned

end World

/-! ## Locks and gates -/

theorem LockRegistry.isHeld_acquire (registry : LockRegistry) (resource other : String) :
    (registry.acquire resource).isHeld other =
      (decide (other = resource) || registry.isHeld other) := by
  have registered : (registry.register resource).held = registry.held := by
    unfold register
    split <;> rfl
  simp only [acquire, isHeld, registered]
  by_cases held : registry.held.contains resource
  · rw [if_pos held, registered]
    by_cases same : other = resource
    · simpa [same] using held
    · simp [same]
  · rw [if_neg held]
    simp

theorem LockRegistry.isHeld_release (registry : LockRegistry) (resource other : String) :
    (registry.release resource).isHeld other =
      (decide (other ≠ resource) && registry.isHeld other) := by
  rw [Bool.eq_iff_iff]
  simp [release, isHeld, and_comm]

namespace World

@[simp]
theorem registry_changeRegistry (world : World) (name : String)
    (change : LockRegistry → LockRegistry) :
    (world.changeRegistry name change).registry name = change (world.registry name) := by
  rw [registry, changeRegistry, SortedMap.get?_insert, if_pos rfl, Option.getD_some]

@[simp]
theorem gate_changeRegistry (world : World) (name handle : String)
    (change : LockRegistry → LockRegistry) :
    (world.changeRegistry name change).gate handle = world.gate handle := rfl

@[simp]
theorem gate_changeGate (world : World) (handle : String) (change : Gate → Gate) :
    (world.changeGate handle change).gate handle = change (world.gate handle) := by
  rw [gate, changeGate, SortedMap.get?_insert, if_pos rfl, Option.getD_some]

@[simp]
theorem registry_changeGate (world : World) (name handle : String) (change : Gate → Gate) :
    (world.changeGate handle change).registry name = world.registry name := rfl

end World

/-! ## Stages -/

/-- Whether an action takes or gives back no lock and no gate.  One that changes whether a
transaction is active counts only if nobody else is inside the gate. -/
def Action.IsInner (alone : Bool) : Action → Prop
  | .acquire .. | .release .. | .enter .. | .leave .. => False
  | .setActive .. => alone = true
  | _ => True

/-- Whether an action asks or changes the disk, or draws a number. -/
def Action.IsOnDisk : Action → Prop
  | .read _ | .kind _ | .list _ | .makeDirectories _ | .replace .. | .rename .. | .removeFile _ |
    .removeDirectory _ | .removeAll _ | .fresh => True
  | _ => False

theorem Action.IsOnDisk.isInner {action : Action} (onDisk : action.IsOnDisk) (alone : Bool) :
    action.IsInner alone := by
  cases action <;> trivial

/-- Whether an action takes or gives back a lock or a gate. -/
def Action.IsLocking : Action → Prop
  | .acquire .. | .release .. | .enter .. | .leave .. => True
  | _ => False

namespace World

variable {action : Action} {alone : Bool}

theorem unlocked_perform (world : World) (locking : action.IsLocking) :
    (world.perform action).2.unlocked = world.unlocked := by
  cases action <;> first | exact locking.elim | rfl

/-- Inner actions leave locks and gates alone. -/
theorem locks_perform (world : World) (inner : action.IsInner alone) :
    (world.perform action).2.registries = world.registries ∧
      (world.perform action).2.gates = world.gates := by
  cases action <;> first | exact inner.elim | simp only [perform, onDisk, and_self]

theorem registry_perform (world : World) (inner : action.IsInner alone) (name : String) :
    (world.perform action).2.registry name = world.registry name := by
  rw [registry, (world.locks_perform inner).1, registry]

theorem gate_perform (world : World) (inner : action.IsInner alone) (handle : String) :
    (world.perform action).2.gate handle = world.gate handle := by
  rw [gate, (world.locks_perform inner).2, gate]

/-- Together with others no action changes whether a transaction is active. -/
theorem active_perform (world : World) (inner : action.IsInner false) :
    (world.perform action).2.active = world.active := by
  cases action <;>
    first | exact inner.elim | exact absurd inner Bool.false_ne_true | simp only [perform, onDisk]

end World

namespace Program

variable {α β ε : Type} {handle : String} {alone : Bool}

/-- Whether a program gives back locks other than that of the nodes, leaves the gate and ends with a
value. -/
def Leaves (handle : String) (alone : Bool) (value : α) : Program α → Prop
  | .done _ => False
  | .act action next =>
    (∃ resource, resource ≠ LockRegistry.nodes ∧ action = .release handle resource) ∧
        (∀ answer, (next answer).Leaves handle alone value) ∨
      action = .leave handle alone ∧ ∀ answer, next answer = .done value

/-- Whether a program works while it holds the lock of the nodes, gives this lock back once and
leaves. -/
def Works (handle : String) (alone : Bool) : Program α → Prop
  | .done _ => False
  | .act action next =>
    (action.IsInner alone ∨
        ∃ resource, resource ≠ LockRegistry.nodes ∧ action = .acquire handle resource) ∧
        (∀ answer, (next answer).Works handle alone) ∨
      action = .release handle LockRegistry.nodes ∧
        ∀ answer, ∃ value, (next answer).Leaves handle alone value

/-- Whether a program asks at most for the state of the transaction before it takes the lock of the
nodes and works, or leaves without work. -/
def Waits (handle : String) (alone : Bool) : Program α → Prop
  | .done _ => False
  | .act action next =>
    action = .isActive handle ∧ (∀ answer, (next answer).Waits handle alone) ∨
      action = .acquire handle LockRegistry.nodes ∧
        (∀ answer, (next answer).Works handle alone) ∨
      action = .leave handle alone ∧ ∀ answer, ∃ value, next answer = .done value

/-- Whether a program enters the gate of a handle, waits, works and leaves. -/
def Writes (handle : String) : Program α → Prop
  | .done _ => False
  | .act action next => ∃ alone, action = .enter handle alone ∧
      ∀ answer, (next answer).Waits handle alone

/-! ### Ends -/

/-- The value of a program that has come to its end. -/
def value? : Program α → Option α
  | .done value => some value
  | .act .. => none

theorem eq_done_of_value? {program : Program α} {value : α} (ended : program.value? = some value) :
    program = .done value := by
  cases program with
  | done other => exact congrArg done (Option.some.inj ended)
  | act action next => cases ended

/-- Programs that have come to their ends together. -/
theorem exists_of_value? {world : World} {programs : List (Program α)} {schedule : List Nat}
    {values : List α}
    (ended : (world.interleave? programs schedule).map (fun state => state.2.map value?) =
      some (values.map some)) :
    ∃ after, world.interleave? programs schedule = some (after, values.map .done) := by
  obtain ⟨⟨after, rest⟩, ran, same⟩ := Option.map_eq_some_iff.1 ended
  refine ⟨after, ran.trans (congrArg (fun rest => some (after, rest)) ?_)⟩
  clear ran ended
  simp only at same
  induction rest generalizing values with
  | nil =>
      rw [List.map_nil, eq_comm, List.map_eq_nil_iff] at same
      rw [same, List.map_nil]
  | cons program rest ih =>
      cases values with
      | nil => cases same
      | cons value values =>
          obtain ⟨first, later⟩ := List.cons.inj same
          rw [eq_done_of_value? first, ih later, List.map_cons]

/-! ### Runs -/

/-- Whether two programs run alike on a world, apart from locks and gates. -/
def AgreeOn (world : World) (left right : Program α) : Prop :=
  (world.run left).1 = (world.run right).1 ∧
    (world.run left).2.unlocked = (world.run right).2.unlocked

theorem Leaves.run {value : α} {program : Program α} (leaves : program.Leaves handle alone value)
    (world : World) :
    (world.run program).1 = value ∧ (world.run program).2.unlocked = world.unlocked := by
  induction program generalizing world with
  | done other => exact leaves.elim
  | act action next ih =>
      rcases leaves with ⟨⟨resource, -, rfl⟩, later⟩ | ⟨rfl, ends⟩
      · exact ih () (later ()) _
      · simp only [World.run, World.perform, ends, World.unlocked_changeGate, and_self]

/-- Who works together with others leaves it unchanged which transactions are active. -/
theorem Works.active_run {program : Program α} (works : program.Works handle false)
    (world : World) : (world.run program).2.active = world.active := by
  induction program generalizing world with
  | done other => exact works.elim
  | act action next ih =>
      rcases works with ⟨inner | ⟨resource, -, rfl⟩, later⟩ | ⟨rfl, later⟩
      · exact (ih _ (later _) _).trans (world.active_perform inner)
      · exact ih () (later ()) _
      · obtain ⟨value, leaves⟩ := later ()
        have same := (leaves.run (world.perform (.release handle LockRegistry.nodes)).2).2
        exact World.active_congr same

/-! ### Values -/

theorem Leaves.map {value : α} {program : Program α} (leaves : program.Leaves handle alone value)
    (change : α → β) : (change <$> program).Leaves handle alone (change value) := by
  rw [map_eq_pure_bind]
  change (program.bind fun value => .done (change value)).Leaves handle alone (change value)
  induction program with
  | done other => exact leaves
  | act action next ih =>
      rcases leaves with ⟨release, later⟩ | ⟨leave, ends⟩
      · exact .inl ⟨release, fun answer => ih answer (later answer)⟩
      · refine .inr ⟨leave, fun answer => ?_⟩
        simp only [ends answer, bind]

theorem Works.map {program : Program α} (works : program.Works handle alone) (change : α → β) :
    (change <$> program).Works handle alone := by
  rw [map_eq_pure_bind]
  change (program.bind fun value => .done (change value)).Works handle alone
  induction program with
  | done other => exact works
  | act action next ih =>
      rcases works with ⟨inner, later⟩ | ⟨release, later⟩
      · exact .inl ⟨inner, fun answer => ih answer (later answer)⟩
      · refine .inr ⟨release, fun answer => ?_⟩
        obtain ⟨value, leaves⟩ := later answer
        have changed := leaves.map change
        rw [map_eq_pure_bind] at changed
        exact ⟨change value, changed⟩

theorem Waits.map {program : Program α} (waits : program.Waits handle alone) (change : α → β) :
    (change <$> program).Waits handle alone := by
  rw [map_eq_pure_bind]
  change (program.bind fun value => .done (change value)).Waits handle alone
  induction program with
  | done other => exact waits
  | act action next ih =>
      rcases waits with ⟨ask, later⟩ | ⟨acquire, later⟩ | ⟨leave, ends⟩
      · exact .inl ⟨ask, fun answer => ih answer (later answer)⟩
      · refine .inr (.inl ⟨acquire, fun answer => ?_⟩)
        have changed := (later answer).map change
        rw [map_eq_pure_bind] at changed
        exact changed
      · refine .inr (.inr ⟨leave, fun answer => ?_⟩)
        obtain ⟨value, same⟩ := ends answer
        simp only [same, bind]
        exact ⟨change value, rfl⟩

theorem Writes.map {program : Program α} (writes : program.Writes handle) (change : α → β) :
    (change <$> program).Writes handle := by
  rw [map_eq_pure_bind]
  cases program with
  | done other => exact writes
  | act action next =>
      obtain ⟨alone, enter, later⟩ := writes
      refine ⟨alone, enter, fun answer => ?_⟩
      have changed := (later answer).map change
      rw [map_eq_pure_bind] at changed
      exact changed

/-! ### Locks and gates -/

theorem leaves_forM {resources : List String} (others : LockRegistry.nodes ∉ resources)
    {program : Program α} {value : α} (leaves : program.Leaves handle alone value) :
    ((resources.forM fun resource => perform (.release handle resource)) >>=
      fun _ => program).Leaves handle alone value := by
  induction resources with
  | nil => exact leaves
  | cons resource rest ih =>
      rw [List.mem_cons, not_or] at others
      exact .inl ⟨⟨resource, Ne.symm others.1, rfl⟩, fun _ => ih others.2⟩

theorem works_bind {program : Program α} {next : α → Program β}
    (uses : program.Uses (Action.IsInner alone)) (later : ∀ value, (next value).Works handle alone) :
    (program >>= next).Works handle alone := by
  change (program.bind next).Works handle alone
  induction program with
  | done value => exact later value
  | act action rest ih => exact .inl ⟨.inl uses.1, fun answer => ih answer (uses.2 answer)⟩

theorem works_forM {resources : List String} (others : LockRegistry.nodes ∉ resources)
    {program : Program α} (works : program.Works handle alone) :
    ((resources.forM fun resource => perform (.acquire handle resource)) >>=
      fun _ => program).Works handle alone := by
  induction resources with
  | nil => exact works
  | cons resource rest ih =>
      rw [List.mem_cons, not_or] at others
      exact .inl ⟨.inr ⟨resource, Ne.symm others.1, rfl⟩, fun _ => ih others.2⟩

end Program
end GraphStore
