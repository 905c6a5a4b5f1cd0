import Mathlib
import GraphStore.Program.World

/-!
# Runs of programs

A program can be run on any state that answers actions.  Running on a world is one case; the other
one used here is running on the few files that a statement may touch.  Two runs of a program agree
if the two states answer every action of the program alike and stay related.
-/

namespace GraphStore
namespace Program

variable {σ τ α β ε ε' : Type}

/-- Run a program to its end on a state that answers actions. -/
def runWith (perform : σ → (action : Action) → action.Answer × σ) (state : σ) :
    Program α → α × σ
  | .done value => (value, state)
  | .act action next =>
    runWith perform (perform state action).2 (next (perform state action).1)

theorem run_eq_runWith (world : World) (program : Program α) :
    world.run program = program.runWith World.perform world := by
  induction program generalizing world with
  | done value => rfl
  | act action next ih => exact ih _ _

section

variable (perform : σ → (action : Action) → action.Answer × σ) (state : σ)

@[simp]
theorem runWith_pure (value : α) :
    (pure value : Program α).runWith perform state = (value, state) := rfl

@[simp]
theorem runWith_perform (action : Action) :
    (Program.perform action).runWith perform state = perform state action := rfl

@[simp]
theorem runWith_bind (program : Program α) (next : α → Program β) :
    (program >>= next).runWith perform state =
      (next (program.runWith perform state).1).runWith perform
        (program.runWith perform state).2 := by
  change (program.bind next).runWith perform state = _
  induction program generalizing state with
  | done value => rfl
  | act action rest ih => exact ih _ _

@[simp]
theorem runWith_map (change : α → β) (program : Program α) :
    (change <$> program).runWith perform state =
      (change (program.runWith perform state).1, (program.runWith perform state).2) := by
  rw [map_eq_pure_bind, runWith_bind]
  rfl

end
end Program

/-! ## Tasks -/

instance decidableEqExcept {ε α : Type} [DecidableEq ε] [DecidableEq α] :
    DecidableEq (Except ε α)
  | .ok left, .ok right => decidable_of_iff (left = right) (by simp)
  | .error left, .error right => decidable_of_iff (left = right) (by simp)
  | .ok _, .error _ => isFalse (by simp)
  | .error _, .ok _ => isFalse (by simp)

namespace Task

variable {σ α β ε ε' : Type}

/-- Run a task to its end on a state that answers actions. -/
def runWith (perform : σ → (action : Action) → action.Answer × σ) (state : σ) (task : Task ε α) :
    Except ε α × σ :=
  Program.runWith perform state task.run

section

variable (perform : σ → (action : Action) → action.Answer × σ) (state : σ)

@[simp]
theorem runWith_run (task : Task ε α) :
    Program.runWith perform state task.run = task.runWith perform state := rfl

@[simp]
theorem runWith_pure (value : α) :
    Task.runWith perform state (pure value : Task ε α) = (.ok value, state) := rfl

@[simp]
theorem runWith_throw (error : ε) :
    Task.runWith perform state (throw error : Task ε α) = (.error error, state) := rfl

@[simp]
theorem runWith_mk_pure (result : Except ε α) :
    Task.runWith perform state (ExceptT.mk (pure result) : Task ε α) = (result, state) := rfl

@[simp]
theorem runWith_lift (program : Program α) :
    Task.runWith perform state (ExceptT.lift program : Task ε α) =
      (.ok (program.runWith perform state).1, (program.runWith perform state).2) := by
  change Program.runWith perform state (ExceptT.lift program : Task ε α).run = _
  rw [ExceptT.run_lift]
  exact Program.runWith_map perform state _ _

@[simp]
theorem runWith_perform (action : Action) :
    Task.runWith perform state (Task.perform action : Task ε action.Answer) =
      (.ok (perform state action).1, (perform state action).2) :=
  runWith_lift perform state _

theorem runWith_bind (task : Task ε α) (next : α → Task ε β) :
    Task.runWith perform state (task >>= next) =
      match task.runWith perform state with
      | (.ok value, state) => (next value).runWith perform state
      | (.error error, state) => (.error error, state) := by
  change Program.runWith perform state (task >>= next).run = _
  rw [ExceptT.run_bind, Program.runWith_bind, runWith_run]
  rcases task.runWith perform state with ⟨_ | value, after⟩ <;> rfl

@[simp]
theorem runWith_mapError (wrap : ε → ε') (task : Task ε α) :
    (task.mapError wrap).runWith perform state =
      ((task.runWith perform state).1.mapError wrap, (task.runWith perform state).2) :=
  Program.runWith_map perform state _ _

@[simp]
theorem runWith_ensuring (task : Task ε α) (afterwards : Program Unit) :
    (task.ensuring afterwards).runWith perform state =
      ((task.runWith perform state).1,
        (afterwards.runWith perform (task.runWith perform state).2).2) := by
  change Program.runWith perform state (task.run >>= fun result =>
    afterwards >>= fun _ => pure result) = _
  rw [Program.runWith_bind, Program.runWith_bind, runWith_run]
  rfl

variable {perform state}

/-- A task goes on after a part of it that succeeds. -/
theorem runWith_bind_of_ok {task : Task ε α} {value : α} {after : σ}
    (succeeds : task.runWith perform state = (.ok value, after)) (next : α → Task ε β) :
    Task.runWith perform state (task >>= next) = (next value).runWith perform after := by
  rw [runWith_bind, succeeds]

/-- A task ends with a part of it that fails. -/
theorem runWith_bind_of_error {task : Task ε α} {error : ε} {after : σ}
    (fails : task.runWith perform state = (.error error, after)) (next : α → Task ε β) :
    Task.runWith perform state (task >>= next) = (.error error, after) := by
  rw [runWith_bind, fails]

/-- A task that succeeds goes on after a part that succeeds. -/
theorem of_runWith_bind_eq_ok {task : Task ε α} {next : α → Task ε β} {value : β} {after : σ}
    (ran : Task.runWith perform state (task >>= next) = (.ok value, after)) :
    ∃ middle between, task.runWith perform state = (.ok middle, between) ∧
      (next middle).runWith perform between = (.ok value, after) := by
  rw [runWith_bind] at ran
  split at ran
  · next middle between first => exact ⟨middle, between, first, ran⟩
  · cases ran

theorem of_runWith_perform_eq_ok {action : Action} {answer : action.Answer} {after : σ}
    (ran : Task.runWith perform state (Task.perform action : Task ε action.Answer) =
      (.ok answer, after)) : perform state action = (answer, after) := by
  rw [runWith_perform] at ran
  obtain ⟨same, rfl⟩ := Prod.mk.inj ran
  rw [← Except.ok.inj same]

end
end Task

theorem World.of_onDisk_eq {α : Type} {world after : World} {change : Tree → α × Tree} {answer : α}
    (ran : world.onDisk change = (answer, after)) : change world.disk = (answer, after.disk) := by
  have same := congrArg (fun state => (state.1, state.2.disk)) ran
  exact same

/-! ## What runs keep -/

/-- A run goes on with the answer and the world after the first action. -/
theorem World.run_act {α : Type} (world : World) (action : Action)
    (next : action.Answer → Program α) :
    world.run (.act action next) =
      (world.perform action).2.run (next (world.perform action).1) := rfl

/-- What happens in a run does not change the number of the process. -/
theorem World.process_run {α : Type} (program : Program α) (world : World) :
    (world.run program).2.process = world.process := by
  induction program generalizing world with
  | done value => rfl
  | act action next ih =>
      rw [run_act, ih]
      cases action <;>
        simp only [perform, onDisk, changeRegistry, changeGate]

theorem World.eq_of_answer {α : Type} (ran : α × World) (value : α) (answers : ran.1 = value) :
    ran = (value, ran.2) :=
  Prod.ext answers rfl

/-- Numbers are drawn in order. -/
theorem World.nextNumber_le_run {α : Type} (program : Program α) (world : World) :
    world.nextNumber ≤ (world.run program).2.nextNumber := by
  induction program generalizing world with
  | done value => exact Nat.le_refl _
  | act action next ih =>
      rw [run_act]
      refine Nat.le_trans ?_ (ih _ _)
      cases action with
      | fresh => exact Nat.le_succ _
      | _ => simp only [perform, onDisk, changeRegistry, changeGate, le_refl]

/-! ## Restricted programs -/

namespace Program

variable {σ τ α β ε ε' : Type}

/-- Whether a program does only actions of some kind, whatever the answers are. -/
def Uses (allowed : Action → Prop) : Program α → Prop
  | .done _ => True
  | .act action next => allowed action ∧ ∀ answer, (next answer).Uses allowed

variable {allowed : Action → Prop}

theorem Uses.mono {program : Program α} {other : Action → Prop} (uses : program.Uses allowed)
    (weaker : ∀ {action}, allowed action → other action) : program.Uses other := by
  induction program with
  | done value => trivial
  | act action next ih => exact ⟨weaker uses.1, fun answer => ih answer (uses.2 answer)⟩

theorem uses_perform {action : Action} (permitted : allowed action) :
    (Program.perform action).Uses allowed :=
  ⟨permitted, fun _ => trivial⟩

theorem uses_bind {program : Program α} {next : α → Program β} (first : program.Uses allowed)
    (later : ∀ value, (next value).Uses allowed) : (program >>= next).Uses allowed := by
  change (program.bind next).Uses allowed
  induction program with
  | done value => exact later value
  | act action rest ih => exact ⟨first.1, fun answer => ih answer (first.2 answer)⟩

theorem uses_map {program : Program α} (change : α → β) (uses : program.Uses allowed) :
    (change <$> program).Uses allowed := by
  rw [map_eq_pure_bind]
  exact uses_bind uses fun _ => trivial

theorem uses_forM {γ : Type} {items : List γ} {body : γ → Program PUnit}
    (each : ∀ item, (body item).Uses allowed) : (items.forM body).Uses allowed := by
  induction items with
  | nil => trivial
  | cons item rest ih => exact uses_bind (each item) fun _ => ih

theorem uses_lift {program : Program α} (uses : program.Uses allowed) :
    Program.Uses allowed (ExceptT.lift program : Task ε α).run := by
  rw [ExceptT.run_lift]
  exact uses_map _ uses

theorem uses_taskBind {task : Task ε α} {next : α → Task ε β} (first : task.run.Uses allowed)
    (later : ∀ value, (next value).run.Uses allowed) : (task >>= next).run.Uses allowed := by
  rw [ExceptT.run_bind]
  refine uses_bind first fun result => ?_
  cases result with
  | error error => trivial
  | ok value => exact later value

theorem uses_mapError {task : Task ε α} (wrap : ε → ε') (uses : task.run.Uses allowed) :
    (task.mapError wrap).run.Uses allowed :=
  uses_map _ uses

theorem uses_ensuring {task : Task ε α} {afterwards : Program Unit}
    (uses : task.run.Uses allowed) (usesAfterwards : afterwards.Uses allowed) :
    (task.ensuring afterwards).run.Uses allowed :=
  uses_bind uses fun _ => uses_bind usesAfterwards fun _ => trivial

/-- Two states that answer the actions of a program alike and stay related give runs with equal
values. -/
theorem runWith_simulates {performLeft : σ → (action : Action) → action.Answer × σ}
    {performRight : τ → (action : Action) → action.Answer × τ} (related : σ → τ → Prop)
    (step : ∀ {left right action}, related left right → allowed action →
      (performLeft left action).1 = (performRight right action).1 ∧
        related (performLeft left action).2 (performRight right action).2)
    {program : Program α} (uses : program.Uses allowed) {left : σ} {right : τ}
    (start : related left right) :
    (program.runWith performLeft left).1 = (program.runWith performRight right).1 ∧
      related (program.runWith performLeft left).2 (program.runWith performRight right).2 := by
  induction program generalizing left right with
  | done value => exact ⟨rfl, start⟩
  | act action next ih =>
      obtain ⟨same, stays⟩ := step start uses.1
      simp only [runWith, same]
      exact ih _ (uses.2 _) stays

end Program
end GraphStore
