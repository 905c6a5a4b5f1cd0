import GraphStore.Proofs.Program.Runs

/-!
# Traces of programs

A program passes through the states after each of its actions.  What is said of all of them holds
wherever the program is stopped.
-/

namespace GraphStore
namespace Program

variable {σ τ α β ε ε' : Type}

/-- Whether a program, started in a state, passes only through states of some kind and ends with a
value and a state that belong together. -/
def PassesWith (perform : σ → (action : Action) → action.Answer × σ) (during : σ → Prop)
    (ends : α → σ → Prop) (state : σ) : Program α → Prop
  | .done value => ends value state
  | .act action next =>
    during (perform state action).2 ∧
      (next (perform state action).1).PassesWith perform during ends (perform state action).2

/-- Whether a program passes only through worlds of some kind and ends as told. -/
abbrev Passes (during : World → Prop) (ends : α → World → Prop) (world : World)
    (program : Program α) : Prop :=
  program.PassesWith World.perform during ends world

section

variable {perform : σ → (action : Action) → action.Answer × σ} {during : σ → Prop}
  {ends : α → σ → Prop} {state : σ}

theorem PassesWith.runWith {program : Program α}
    (passes : program.PassesWith perform during ends state) :
    ends (program.runWith perform state).1 (program.runWith perform state).2 := by
  induction program generalizing state with
  | done value => exact passes
  | act action next ih => exact ih _ passes.2

theorem PassesWith.mono {program : Program α} {during' : σ → Prop} {ends' : α → σ → Prop}
    (passes : program.PassesWith perform during ends state)
    (weaker : ∀ {state}, during state → during' state)
    (weakerEnds : ∀ {value state}, ends value state → ends' value state) :
    program.PassesWith perform during' ends' state := by
  induction program generalizing state with
  | done value => exact weakerEnds passes
  | act action next ih => exact ⟨weaker passes.1, ih _ passes.2⟩

/-- The value and the state with which a program ends are those of its run. -/
theorem PassesWith.and_runWith {program : Program α}
    (passes : program.PassesWith perform during ends state) :
    program.PassesWith perform during (fun value after => ends value after ∧
      program.runWith perform state = (value, after)) state := by
  induction program generalizing state with
  | done value => exact ⟨passes, rfl⟩
  | act action next ih => exact ⟨passes.1, ih _ passes.2⟩

theorem PassesWith.and {program : Program α} {during' : σ → Prop} {ends' : α → σ → Prop}
    (passes : program.PassesWith perform during ends state)
    (passes' : program.PassesWith perform during' ends' state) :
    program.PassesWith perform (fun state => during state ∧ during' state)
      (fun value state => ends value state ∧ ends' value state) state := by
  induction program generalizing state with
  | done value => exact ⟨passes, passes'⟩
  | act action next ih => exact ⟨⟨passes.1, passes'.1⟩, ih _ passes.2 passes'.2⟩

/-- What holds at the start and all the way holds at the end. -/
theorem PassesWith.keeps {program : Program α}
    (passes : program.PassesWith perform during ends state) (start : during state) :
    program.PassesWith perform during (fun value after => ends value after ∧ during after)
      state := by
  induction program generalizing state with
  | done value => exact ⟨passes, start⟩
  | act action next ih => exact ⟨passes.1, ih _ passes.2 passes.1⟩

/-- A program passes through states that stand for those through which it passes elsewhere. -/
theorem PassesWith.simulates {performThere : τ → (action : Action) → action.Answer × τ}
    (related : τ → σ → Prop) {allowed : Action → Prop}
    (step : ∀ {there here action}, related there here → allowed action →
      (performThere there action).1 = (perform here action).1 ∧
        related (performThere there action).2 (perform here action).2)
    {program : Program α} (uses : program.Uses allowed)
    (passes : program.PassesWith perform during ends state) {there : τ}
    (start : related there state) :
    program.PassesWith performThere (fun there => ∃ state, during state ∧ related there state)
      (fun value there => ∃ state, ends value state ∧ related there state) there := by
  induction program generalizing state there with
  | done value => exact ⟨state, passes, start⟩
  | act action next ih =>
      obtain ⟨same, stays⟩ := step start uses.1
      rw [PassesWith, same]
      exact ⟨⟨_, passes.1, stays⟩, ih _ (uses.2 _) passes.2 stays⟩

theorem passes_bind {program : Program α} {next : α → Program β} {ends : β → σ → Prop}
    (passes : program.PassesWith perform during
      (fun value state => (next value).PassesWith perform during ends state) state) :
    (program >>= next).PassesWith perform during ends state := by
  change (program.bind next).PassesWith perform during ends state
  induction program generalizing state with
  | done value => exact passes
  | act action rest ih => exact ⟨passes.1, ih _ passes.2⟩

theorem passes_map {program : Program α} {change : α → β} {ends : β → σ → Prop}
    (passes : program.PassesWith perform during (fun value state => ends (change value) state)
      state) : (change <$> program).PassesWith perform during ends state := by
  rw [map_eq_pure_bind]
  exact passes_bind passes

theorem PassesWith.of_map {program : Program α} {change : α → β} {ends : β → σ → Prop}
    (passes : (change <$> program).PassesWith perform during ends state) :
    program.PassesWith perform during (fun value state => ends (change value) state) state := by
  rw [map_eq_pure_bind] at passes
  change (program.bind fun value => pure (change value)).PassesWith perform during ends state
    at passes
  induction program generalizing state with
  | done value => exact passes
  | act action next ih => exact ⟨passes.1, ih _ passes.2⟩

theorem passes_lift {program : Program α} {next : α → Task ε β} {ends : Except ε β → σ → Prop}
    (passes : program.PassesWith perform during
      (fun value state => (next value).run.PassesWith perform during ends state) state) :
    ((ExceptT.lift program : Task ε α) >>= next).run.PassesWith perform during ends state := by
  rw [ExceptT.run_bind_lift]
  exact passes_bind passes

theorem passes_taskBind {task : Task ε α} {next : α → Task ε β} {ends : Except ε β → σ → Prop}
    {middle : Except ε α → σ → Prop} (passes : task.run.PassesWith perform during middle state)
    (later : ∀ {value state}, middle (.ok value) state →
      (next value).run.PassesWith perform during ends state)
    (fails : ∀ {error state}, middle (.error error) state → ends (.error error) state) :
    (task >>= next).run.PassesWith perform during ends state := by
  rw [ExceptT.run_bind]
  refine passes_bind (passes.mono id fun {result state} reached => ?_)
  cases result with
  | ok value => exact later reached
  | error error => exact fails reached

theorem passes_mapError {task : Task ε α} {wrap : ε → ε'} {ends : Except ε' α → σ → Prop}
    (passes : task.run.PassesWith perform during
      (fun result state => ends (result.mapError wrap) state) state) :
    (task.mapError wrap).run.PassesWith perform during ends state :=
  passes_map passes

/-- What every action of a program keeps holds all the way. -/
theorem passesWith_of_uses (holds : σ → Prop) {allowed : Action → Prop} {program : Program α}
    (uses : program.Uses allowed)
    (keeps : ∀ {state action}, holds state → allowed action → holds (perform state action).2)
    (start : holds state) : program.PassesWith perform holds (fun _ => holds) state := by
  induction program generalizing state with
  | done value => exact start
  | act action next ih =>
      have reached := keeps start uses.1
      exact ⟨reached, ih _ (uses.2 _) reached⟩

end

/-! ## Worlds -/

variable {during : World → Prop} {ends : α → World → Prop} {world : World}

theorem passes_of_uses (holds : World → Prop) {allowed : Action → Prop} {program : Program α}
    (uses : program.Uses allowed)
    (keeps : ∀ {world action}, holds world → allowed action → holds (world.perform action).2)
    (start : holds world) : program.Passes holds (fun _ => holds) world :=
  passesWith_of_uses holds uses keeps start

theorem PassesWith.run {program : Program α} (passes : program.Passes during ends world) :
    ends (world.run program).1 (world.run program).2 := by
  rw [run_eq_runWith]
  exact passes.runWith

theorem PassesWith.trace {program : Program α} (passes : program.Passes during ends world) :
    ∀ stopped ∈ world.trace program, during stopped := by
  induction program generalizing world with
  | done value =>
      intro stopped member
      cases member
  | act action next ih =>
      intro stopped member
      rcases List.mem_cons.1 member with rfl | later
      · exact passes.1
      · exact ih _ passes.2 stopped later

theorem PassesWith.and_run {program : Program α} (passes : program.Passes during ends world) :
    program.Passes during
      (fun value after => ends value after ∧ value = (world.run program).1) world := by
  refine passes.and_runWith.mono id ?_
  rintro value after ⟨ended, ran⟩
  rw [run_eq_runWith, ran]
  exact ⟨ended, rfl⟩

end Program
end GraphStore
