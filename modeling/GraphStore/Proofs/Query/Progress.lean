import GraphStore.Proofs.Program.Traces
import GraphStore.Proofs.Query.Maintenance
import GraphStore.Proofs.Query.Saves

/-!
# Progress of statements

The stores through which a statement passes.  Wherever it is stopped or fails, the files of the
nodes and of the relationships hold what they held, or the added nodes are saved, or a new
relationship is saved as well: never a relationship without the nodes that were added for it.
-/

namespace GraphStore

variable {α β ε : Type} {store : Store} {during : Store → Prop}

/-! ## Programs on stores -/

theorem Action.IsSilent.read_perform {action : Action} (silent : action.IsSilent) (store : Store) :
    (store.perform action).2.read = store.read := by
  cases action with
  | read | fresh | acquire | release | leave => rfl
  | _ => cases silent

namespace Program

/-- What writes no file passes through stores with the same files. -/
theorem passes_silent {program : Program α} (silent : program.Uses Action.IsSilent) :
    program.PassesWith Store.perform (fun reached => reached.read = store.read)
      (fun value reached => reached.read = store.read ∧
        program.runWith Store.perform store = (value, reached)) store :=
  (passesWith_of_uses (fun reached : Store => reached.read = store.read) silent
    (fun same silent => (silent.read_perform _).trans same) rfl).and_runWith

theorem passes_taskBind_silent {task : Task ε α} {next : α → Task ε β}
    {ends : Except ε β → Store → Prop} (silent : task.run.Uses Action.IsSilent)
    (here : ∀ {reached : Store}, reached.read = store.read → during reached)
    (later : ∀ {value reached}, reached.read = store.read →
      task.runWith Store.perform store = (.ok value, reached) →
        (next value).run.PassesWith Store.perform during ends reached)
    (fails : ∀ {error} {reached : Store}, reached.read = store.read → ends (.error error) reached) :
    (task >>= next).run.PassesWith Store.perform during ends store :=
  passes_taskBind ((passes_silent silent).mono here id) (fun ended => later ended.1 ended.2)
    fun ended => fails ended.1

end Program

/-- A file is replaced, or nothing is changed and the task fails. -/
theorem Document.passes_replace {directory : Path} {name : String} {content : Content}
    (here : during store) (there : during (store.put name content)) :
    (replace directory name content).run.PassesWith Store.perform during
      (fun result reached => result = .ok () ∧ reached = store.put name content ∨
        result ≠ .ok () ∧ reached = store) store := by
  have performed : store.perform (.replace directory name content) =
      (store.outcome name, if store.outcome name = .done then store.put name content else store) :=
    rfl
  change Program.PassesWith _ _ _ _ (Program.act _ _)
  simp only [Program.PassesWith, performed]
  cases store.outcome name with
  | done => exact ⟨there, .inl ⟨rfl, rfl⟩⟩
  | noDirectory | noFile => exact ⟨here, .inr ⟨by rintro ⟨⟩, rfl⟩⟩

namespace Query

/-- The statement that a text is.  A text that is none does as much as the creation of no nodes. -/
def statementOf (source : String) : Statement :=
  (parse source).toOption.getD (.createNodes [])

/-- The nodes that a statement creates unless there are nodes like them. -/
def Statement.newNodes : Statement → List NewNode
  | .createNodes patterns => patterns
  | .createRelationship start _ _ target => [start, target]
  | .createIndex .. | .matching _ => []

namespace Executor

variable {executor : Executor} {statement : Statement} {before reached : Store}

/-- Locks do not matter to what is said of files. -/
theorem passes_holding {registry : String} {resources : List String} {task : Task ε α}
    (congr : ∀ {reached other : Store}, other.read = reached.read → during reached → during other)
    (here : during store)
    (passes : ∀ {reached : Store}, reached.read = store.read →
      task.run.PassesWith Store.perform during (fun _ => during) reached) :
    (holding registry resources task).run.PassesWith Store.perform during (fun _ => during)
      store := by
  refine Program.passes_taskBind_silent
    (Program.uses_lift (Program.uses_forM fun _ => Program.uses_perform trivial))
    (fun same => congr same here) (fun same _ => ?_) fun same => congr same here
  refine Program.passes_bind ((passes same).mono id fun {result ended} kept => ?_)
  have silent : ((LockRegistry.collectionOrder resources).forM fun resource =>
      Program.perform (.release registry resource)).Uses Action.IsSilent :=
    Program.uses_forM fun _ => Program.uses_perform trivial
  exact Program.passes_bind ((Program.passes_silent silent).mono (fun same => congr same kept)
    fun released => congr released.1 kept)

/-! ## Progress -/

/-- What a store may have become while a statement is executed on it. -/
inductive Progress (executor : Executor) (store : Store) : Statement → Store → Prop
  /-- Nothing is written. -/
  | unchanged {statement : Statement} {reached : Store} (same : reached.read = store.read) :
      Progress executor store statement reached
  /-- The nodes are saved with the added ones, if there are any. -/
  | nodesSaved {statement : Statement} {nodes added : List Node} {reached : Store}
      (loaded : store.nodes executor.directory = .ok nodes)
      (areNew : AreNew statement.newNodes added)
      (same : reached.read = (executor.saveGrowth store nodes added).read) :
      Progress executor store statement reached
  /-- A relationship between saved nodes is saved after them. -/
  | relationshipSaved {start target : NewNode} {type : String} {properties : Properties}
      {nodes added : List Node} {relationships : List Relationship}
      {relationship : Relationship} {reached : Store}
      (loaded : store.nodes executor.directory = .ok nodes)
      (loadedRelationships : store.relationships executor.directory = .ok relationships)
      (areNew : AreNew [start, target] added)
      (startMember : relationship.startNode ∈ (nodes ++ added).map Node.id)
      (endMember : relationship.endNode ∈ (nodes ++ added).map Node.id)
      (ownProperties : relationship.properties = properties)
      (same : reached.read = (executor.saveRelationship (executor.saveGrowth store nodes added)
        relationships relationship).read) :
      Progress executor store (.createRelationship start type properties target) reached
  /-- The indexes are saved, after everything else. -/
  | indexesSaved {statement : Statement} {before reached : Store} {content : Content}
      (earlier : Progress executor store statement before)
      (writes : executor.maintainIndexes ∨ statement.indexed ≠ [])
      (same : reached.read = (before.put Collections.indexesFile content).read) :
      Progress executor store statement reached

theorem Progress.congr (progress : Progress executor store statement before)
    (same : reached.read = before.read) : Progress executor store statement reached := by
  cases progress with
  | unchanged kept => exact .unchanged (same.trans kept)
  | nodesSaved loaded areNew kept => exact .nodesSaved loaded areNew (same.trans kept)
  | relationshipSaved loaded loadedRelationships areNew startMember endMember own kept =>
      exact .relationshipSaved loaded loadedRelationships areNew startMember endMember own
        (same.trans kept)
  | indexesSaved earlier writes kept => exact .indexesSaved earlier writes (same.trans kept)

/-- The indexes are only written by a statement that creates one, or that maintains them. -/
theorem Progress.indexes (progress : Progress executor store statement reached)
    (unmaintained : executor.maintainIndexes = false) (noIndex : statement.indexed = []) :
    reached.read Collections.indexesFile = store.read Collections.indexesFile := by
  induction progress with
  | unchanged same => rw [same]
  | nodesSaved loaded areNew same => rw [same, indexes_saveGrowth]
  | relationshipSaved loaded loadedRelationships areNew startMember endMember own same =>
      rw [same, indexes_saveRelationship, indexes_saveGrowth]
  | indexesSaved earlier writes same ih =>
      rcases writes with maintains | indexes
      · rw [unmaintained] at maintains
        cases maintains
      · exact absurd noIndex indexes

/-- A file of indexes that can be read can be read all the way. -/
theorem Progress.indexes_eq_none (progress : Progress executor store statement reached)
    (none : (reached.read Collections.indexesFile).toOption = none) :
    (store.read Collections.indexesFile).toOption = .none := by
  induction progress with
  | unchanged same => rwa [same] at none
  | nodesSaved loaded areNew same => rwa [same, indexes_saveGrowth] at none
  | relationshipSaved loaded loadedRelationships areNew startMember endMember own same =>
      rwa [same, indexes_saveRelationship, indexes_saveGrowth] at none
  | indexesSaved earlier writes same ih =>
      rw [same, Store.read_put_self] at none
      cases none

/-- Whether a task makes progress with a statement all the way. -/
abbrev Advances (executor : Executor) (store : Store) (statement : Statement)
    (task : Task ε α) (reached : Store) : Prop :=
  task.run.PassesWith Store.perform (Progress executor store statement)
    (fun _ => Progress executor store statement) reached

theorem advances_maintain (progress : Progress executor store statement before)
    (added : List Node) :
    Advances executor store statement (executor.maintain added) before := by
  unfold maintain
  split
  · next maintains =>
      unfold Collections.indexNodes
      split
      · exact progress
      · refine Program.passes_taskBind_silent
          (Program.uses_lift (@Collections.loads_loadIndexes executor.directory).uses)
          progress.congr (fun {catalog loaded} same _ => ?_) progress.congr
        have here := progress.congr same
        split
        · refine (Document.passes_replace here (.indexesSaved here (.inl maintains) rfl)).mono id ?_
          rintro result reached (⟨-, rfl⟩ | ⟨-, rfl⟩)
          · exact .indexesSaved here (.inl maintains) rfl
          · exact here
        · exact here
  · exact progress

/-- As long as nothing is written, nothing is said of what comes next. -/
theorem advances_silent {task : Task ε α} {next : α → Task ε β}
    (silent : task.run.Uses Action.IsSilent) (same : before.read = store.read)
    (later : ∀ {value : α} {reached : Store}, reached.read = store.read →
      task.runWith Store.perform before = (.ok value, reached) →
        Advances executor store statement (next value) reached) :
    Advances executor store statement (task >>= next) before :=
  Program.passes_taskBind_silent silent (fun kept => .unchanged (kept.trans same))
    (fun kept ran => later (kept.trans same) ran) fun kept => .unchanged (kept.trans same)

theorem advances_loadNodes {next : List Node → Task StorageError α}
    (same : before.read = store.read)
    (later : ∀ {nodes : List Node} {reached : Store}, reached.read = store.read →
      store.nodes executor.directory = .ok nodes →
        Advances executor store statement (next nodes) reached) :
    Advances executor store statement (Collections.loadNodes executor.directory >>= next) before := by
  refine advances_silent (@Collections.loads_loadNodes executor.directory).uses same ?_
  intro nodes reached kept ran
  rw [Collections.runWith_loadNodes, Store.nodes_congr (congrFun same _)] at ran
  exact later kept (Prod.mk.inj ran).1

theorem advances_loadRelationships {next : List Relationship → Task StorageError α}
    (same : before.read = store.read)
    (later : ∀ {relationships : List Relationship} {reached : Store}, reached.read = store.read →
      store.relationships executor.directory = .ok relationships →
        Advances executor store statement (next relationships) reached) :
    Advances executor store statement
      (Collections.loadRelationships executor.directory >>= next) before := by
  refine advances_silent (@Collections.loads_loadRelationships executor.directory).uses same ?_
  intro relationships reached kept ran
  have loads : before.relationships executor.directory =
      store.relationships executor.directory := by
    rw [Store.relationships, same, Store.relationships]
  rw [Collections.runWith_loadRelationships, loads] at ran
  exact later kept (Prod.mk.inj ran).1

/-- The nodes are saved if some were added to the loaded ones. -/
theorem advances_saveGrowth {nodes added : List Node} {next other : Task StorageError α}
    (loaded : store.nodes executor.directory = .ok nodes)
    (areNew : AreNew statement.newNodes added) (same : before.read = store.read)
    (later : ∀ {reached : Store}, reached.read = (executor.saveGrowth store nodes added).read →
      Advances executor store statement next reached ∧
        Advances executor store statement other reached) :
    Advances executor store statement
      (if added ≠ [] then do
        Collections.saveNodes executor.directory executor.style (nodes ++ added)
        next
      else other) before := by
  split
  · next some =>
      have saved : (before.put Collections.nodesFile (.text ((Json.array
          ((nodes ++ added).map Node.toJson)).write executor.style))).read =
          (executor.saveGrowth store nodes added).read := by
        rw [saveGrowth, if_neg some]
        simp only [Store.put, same]
      refine Program.passes_taskBind (Document.passes_replace (.unchanged same)
        (.nodesSaved loaded areNew saved)) ?_ ?_
      · rintro ⟨⟩ reached (⟨-, rfl⟩ | ⟨fails, -⟩)
        · exact (later saved).1
        · exact absurd rfl fails
      · rintro error reached (⟨succeeds, -⟩ | ⟨-, rfl⟩)
        · cases succeeds
        · exact .unchanged same
  · next none =>
      refine (later ?_).2
      rw [same, saveGrowth, if_pos (not_not.1 none)]

theorem advances_createNodes (patterns : List NewNode) :
    Advances executor store (.createNodes patterns) (executor.createNodes patterns) store := by
  refine passes_holding (fun same progress => progress.congr same) (.unchanged rfl) fun same => ?_
  refine advances_loadNodes same fun {nodes reached} same loaded => ?_
  refine advances_silent (Program.uses_lift (uses_findOrCreateAll trivial _ _)) same
    fun {growth reached} same ran => ?_
  obtain ⟨added, grew, grows⟩ := runWith_findOrCreateAll _ ⟨nodes, []⟩ patterns
  have areNew := grows.areNew
  rw [Task.runWith_lift, grew] at ran
  obtain rfl : Growth.extend ⟨nodes, []⟩ added = growth := Except.ok.inj (Prod.mk.inj ran).1
  simp only [Growth.extend, List.nil_append]
  refine advances_saveGrowth loaded areNew same fun saved => ?_
  have progress : Progress executor store (.createNodes patterns) _ :=
    .nodesSaved loaded areNew saved
  exact ⟨Program.passes_taskBind (advances_maintain progress added) id id, progress⟩

/-- The relationship is saved after its nodes. -/
theorem advances_saveRelationship {start target : NewNode} {type : String} {properties : Properties}
    {nodes added : List Node} {relationships : List Relationship} {relationship : Relationship}
    (answer : Answer) (loaded : store.nodes executor.directory = .ok nodes)
    (loadedRelationships : store.relationships executor.directory = .ok relationships)
    (areNew : AreNew [start, target] added)
    (startMember : relationship.startNode ∈ (nodes ++ added).map Node.id)
    (endMember : relationship.endNode ∈ (nodes ++ added).map Node.id)
    (ownProperties : relationship.properties = properties)
    (same : before.read = (executor.saveGrowth store nodes added).read) :
    Advances executor store (.createRelationship start type properties target) (do
      Collections.saveRelationships executor.directory executor.style
        (relationships ++ [relationship])
      executor.maintain added
      pure answer) before := by
  have here : Progress executor store (.createRelationship start type properties target) before :=
    .nodesSaved loaded areNew same
  have there : Progress executor store (.createRelationship start type properties target)
      (before.put Collections.relationshipsFile (.text ((Json.array
        ((relationships ++ [relationship]).map Relationship.toJson)).write executor.style))) := by
    refine .relationshipSaved loaded loadedRelationships areNew startMember endMember
      ownProperties ?_
    simp only [saveRelationship, Store.put, same]
  refine Program.passes_taskBind (Document.passes_replace here there) ?_ ?_
  · rintro ⟨⟩ reached (⟨-, rfl⟩ | ⟨fails, -⟩)
    · exact Program.passes_taskBind (advances_maintain there _) (fun progress => progress)
        fun progress => progress
    · exact absurd rfl fails
  · rintro error reached (⟨succeeds, -⟩ | ⟨-, rfl⟩)
    · cases succeeds
    · exact here

theorem advances_createRelationship (start : NewNode) (type : String) (properties : Properties)
    (target : NewNode) :
    Advances executor store (.createRelationship start type properties target)
      (executor.createRelationship start type properties target) store := by
  refine passes_holding (fun same progress => progress.congr same) (.unchanged rfl) fun same => ?_
  refine advances_loadNodes same fun {nodes reached} same loaded => ?_
  refine advances_loadRelationships same fun {relationships reached} same loadedRelationships => ?_
  refine advances_silent (Program.uses_lift (uses_findOrCreate trivial _ _)) same
    fun {found reached} same ran => ?_
  obtain ⟨startNode, first, grew, startStands⟩ := runWith_findOrCreate _ ⟨nodes, []⟩ start
  rw [Task.runWith_lift, grew] at ran
  obtain rfl : (startNode, Growth.extend ⟨nodes, []⟩ first) = found :=
    Except.ok.inj (Prod.mk.inj ran).1
  refine advances_silent (Program.uses_lift (uses_findOrCreate trivial _ _)) same
    fun {found reached} same ran => ?_
  obtain ⟨endNode, second, grew, endStands⟩ :=
    runWith_findOrCreate _ (Growth.extend ⟨nodes, []⟩ first) target
  rw [Task.runWith_lift, grew] at ran
  obtain rfl : (endNode, (Growth.extend ⟨nodes, []⟩ first).extend second) = found :=
    Except.ok.inj (Prod.mk.inj ran).1
  refine advances_silent (Program.uses_lift (Program.uses_perform trivial)) same
    fun {number reached} same _ => ?_
  have areNew : AreNew [start, target] (first ++ second) :=
    startStands.areNew.append endStands.areNew
  have startMember : startNode ∈ nodes ++ (first ++ second) := by
    rw [← List.append_assoc]
    exact List.mem_append_left second startStands.mem
  have endMember := endStands.mem
  simp only [Growth.extend, List.nil_append, List.append_assoc] at endMember ⊢
  refine advances_saveGrowth loaded areNew same fun {saved} same => ?_
  constructor <;>
    exact advances_saveRelationship _ loaded loadedRelationships areNew
      (List.mem_map_of_mem startMember) (List.mem_map_of_mem endMember) rfl same

theorem advances_createIndex (label property : String) :
    Advances executor store (.createIndex label property)
      (executor.createIndex label property) store := by
  refine passes_holding (fun same progress => progress.congr same) (.unchanged rfl) fun same => ?_
  refine advances_loadNodes same fun {nodes reached} same loaded => ?_
  refine advances_silent
    (Program.uses_lift (@Collections.loads_loadIndexes executor.directory).uses) same
    fun {catalog loadedStore} same _ => ?_
  have here : Progress executor store (.createIndex label property) loadedStore := .unchanged same
  have there : ∀ content, Progress executor store (.createIndex label property)
      (loadedStore.put Collections.indexesFile content) := fun content =>
    .indexesSaved here (.inr (by simp [Statement.indexed])) rfl
  refine Program.passes_taskBind (Document.passes_replace here (there _)) ?_ ?_
  · rintro ⟨⟩ reached (⟨-, rfl⟩ | ⟨fails, -⟩)
    · exact there _
    · exact absurd rfl fails
  · rintro error reached (⟨succeeds, -⟩ | ⟨-, rfl⟩)
    · cases succeeds
    · exact here

/-- A statement makes progress all the way, whether or not a file can be replaced. -/
theorem advances_executeStatement (statement : Statement) (useIndex : Bool) :
    Advances executor store statement (executor.executeStatement statement useIndex) store := by
  unfold executeStatement
  cases statement with
  | createNodes patterns => exact Program.passes_mapError (advances_createNodes patterns)
  | createRelationship start type properties target =>
      exact Program.passes_mapError (advances_createRelationship start type properties target)
  | createIndex label property =>
      have created : Advances executor store (.createIndex label property)
          (Task.mapError ExecutionError.storage (executor.createIndex label property)) store :=
        Program.passes_mapError (advances_createIndex label property)
      exact Program.passes_taskBind created (fun progress => progress) fun progress => progress
  | matching query =>
      exact (Program.passes_silent (executor.loads_executeMatch query useIndex).uses).mono
        .unchanged fun ended => .unchanged ended.1

theorem advances_execute (source : String) (useIndex : Bool) :
    Advances executor store (statementOf source) (executor.execute source useIndex) store := by
  unfold execute statementOf
  cases parse source with
  | error error => exact .unchanged rfl
  | ok statement => exact advances_executeStatement statement useIndex

end Executor
end Query
end GraphStore
