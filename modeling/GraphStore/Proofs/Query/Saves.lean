import GraphStore.Proofs.Disk.Directories
import GraphStore.Proofs.Transaction.Writers

/-!
# The order of loads and saves

A match loads the indexes, the nodes and the relationships in this order, each at most once.  A
creation saves the nodes, the relationships and the indexes in this order, each at most once.
-/

namespace GraphStore

/-- What reading a collection of a directory answers. -/
def World.reading (world : World) (directory : Path) (name : String) : Except Fault Content :=
  world.disk.readAt (directory.child name)

/-- The store whose files answer what is given. -/
def Store.ofReading (reading : String → Except Fault Content) : Store where
  read := reading
  nextNumber := 0

/-- Whether an action changes neither the disk nor the state of transactions. -/
def Action.IsSilent : Action → Prop
  | .read _ | .fresh | .acquire .. | .release .. | .leave .. => True
  | _ => False

theorem Action.IsSilent.disk_perform {action : Action} (silent : action.IsSilent) (world : World) :
    (world.perform action).2.disk = world.disk := by
  cases action <;>
    first | exact silent.elim | simp only [World.perform, World.changeRegistry, World.changeGate]

theorem Action.IsSilent.active_perform {action : Action} (silent : action.IsSilent)
    (world : World) : (world.perform action).2.active = world.active := by
  cases action <;>
    first | exact silent.elim | simp only [World.perform, World.changeRegistry, World.changeGate]

namespace Program

variable {α β γ ε : Type} {directory : Path} {files more : List String}

/-- Whether a program only loads files of a directory, in a given order and each at most once. -/
def Loads (directory : Path) : List String → Program α → Prop
  | _, .done _ => True
  | files, .act action next => ∃ name rest, name :: rest <:+ files ∧
      action = .read (directory.child name) ∧ ∀ answer, (next answer).Loads directory rest

/-- Whether a program saves files of a directory in a given order and each at most once, and does
nothing else that changes the disk. -/
def Saves (directory : Path) : List String → Program α → Prop
  | _, .done _ => True
  | files, .act action next =>
    (∃ name rest content, name :: rest <:+ files ∧ action = .replace directory name content ∧
        ∀ answer, (next answer).Saves directory rest) ∨
      action.IsSilent ∧ ∀ answer, (next answer).Saves directory files

/-- Whether a program takes the lock of the nodes and then saves collections of a directory. -/
def Takes (registry : String) (directory : Path) (program : Program α) : Prop :=
  ∃ later : Unit → Program α, program = .act (.acquire registry LockRegistry.nodes) later ∧
    (later ()).Saves directory Collections.files

/-- Whether a program asks for the state of the transaction and then takes the lock of the nodes to
save collections of the directory that goes with the answer. -/
def Asks (handle : String) (target : Bool → Path) (program : Program α) : Prop :=
  ∃ later : Bool → Program α, program = .act (.isActive handle) later ∧
    ∀ active, (later active).Takes handle (target active)

/-- Whether a program enters the gate of a handle together with others, and then saves collections
of the current target under the lock of the nodes. -/
def Creates (handle : String) (target : Bool → Path) (program : Program α) : Prop :=
  ∃ later : Unit → Program α, program = .act (.enter handle false) later ∧
    (later ()).Asks handle target

theorem Loads.mono {program : Program α} (loads : program.Loads directory files)
    (isSuffix : files <:+ more) : program.Loads directory more := by
  cases program with
  | done value => trivial
  | act action next =>
      obtain ⟨name, rest, first, read, later⟩ := loads
      exact ⟨name, rest, first.trans isSuffix, read, later⟩

theorem Loads.uses {program : Program α} (loads : program.Loads directory files) :
    program.Uses Action.IsSilent := by
  induction program generalizing files with
  | done value => trivial
  | act action next ih =>
      obtain ⟨name, rest, -, rfl, later⟩ := loads
      exact ⟨trivial, fun answer => ih answer (later answer)⟩

/-- What a program that loads files answers depends on these files only. -/
theorem Loads.run {program : Program α} (loads : program.Loads directory files) {world : World}
    {store : Store} (reads : ∀ name ∈ files, store.read name = world.reading directory name) :
    (world.run program).1 = (program.runWith Store.perform store).1 := by
  induction program generalizing files with
  | done value => rfl
  | act action next ih =>
      obtain ⟨name, rest, isSuffix, rfl, later⟩ := loads
      have here := reads name (isSuffix.subset List.mem_cons_self)
      simp only [World.run, World.perform, runWith, Store.perform, Path.entryName_child, here]
      exact ih _ (later _) fun other member =>
        reads other (isSuffix.subset (List.mem_cons_of_mem name member))

/-- Who saves files leaves it unchanged which transactions are active. -/
theorem Saves.active_run {program : Program α} (saves : program.Saves directory files)
    (world : World) : (world.run program).2.active = world.active := by
  induction program generalizing world files with
  | done value => rfl
  | act action next ih =>
      rw [World.run_act]
      rcases saves with ⟨name, rest, content, -, rfl, later⟩ | ⟨silent, later⟩
      · rw [ih _ (later _) _]
        simp only [World.perform, World.onDisk]
      · rw [ih _ (later _) _, silent.active_perform world]

theorem Saves.mono {program : Program α} (saves : program.Saves directory files)
    (isSuffix : files <:+ more) : program.Saves directory more := by
  induction program with
  | done value => trivial
  | act action next ih =>
      rcases saves with ⟨name, rest, content, first, replace, later⟩ | ⟨silent, later⟩
      · exact .inl ⟨name, rest, content, first.trans isSuffix, replace, later⟩
      · exact .inr ⟨silent, fun answer => ih answer (later answer)⟩

/-! ## Composition -/

theorem loads_bind (more : List String) {program : Program α} {next : α → Program β}
    (loads : program.Loads directory files) (later : ∀ value, (next value).Loads directory more) :
    (program >>= next).Loads directory (files ++ more) := by
  change (program.bind next).Loads directory (files ++ more)
  induction program generalizing files with
  | done value => exact (later value).mono (List.suffix_append files more)
  | act action rest ih =>
      obtain ⟨name, others, isSuffix, read, loadsRest⟩ := loads
      exact ⟨name, others ++ more, List.suffix_append_self_iff.2 isSuffix, read,
        fun answer => ih answer (loadsRest answer)⟩

theorem loads_map {program : Program α} (change : α → β) (loads : program.Loads directory files) :
    (change <$> program).Loads directory files := by
  rw [map_eq_pure_bind, ← files.append_nil]
  exact loads_bind [] loads fun _ => trivial

theorem loads_lift {program : Program α} (loads : program.Loads directory files) :
    Program.Loads directory files (ExceptT.lift program : Task ε α).run := by
  rw [ExceptT.run_lift]
  exact loads_map _ loads

theorem loads_taskBind (more : List String) {task : Task ε α} {next : α → Task ε β}
    (loads : task.run.Loads directory files)
    (later : ∀ value, (next value).run.Loads directory more) :
    (task >>= next).run.Loads directory (files ++ more) := by
  rw [ExceptT.run_bind]
  refine loads_bind more loads fun result => ?_
  cases result with
  | ok value => exact later value
  | error error => trivial

theorem saves_bind {program : Program α} {next : α → Program β}
    (silent : program.Uses Action.IsSilent) (later : ∀ value, (next value).Saves directory files) :
    (program >>= next).Saves directory files := by
  change (program.bind next).Saves directory files
  induction program with
  | done value => exact later value
  | act action rest ih => exact .inr ⟨silent.1, fun answer => ih answer (silent.2 answer)⟩

theorem saves_taskBind {task : Task ε α} {body : α → Task ε β} {next : Except ε β → Program γ}
    (silent : task.run.Uses Action.IsSilent)
    (later : ∀ value, ((body value).run >>= next).Saves directory files)
    (fails : ∀ error, (next (.error error)).Saves directory files) :
    ((task >>= body).run >>= next).Saves directory files := by
  rw [ExceptT.run_bind, bind_assoc]
  refine saves_bind silent fun result => ?_
  cases result with
  | ok value => exact later value
  | error error => exact fails error

theorem saves_replace {name : String} {rest : List String} {content : Content}
    {next : Except StorageError Unit → Program γ} (isSuffix : name :: rest <:+ files)
    (later : ∀ result, (next result).Saves directory rest) :
    ((Document.replace directory name content).run >>= next).Saves directory files := by
  refine .inl ⟨name, rest, content, isSuffix, rfl, fun answer => ?_⟩
  cases answer with
  | done => exact later (.ok ())
  | noDirectory => exact later (.error _)
  | noFile => exact later (.error _)

theorem saves_replace_taskBind {name : String} {rest : List String} {content : Content}
    {body : Unit → Task StorageError β} {next : Except StorageError β → Program γ}
    (isSuffix : name :: rest <:+ files)
    (later : ((body ()).run >>= next).Saves directory rest)
    (fails : ∀ error, (next (.error error)).Saves directory rest) :
    ((Document.replace directory name content >>= body).run >>= next).Saves directory files := by
  rw [ExceptT.run_bind, bind_assoc]
  refine saves_replace isSuffix fun result => ?_
  cases result with
  | ok value => exact later
  | error error => exact fails error

theorem saves_map {program : Program α} (change : α → β) (saves : program.Saves directory files) :
    (change <$> program).Saves directory files := by
  rw [map_eq_pure_bind]
  change (program.bind fun value => .done (change value)).Saves directory files
  induction program generalizing files with
  | done value => trivial
  | act action next ih =>
      rcases saves with ⟨name, rest, content, isSuffix, replace, later⟩ | ⟨silent, later⟩
      · exact .inl ⟨name, rest, content, isSuffix, replace, fun answer => ih answer (later answer)⟩
      · exact .inr ⟨silent, fun answer => ih answer (later answer)⟩

theorem Creates.map {handle : String} {target : Bool → Path} {program : Program α}
    (creates : program.Creates handle target) (change : α → β) :
    (change <$> program).Creates handle target := by
  obtain ⟨enters, rfl, asks, asked, takes⟩ := creates
  refine ⟨fun answer => change <$> enters answer, ?_, fun active => change <$> asks active, ?_, ?_⟩
  · rw [map_eq_pure_bind]
    rfl
  · change change <$> enters () = _
    rw [asked, map_eq_pure_bind]
    rfl
  · intro active
    obtain ⟨later, taken, saves⟩ := takes active
    refine ⟨fun answer => change <$> later answer, ?_, saves_map change saves⟩
    change change <$> asks active = _
    rw [taken, map_eq_pure_bind]
    rfl

end Program

/-! ## Directories -/

namespace World

variable {world : World} {directory : Path} {place : List String}

/-- Replacing a file of a directory leaves the other files as they are. -/
theorem reading_replace (leads : world.disk.LeadsTo directory place) {name : String}
    (named : name ≠ "") (content : Content) :
    (world.perform (.replace directory name content)).2.disk.LeadsTo directory place ∧
      ∀ other, other ≠ "" → other ≠ name →
        (world.perform (.replace directory name content)).2.reading directory other =
          world.reading directory other := by
  simp only [reading, perform, onDisk]
  rcases leads.replace_cases named content with ⟨possible, -, same⟩ | ⟨-, -, same⟩
  · rw [same]
    obtain ⟨leadsAfter, finds⟩ := leads.replaced content possible
    refine ⟨leadsAfter, fun other otherNamed differs => ?_⟩
    refine leads.readAt_congr leadsAfter otherNamed ?_
    rw [finds, if_neg differs]
  · rw [same]
    exact ⟨leads, fun _ _ _ => rfl⟩

/-- A program that saves some files of a directory leaves the other ones as they are. -/
theorem reading_run {α : Type} {program : Program α} {files : List String}
    (saves : program.Saves directory files) (named : ∀ name ∈ files, name ≠ "")
    (leads : world.disk.LeadsTo directory place) :
    (world.run program).2.disk.LeadsTo directory place ∧
      ∀ other, other ≠ "" → other ∉ files →
        (world.run program).2.reading directory other = world.reading directory other := by
  induction program generalizing world files with
  | done value => exact ⟨leads, fun _ _ _ => rfl⟩
  | act action next ih =>
      rw [World.run_act]
      rcases saves with ⟨name, rest, content, isSuffix, rfl, later⟩ | ⟨silent, later⟩
      · have member := isSuffix.subset List.mem_cons_self
        obtain ⟨leadsNext, same⟩ := reading_replace leads (named name member) content
        obtain ⟨leadsLast, kept⟩ := ih _ (later _)
          (fun other inRest => named other (isSuffix.subset (List.mem_cons_of_mem name inRest)))
          leadsNext
        refine ⟨leadsLast, fun other otherNamed absent => ?_⟩
        refine (kept other otherNamed fun inRest =>
          absent (isSuffix.subset (List.mem_cons_of_mem name inRest))).trans ?_
        exact same other otherNamed fun equal => absent (equal ▸ member)
      · have leadsNext : (world.perform action).2.disk.LeadsTo directory place := by
          rw [silent.disk_perform]
          exact leads
        obtain ⟨leadsLast, kept⟩ := ih _ (later _) named leadsNext
        refine ⟨leadsLast, fun other otherNamed absent => ?_⟩
        refine (kept other otherNamed absent).trans ?_
        rw [reading, silent.disk_perform, reading]

end World

/-! ## Matches -/

namespace Collections

variable {directory : Path}

theorem loads_read (name : String) :
    (Document.read (directory.child name)).run.Loads directory [name] := by
  have loads : (Program.perform (.read (directory.child name))).Loads directory [name] :=
    ⟨name, [], List.suffix_rfl, rfl, fun _ => trivial⟩
  exact Program.loads_taskBind [] (Program.loads_lift loads) fun _ => trivial

theorem loads_readItems {α : Type} (decode : Json → Option α) (name : String) :
    (Document.readItems decode (directory.child name)).run.Loads directory [name] :=
  Program.loads_taskBind [] (loads_read name) fun _ => trivial

theorem loads_loadNodes : (loadNodes directory).run.Loads directory [nodesFile] :=
  loads_readItems _ _

theorem loads_loadRelationships :
    (loadRelationships directory).run.Loads directory [relationshipsFile] :=
  loads_readItems _ _

theorem loads_readIndexes : (readIndexes directory).Loads directory [indexesFile] := by
  refine Program.loads_bind [] (loads_read indexesFile) fun result => ?_
  cases result <;> trivial

theorem loads_loadIndexes : (loadIndexes directory).Loads directory [indexesFile] := by
  refine Program.loads_bind [] loads_readIndexes fun document => ?_
  cases document <;> trivial

theorem loads_probeIndex (label property : String) (value : Value) :
    (probeIndex directory label property value).Loads directory [indexesFile] := by
  refine Program.loads_bind [] loads_readIndexes fun document => ?_
  cases document <;> trivial

end Collections

namespace Query

/-- Whether a match loads the nodes and nothing else, or nothing at all. -/
def MatchQuery.isScan (query : MatchQuery) (useIndex : Bool) : Bool :=
  !Executor.isBound query ||
    query.pattern.segment.isNone && (query.condition.isSome ||
      if query.pattern.start.properties.entries = [] then query.pattern.start.label.isSome
      else !(useIndex && query.pattern.start.label.isSome &&
        query.pattern.start.properties.entries.length == 1))

namespace Executor

variable (executor : Executor)

theorem loads_probe (pattern : NodePattern) (useIndex : Bool) :
    (executor.probe pattern useIndex).Loads executor.directory [Collections.indexesFile] := by
  unfold probe
  split
  · split
    · exact Collections.loads_probeIndex _ _ _
    · trivial
  · trivial

theorem loads_matchWhere (pattern : NodePattern) (condition : Comparison) :
    (executor.matchWhere pattern condition).run.Loads executor.directory
      [Collections.nodesFile] :=
  Program.loads_taskBind [] Collections.loads_loadNodes fun _ => trivial

theorem loads_matchPath (start : NodePattern) (segment : Segment) (condition : Option Comparison) :
    (executor.matchPath start segment condition).run.Loads executor.directory
      [Collections.nodesFile, Collections.relationshipsFile] :=
  Program.loads_taskBind [Collections.relationshipsFile] Collections.loads_loadNodes fun _ =>
    Program.loads_taskBind [] Collections.loads_loadRelationships fun _ => trivial

theorem loads_matchNode (pattern : NodePattern) (useIndex : Bool) :
    (executor.matchNode pattern useIndex).run.Loads executor.directory
      [Collections.indexesFile, Collections.nodesFile, Collections.relationshipsFile] := by
  unfold matchNode
  split
  · refine Program.Loads.mono ?_ (List.suffix_cons _ _)
    refine Program.loads_taskBind [Collections.relationshipsFile] Collections.loads_loadNodes ?_
    intro nodes
    split
    · exact Program.loads_taskBind [] Collections.loads_loadRelationships fun _ => trivial
    · trivial
  · refine Program.loads_taskBind [Collections.nodesFile, Collections.relationshipsFile]
      (Program.loads_lift (executor.loads_probe pattern useIndex)) fun ids => ?_
    exact Program.loads_taskBind [Collections.relationshipsFile] Collections.loads_loadNodes
      fun _ => trivial

/-- A match loads the indexes, the nodes and the relationships in this order. -/
theorem loads_executeMatch (query : MatchQuery) (useIndex : Bool) :
    (executor.executeMatch query useIndex).run.Loads executor.directory
      [Collections.indexesFile, Collections.nodesFile, Collections.relationshipsFile] := by
  unfold executeMatch
  split
  · refine Program.loads_map _ ?_
    split
    · exact (executor.loads_matchPath _ _ _).mono (List.suffix_cons _ _)
    · unfold matchWhere
      refine Program.Loads.mono ?_ (List.suffix_cons _ _)
      exact Program.loads_taskBind [Collections.relationshipsFile] Collections.loads_loadNodes
        fun _ => trivial
    · exact executor.loads_matchNode _ _
  · trivial

/-- A match that loads one collection loads the nodes. -/
theorem loads_executeMatch_of_isScan {query : MatchQuery} {useIndex : Bool}
    (scan : query.isScan useIndex) :
    (executor.executeMatch query useIndex).run.Loads executor.directory
      [Collections.nodesFile] := by
  unfold executeMatch
  unfold MatchQuery.isScan at scan
  split
  · next bound =>
      refine Program.loads_map _ ?_
      simp only [bound, Bool.not_true, Bool.false_or, Bool.and_eq_true, Bool.or_eq_true,
        Option.isNone_iff_eq_none] at scan
      obtain ⟨noSegment, kind⟩ := scan
      rw [noSegment]
      cases condition : query.condition with
      | some comparison => exact executor.loads_matchWhere _ _
      | none =>
          simp only [condition, Option.isSome_none, Bool.false_eq_true, false_or] at kind
          simp only
          unfold matchNode
          split
          · next empty =>
              rw [if_pos empty] at kind
              refine Program.loads_taskBind [] Collections.loads_loadNodes fun nodes => ?_
              cases label : query.pattern.start.label with
              | none => simp [label] at kind
              | some name => trivial
          · next some =>
              rw [if_neg some] at kind
              have unprobed : executor.probe query.pattern.start useIndex = pure [] := by
                unfold probe
                split
                · next label value labelled single =>
                    rw [labelled, single] at kind
                    simp at kind
                    simp [kind]
                · rfl
              rw [unprobed]
              have unloaded : Program.Loads executor.directory []
                  (ExceptT.lift (pure []) : Task StorageError (List String)).run := trivial
              exact Program.loads_taskBind [Collections.nodesFile] unloaded fun _ =>
                Program.loads_taskBind [] Collections.loads_loadNodes fun _ => trivial
  · trivial

/-! ## Creations -/

variable {executor} {α β ε : Type}

theorem saves_maintain {next : Except StorageError Unit → Program β} (created : List Node)
    (later : ∀ result, (next result).Saves executor.directory []) :
    ((executor.maintain created).run >>= next).Saves executor.directory
      [Collections.indexesFile] := by
  have ends : ∀ result, (next result).Saves executor.directory [Collections.indexesFile] :=
    fun result => (later result).mono (List.suffix_cons _ _)
  unfold maintain
  split
  · unfold Collections.indexNodes
    split
    · exact ends _
    · refine Program.saves_taskBind (Program.uses_lift Collections.loads_loadIndexes.uses)
        (fun catalog => ?_) fun error => ends _
      split
      · exact Program.saves_replace List.suffix_rfl later
      · exact ends _
  · exact ends _

theorem takes_holding {registry : String} {resources others : List String} {task : Task ε α}
    {next : Except ε α → Program β}
    (order : LockRegistry.collectionOrder resources = LockRegistry.nodes :: others)
    (saves : ∀ finish : Except ε α → Program β,
      (∀ result, (finish result).Saves executor.directory []) →
        (task.run >>= finish).Saves executor.directory Collections.files)
    (later : ∀ result, (next result).Saves executor.directory []) :
    ((holding registry resources task).run >>= next).Takes registry executor.directory := by
  have acquires : (others.forM fun resource =>
      Program.perform (.acquire registry resource)).Uses Action.IsSilent :=
    Program.uses_forM fun _ => Program.uses_perform trivial
  have releases : ((LockRegistry.nodes :: others).forM fun resource =>
      Program.perform (.release registry resource)).Uses Action.IsSilent :=
    Program.uses_forM fun _ => Program.uses_perform trivial
  rw [run_holding_bind, order]
  refine ⟨_, rfl, Program.saves_bind acquires fun _ => saves _ fun result => ?_⟩
  exact Program.saves_bind releases fun _ => later result

variable (executor)

/-- New nodes are saved before the indexes. -/
theorem takes_createNodes (patterns : List NewNode)
    {next : Except StorageError Answer → Program β}
    (later : ∀ result, (next result).Saves executor.directory []) :
    ((executor.createNodes patterns).run >>= next).Takes executor.registry
      executor.directory := by
  refine takes_holding LockRegistry.collectionOrder_nodes_indexes (fun finish ends => ?_) later
  have fails : ∀ error, (finish (.error error)).Saves executor.directory Collections.files :=
    fun error => (ends _).mono (List.nil_suffix)
  refine Program.saves_taskBind Collections.loads_loadNodes.uses (fun nodes => ?_) fails
  refine Program.saves_taskBind (Program.uses_lift (uses_findOrCreateAll trivial _ _))
    (fun growth => ?_) fails
  split
  · refine Program.saves_replace_taskBind List.suffix_rfl ?_
      fun error => (ends _).mono List.nil_suffix
    refine Program.Saves.mono ?_
      (List.suffix_cons Collections.relationshipsFile [Collections.indexesFile])
    rw [ExceptT.run_bind, bind_assoc]
    refine saves_maintain growth.created fun result => ?_
    cases result <;> exact ends _
  · exact (ends _).mono List.nil_suffix

/-- A new relationship is saved after the nodes and before the indexes. -/
theorem takes_createRelationship (start : NewNode) (type : String) (properties : Properties)
    (target : NewNode) {next : Except StorageError Answer → Program β}
    (later : ∀ result, (next result).Saves executor.directory []) :
    ((executor.createRelationship start type properties target).run >>= next).Takes
      executor.registry executor.directory := by
  refine takes_holding LockRegistry.collectionOrder_collections (fun finish ends => ?_) later
  have fails : ∀ error, (finish (.error error)).Saves executor.directory Collections.files :=
    fun error => (ends _).mono List.nil_suffix
  -- What comes after the nodes is the same whether they were saved or not.
  have saves : ∀ (growth : Growth) (relationships : List Relationship) (answer : Answer),
      ((do
        Collections.saveRelationships executor.directory executor.style relationships
        executor.maintain growth.created
        pure answer : Task StorageError Answer).run >>= finish).Saves executor.directory
          [Collections.relationshipsFile, Collections.indexesFile] := by
    intro growth relationships answer
    refine Program.saves_replace_taskBind List.suffix_rfl ?_
      fun error => (ends _).mono List.nil_suffix
    rw [ExceptT.run_bind, bind_assoc]
    refine saves_maintain growth.created fun result => ?_
    cases result <;> exact ends _
  refine Program.saves_taskBind Collections.loads_loadNodes.uses (fun nodes => ?_) fails
  refine Program.saves_taskBind Collections.loads_loadRelationships.uses
    (fun relationships => ?_) fails
  refine Program.saves_taskBind (Program.uses_lift (uses_findOrCreate trivial _ _))
    (fun first => ?_) fails
  refine Program.saves_taskBind (Program.uses_lift (uses_findOrCreate trivial _ _))
    (fun second => ?_) fails
  refine Program.saves_taskBind (Program.uses_lift (Program.uses_perform trivial))
    (fun number => ?_) fails
  split
  · exact Program.saves_replace_taskBind List.suffix_rfl (saves _ _ _)
      fun error => (ends _).mono List.nil_suffix
  · exact (saves _ _ _).mono (List.suffix_cons _ _)

/-- A new index is saved alone. -/
theorem takes_createIndex (label property : String)
    {next : Except StorageError Nat → Program β}
    (later : ∀ result, (next result).Saves executor.directory []) :
    ((executor.createIndex label property).run >>= next).Takes executor.registry
      executor.directory := by
  refine takes_holding LockRegistry.collectionOrder_nodes_indexes (fun finish ends => ?_) later
  have fails : ∀ error, (finish (.error error)).Saves executor.directory Collections.files :=
    fun error => (ends _).mono List.nil_suffix
  refine Program.saves_taskBind Collections.loads_loadNodes.uses (fun nodes => ?_) fails
  refine Program.saves_taskBind (Program.uses_lift Collections.loads_loadIndexes.uses)
    (fun catalog => ?_) fails
  refine Program.Saves.mono ?_ (show [Collections.indexesFile] <:+ Collections.files from
    ⟨[_, _], rfl⟩)
  exact Program.saves_replace_taskBind List.suffix_rfl (ends _) fun error => ends _

end Executor
end Query

namespace Database

/-- Whether an operation creates something: nodes, a relationship or an index. -/
def Operation.IsCreation : Operation → Bool
  | .execute source _ =>
    match Query.parse source with
    | .error _ | .ok (.matching _) => false
    | .ok _ => true
  | .createIndex .. => true
  | _ => false

theorem Operation.IsCreation.isWriter {operation : Operation} (creation : operation.IsCreation) :
    operation.IsWriter := by
  cases operation with
  | execute source useIndex =>
      rw [IsCreation] at creation
      rw [IsWriter]
      cases parsed : Query.parse source with
      | error error => rfl
      | ok statement =>
          cases statement with
          | matching query => simp [parsed] at creation
          | _ => rfl
  | createIndex label property => rfl
  | _ => cases creation

variable (database : Database)

theorem creates_onTarget {α ε : Type} {task : Path → Task ε α}
    (takes : ∀ target, ((task target).run >>= fun result =>
      Program.perform (.leave database.name false) >>= fun _ => pure result).Takes database.name
        target) :
    (database.inGate false do
      let target ← ExceptT.lift database.manager.target
      task target).run.Creates database.name database.manager.targetIf := by
  refine ⟨_, rfl, _, rfl, fun active => ?_⟩
  cases active with
  | false => exact takes database.manager.database
  | true => exact takes database.manager.workspace

/-- A handle serves creations by programs that create. -/
theorem creates_serve {operation : Operation} (creation : operation.IsCreation) :
    (database.serve operation).Creates database.name database.manager.targetIf := by
  have leaves : ∀ {α : Type} (value : α) (directory : Path),
      (Program.perform (.leave database.name false) >>= fun _ => pure value).Saves directory [] :=
    fun _ _ => .inr ⟨trivial, fun _ => trivial⟩
  cases operation with
  | execute source useIndex =>
      refine Program.Creates.map (database.creates_onTarget fun target => ?_) _
      unfold Operation.IsCreation at creation
      unfold Query.Executor.execute
      cases parsed : Query.parse source with
      | error error => simp [parsed] at creation
      | ok statement =>
          cases statement with
          | createNodes patterns =>
              simp only [Query.Executor.executeStatement, Task.run_mapError_bind]
              exact (Query.Executor.ofSettings target _ _).takes_createNodes patterns
                fun _ => leaves _ _
          | createRelationship start type properties last =>
              simp only [Query.Executor.executeStatement, Task.run_mapError_bind]
              exact (Query.Executor.ofSettings target _ _).takes_createRelationship start type
                properties last fun _ => leaves _ _
          | createIndex label property =>
              simp only [Query.Executor.executeStatement, ExceptT.run_bind,
                Task.run_mapError_bind, bind_assoc]
              refine (Query.Executor.ofSettings target _ _).takes_createIndex label property
                fun result => ?_
              cases result <;> exact leaves _ _
          | matching query => simp [parsed] at creation
  | createIndex label property =>
      refine Program.Creates.map (Program.Creates.map (database.creates_onTarget fun target => ?_)
        (Except.mapError DatabaseError.storage)) _
      exact (Query.Executor.ofSettings target _ _).takes_createIndex label property
        fun _ => leaves _ _
  | _ => cases creation

end Database
end GraphStore
