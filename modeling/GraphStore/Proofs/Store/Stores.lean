import GraphStore.Proofs.Program.Runs
import GraphStore.Proofs.Store.Documents

/-!
# Stores

Of everything that a world holds, a statement depends on little: what reading the files of its
directory answers, how replacing them ends, and which numbers are drawn.  A store is just that.
Whatever only concerns the collections of one directory can be run on a store.
-/

namespace GraphStore

/-- The name of the entry to which a path leads. -/
def Path.entryName (path : Path) : String :=
  match path.steps.getLast? with
  | some (.down name) => name
  | _ => ""

@[simp]
theorem Path.entryName_child (directory : Path) (name : String) :
    (directory.child name).entryName = name := by
  simp [entryName, child]

/-- What the files of one directory answer. -/
structure Store where
  /-- What reading a file answers. -/
  read : String → Except Fault Content
  /-- How replacing a file ends. -/
  outcome : String → Replacement := fun _ => .done
  /-- The next number to be drawn. -/
  nextNumber : Nat

namespace Store

/-- The store in which a file has a content. -/
def put (store : Store) (name : String) (content : Content) : Store :=
  { store with read := fun other => if other = name then .ok content else store.read other }

@[simp]
theorem read_put_self (store : Store) (name : String) (content : Content) :
    (store.put name content).read name = .ok content := by
  simp [put]

/-- The same files when other numbers are next. -/
def withNumber (store : Store) (number : Nat) : Store :=
  { store with nextNumber := number }

@[simp]
theorem read_withNumber (store : Store) (number : Nat) :
    (store.withNumber number).read = store.read := rfl

@[simp]
theorem outcome_withNumber (store : Store) (number : Nat) :
    (store.withNumber number).outcome = store.outcome := rfl

@[simp]
theorem nextNumber_withNumber (store : Store) (number : Nat) :
    (store.withNumber number).nextNumber = number := rfl

@[simp]
theorem withNumber_nextNumber (store : Store) : store.withNumber store.nextNumber = store := rfl

@[simp]
theorem withNumber_withNumber (store : Store) (first second : Nat) :
    (store.withNumber first).withNumber second = store.withNumber second := rfl

theorem read_put_of_ne (store : Store) {name other : String} (content : Content)
    (differs : other ≠ name) : (store.put name content).read other = store.read other := by
  simp [put, differs]

@[simp]
theorem outcome_put (store : Store) (name : String) (content : Content) :
    (store.put name content).outcome = store.outcome := rfl

@[simp]
theorem nextNumber_put (store : Store) (name : String) (content : Content) :
    (store.put name content).nextNumber = store.nextNumber := rfl

/-- The answer to an action, and the store after it.  Actions that do not concern the files of the
directory have no meaning here. -/
def perform (store : Store) : (action : Action) → action.Answer × Store
  | .read path => (store.read path.entryName, store)
  | .replace _ name content =>
    (store.outcome name, if store.outcome name = .done then store.put name content else store)
  | .fresh => (store.nextNumber, store.withNumber (store.nextNumber + 1))
  | .kind _ => (none, store)
  | .list _ => (.error .missing, store)
  | .makeDirectories _ | .rename .. | .removeFile _ | .removeDirectory _ | .removeAll _
  | .isRunning _ | .isLive _ | .isActive _ => (false, store)
  | .ownProcess => (0, store)
  | .setLive .. | .setActive .. | .acquire .. | .release .. | .enter .. | .leave .. => ((), store)

end Store

/-- Whether an action reads or replaces a collection of a directory, or draws a number. -/
def Path.Touches (directory : Path) : Action → Prop
  | .read path => ∃ name ∈ Collections.files, path = directory.child name
  | .replace target name _ => target = directory ∧ name ∈ Collections.files
  | .fresh => True
  | _ => False

/-- Whether an action only concerns the collections of a directory. -/
def Path.Concerns (directory : Path) : Action → Prop
  | .read path => ∃ name ∈ Collections.files, path = directory.child name
  | .replace target name _ => target = directory ∧ name ∈ Collections.files
  | .fresh | .acquire .. | .release .. => True
  | _ => False

theorem Path.Touches.concerns {directory : Path} {action : Action}
    (touches : directory.Touches action) : directory.Concerns action := by
  cases action <;> first | exact touches | trivial

/-! ## Documents -/

namespace Store

/-- The nodes that the files of a directory list. -/
def nodes (store : Store) (directory : Path) : Except StorageError (List Node) :=
  Document.itemsOfContent Node.ofJson? (directory.child Collections.nodesFile)
    (store.read Collections.nodesFile)

/-- The relationships that the files of a directory list. -/
def relationships (store : Store) (directory : Path) : Except StorageError (List Relationship) :=
  Document.itemsOfContent Relationship.ofJson? (directory.child Collections.relationshipsFile)
    (store.read Collections.relationshipsFile)

/-- The document of the indexes, if it can be read. -/
def indexDocument (store : Store) (directory : Path) : Option Json :=
  match Document.ofContent (directory.child Collections.indexesFile)
      (store.read Collections.indexesFile) with
  | .ok document => document
  | .error _ => none

/-- The indexes of a directory. -/
def catalog (store : Store) (directory : Path) : IndexCatalog :=
  match store.indexDocument directory with
  | some json => IndexCatalog.ofJson json
  | none => .empty

/-- What probing the stored indexes for a value finds. -/
def probe (store : Store) (directory : Path) (label property : String) (value : Value) :
    List String :=
  match store.indexDocument directory with
  | some json => IndexCatalog.probe json label property value
  | none => []

/-- Replace a file of a directory. -/
def replace (store : Store) (directory : Path) (name : String) (content : Content) :
    Except StorageError Unit × Store :=
  match store.outcome name with
  | .done => (.ok (), store.put name content)
  | .noDirectory => (.error (.io directory.trimmed.text), store)
  | .noFile => (.error (.io (directory.child name).text), store)

end Store

namespace Document

variable (store : Store) (directory : Path)

@[simp]
theorem runWith_read (name : String) :
    (read (directory.child name)).runWith Store.perform store =
      (ofContent (directory.child name) (store.read name), store) := by
  rw [read, Task.runWith_bind_of_ok (Task.runWith_perform _ _ _)]
  simp [Store.perform]

@[simp]
theorem runWith_readItems {α : Type} (decode : Json → Option α) (name : String) :
    (readItems decode (directory.child name)).runWith Store.perform store =
      (itemsOfContent decode (directory.child name) (store.read name), store) := by
  rw [readItems, Task.runWith_bind, runWith_read]
  cases read : ofContent (directory.child name) (store.read name) <;>
    simp [itemsOfContent, read, Except.bind]

@[simp]
theorem runWith_replace (name : String) (content : Content) :
    (replace directory name content).runWith Store.perform store =
      store.replace directory name content := by
  rw [replace, Task.runWith_bind_of_ok (Task.runWith_perform _ _ _), Store.replace]
  simp only [Store.perform]
  cases store.outcome name <;> simp

end Document

namespace Collections

variable (store : Store) (directory : Path)

@[simp]
theorem runWith_loadNodes :
    (loadNodes directory).runWith Store.perform store = (store.nodes directory, store) :=
  Document.runWith_readItems store directory _ _

@[simp]
theorem runWith_loadRelationships :
    (loadRelationships directory).runWith Store.perform store =
      (store.relationships directory, store) :=
  Document.runWith_readItems store directory _ _

@[simp]
theorem runWith_saveNodes (style : Json.Style) (nodes : List Node) :
    (saveNodes directory style nodes).runWith Store.perform store =
      store.replace directory nodesFile
        (.text ((Json.array (nodes.map Node.toJson)).write style)) :=
  Document.runWith_replace store directory _ _

@[simp]
theorem runWith_saveRelationships (style : Json.Style) (relationships : List Relationship) :
    (saveRelationships directory style relationships).runWith Store.perform store =
      store.replace directory relationshipsFile
        (.text ((Json.array (relationships.map Relationship.toJson)).write style)) :=
  Document.runWith_replace store directory _ _

@[simp]
theorem runWith_saveIndexes (style : Json.Style) (catalog : IndexCatalog) :
    (saveIndexes directory style catalog).runWith Store.perform store =
      store.replace directory indexesFile (.text (catalog.toJson.write style)) :=
  Document.runWith_replace store directory _ _

@[simp]
theorem runWith_readIndexes :
    (readIndexes directory).runWith Store.perform store =
      (store.indexDocument directory, store) := by
  rw [readIndexes, Program.runWith_bind, Task.runWith_run, Document.runWith_read,
    Store.indexDocument]
  cases Document.ofContent (directory.child indexesFile) (store.read indexesFile) <;> rfl

@[simp]
theorem runWith_loadIndexes :
    (loadIndexes directory).runWith Store.perform store = (store.catalog directory, store) := by
  rw [loadIndexes, Program.runWith_bind, runWith_readIndexes, Store.catalog]
  cases store.indexDocument directory <;> rfl

@[simp]
theorem runWith_listIndexes :
    (listIndexes directory).runWith Store.perform store =
      ((store.catalog directory).definitions, store) := by
  rw [listIndexes, Program.runWith_bind, runWith_loadIndexes]
  rfl

@[simp]
theorem runWith_probeIndex (label property : String) (value : Value) :
    (probeIndex directory label property value).runWith Store.perform store =
      (store.probe directory label property value, store) := by
  rw [probeIndex, Program.runWith_bind, runWith_readIndexes, Store.probe]
  cases store.indexDocument directory <;> rfl

/-! ## What the collections of a directory need -/

variable {directory}

theorem uses_read {name : String} (member : name ∈ files) :
    (Document.read (directory.child name)).run.Uses directory.Touches :=
  Program.uses_taskBind (Program.uses_lift (Program.uses_perform ⟨name, member, rfl⟩))
    fun _ => trivial

theorem uses_readItems {α : Type} (decode : Json → Option α) {name : String}
    (member : name ∈ files) :
    (Document.readItems decode (directory.child name)).run.Uses directory.Touches :=
  Program.uses_taskBind (uses_read member) fun _ => trivial

theorem uses_replace {name : String} (content : Content) (member : name ∈ files) :
    (Document.replace directory name content).run.Uses directory.Touches := by
  refine Program.uses_taskBind (Program.uses_lift (Program.uses_perform ⟨rfl, member⟩)) ?_
  intro answer
  cases answer <;> trivial

theorem uses_loadNodes : (loadNodes directory).run.Uses directory.Touches :=
  uses_readItems _ (by decide)

theorem uses_loadRelationships : (loadRelationships directory).run.Uses directory.Touches :=
  uses_readItems _ (by decide)

theorem uses_saveNodes (style : Json.Style) (nodes : List Node) :
    (saveNodes directory style nodes).run.Uses directory.Touches :=
  uses_replace _ (by decide)

theorem uses_saveRelationships (style : Json.Style) (relationships : List Relationship) :
    (saveRelationships directory style relationships).run.Uses directory.Touches :=
  uses_replace _ (by decide)

theorem uses_saveIndexes (style : Json.Style) (catalog : IndexCatalog) :
    (saveIndexes directory style catalog).run.Uses directory.Touches :=
  uses_replace _ (by decide)

theorem uses_readIndexes : (readIndexes directory).Uses directory.Touches := by
  refine Program.uses_bind (uses_read (by decide)) fun result => ?_
  cases result <;> trivial

theorem uses_loadIndexes : (loadIndexes directory).Uses directory.Touches := by
  refine Program.uses_bind uses_readIndexes fun document => ?_
  cases document <;> trivial

theorem uses_listIndexes : (listIndexes directory).Uses directory.Touches :=
  Program.uses_bind uses_loadIndexes fun _ => trivial

theorem uses_probeIndex (label property : String) (value : Value) :
    (probeIndex directory label property value).Uses directory.Touches := by
  refine Program.uses_bind uses_readIndexes fun document => ?_
  cases document <;> trivial

theorem uses_createIndex (style : Json.Style) (label property : String) :
    (createIndex directory style label property).run.Uses directory.Touches :=
  Program.uses_taskBind uses_loadNodes fun _ =>
    Program.uses_taskBind (Program.uses_lift uses_loadIndexes) fun _ =>
      Program.uses_taskBind (uses_saveIndexes style _) fun _ => trivial

theorem uses_indexNodes (style : Json.Style) (nodes : List Node) :
    (indexNodes directory style nodes).run.Uses directory.Touches := by
  unfold indexNodes
  split
  · trivial
  · refine Program.uses_taskBind (Program.uses_lift uses_loadIndexes) fun catalog => ?_
    split
    · exact uses_saveIndexes style _
    · trivial

end Collections
end GraphStore
