import GraphStore.Proofs.Query.Maintenance
import GraphStore.Proofs.Transaction.Service

/-!
# Definitions of indexes

Which indexes were created, and in which transactions, says which indexes there are: the versions of
a handle that maintains indexes hold exactly these, each as it would be built from the nodes.
-/

namespace GraphStore

/-! ## Snapshots -/

/-- The store of which a snapshot is read. -/
def Snapshot.store (snapshot : Snapshot) : Store where
  read := snapshot
  nextNumber := 0

/-- Whether the indexes of a snapshot are those over some pairs, each as it would be built. -/
def Snapshot.IsIndexed (snapshot : Snapshot) (pairs : List (String × String)) : Prop :=
  ∀ directory, snapshot.store.IsIndexed directory pairs

theorem Store.IsIndexed.snapshot {store : Store} {directory : Path}
    {pairs : List (String × String)} (indexed : store.IsIndexed directory pairs) :
    Snapshot.IsIndexed store.read pairs :=
  fun other => (indexed.at other).congr rfl rfl

theorem Snapshot.IsIndexed.congr {snapshot other : Snapshot} {pairs : List (String × String)}
    (indexed : snapshot.IsIndexed pairs)
    (same : ∀ name ∈ Collections.files, other name = snapshot name) : other.IsIndexed pairs :=
  fun directory => (indexed directory).congr (same _ (by decide)) (same _ (by decide))

/-- A snapshot without nodes and indexes. -/
theorem Snapshot.isIndexed_of_empty {snapshot : Snapshot} {path : Path}
    (nodes : Document.itemsOfContent Node.ofJson? path (snapshot Collections.nodesFile) = .ok [])
    (indexes : ∀ document, Document.ofContent path (snapshot Collections.indexesFile) =
      .ok (some document) → document = IndexCatalog.empty.toJson) : snapshot.IsIndexed [] := by
  intro directory
  refine Store.isIndexed_of_empty (fun json document => ?_) fun others loaded => ?_
  · rw [Store.indexDocument] at document
    cases read : Document.ofContent (directory.child Collections.indexesFile)
        (snapshot.store.read Collections.indexesFile) with
    | error error =>
        rw [read] at document
        cases document
    | ok found =>
        rw [read] at document
        simp only at document
        rw [document] at read
        exact indexes json (Document.ofContent_path path read)
  · have none : others = [] :=
      Except.ok.inj ((Document.itemsOfContent_path path loaded).symm.trans nodes)
    rw [none]
    exact fun number member => absurd member List.not_mem_nil

namespace Database

/-! ## Definitions -/

/-- The pairs of which an index was created: those that are committed, and those of the active
transaction if there is one. -/
structure Definitions where
  committed : List (String × String) := []
  working : Option (List (String × String)) := none

namespace Definitions

/-- The pairs of which statements see an index. -/
def current (definitions : Definitions) : List (String × String) :=
  definitions.working.getD definitions.committed

/-- The definitions after indexes were created. -/
def add (definitions : Definitions) (pairs : List (String × String)) : Definitions :=
  match definitions.working with
  | none => { definitions with committed := pairs ++ definitions.committed }
  | some working => { definitions with working := some (pairs ++ working) }

/-- The definitions after an operation that was replied to. -/
def after (definitions : Definitions) : Operation → Reply → Definitions
  | .execute source _, .executed result => definitions.add (Query.indexedBy source result)
  | .createIndex label property, .indexed (.ok _) => definitions.add [(label, property)]
  | .begin, .changed (.ok _) => { definitions with working := some definitions.committed }
  | .commit, .changed (.ok _) => { committed := definitions.current }
  | .rollback, .changed (.ok _) => { definitions with working := none }
  | _, _ => definitions

/-- Whether the indexes of versions are the defined ones. -/
structure Describe (definitions : Definitions) (versions : Versions) : Prop where
  committed : versions.committed.IsIndexed definitions.committed
  working : Option.Rel Snapshot.IsIndexed versions.working definitions.working

variable {definitions : Definitions} {versions : Versions} {database : Database}

theorem Describe.current (describe : definitions.Describe versions) :
    versions.current.IsIndexed definitions.current := by
  obtain ⟨committedPairs, workingPairs⟩ := definitions
  obtain ⟨committedFiles, workingFiles, number⟩ := versions
  obtain ⟨committed, working⟩ := describe
  cases working with
  | none => exact committed
  | some working => exact working

theorem Describe.setStore (describe : definitions.Describe versions) {store : Store}
    {pairs : List (String × String)}
    (indexed : Snapshot.IsIndexed store.read (pairs ++ definitions.current)) :
    (definitions.add pairs).Describe (versions.setStore store) := by
  obtain ⟨committedPairs, workingPairs⟩ := definitions
  obtain ⟨committedFiles, workingFiles, number⟩ := versions
  obtain ⟨committed, working⟩ := describe
  cases working with
  | none => exact ⟨indexed, .none⟩
  | some working => exact ⟨committed, .some indexed⟩

/-- The store on which statements act has the current indexes. -/
theorem Describe.isIndexed (describe : definitions.Describe versions) (directory : Path) :
    versions.store.IsIndexed directory definitions.current :=
  (describe.current directory).congr rfl rfl

/-- Every operation leaves the indexes that are defined after it. -/
theorem Describe.serve (describe : definitions.Describe versions)
    (maintains : database.settings.maintainIndexes) (operation : Operation)
    (readsBack : ∀ answer, (versions.serve database operation).1 = .executed (.ok answer) →
      Json.ReadsBack answer.doubles) :
    (definitions.after operation (versions.serve database operation).1).Describe
      (versions.serve database operation).2 := by
  have reliable : versions.store.IsReliable := fun _ => rfl
  have indexed := describe.isIndexed (database.manager.targetIf versions.working.isSome)
  cases operation with
  | execute source useIndex =>
      exact describe.setStore (@Query.Executor.isIndexed_execute (Query.Executor.ofSettings
        (database.manager.targetIf versions.working.isSome) database.name database.settings)
        versions.store definitions.current reliable maintains indexed source useIndex _ _ rfl
        fun answer same => readsBack answer (congrArg Reply.executed same)).snapshot
  | createIndex label property =>
      rcases (Query.Executor.ofSettings (database.manager.targetIf versions.working.isSome)
        database.name database.settings).runWith_createIndex versions.store label property with
        ⟨nodes, loaded, created⟩ | ⟨-, error, refusal⟩
      · have built := Query.Executor.isIndexed_saveIndex indexed loaded label property
        simp only [Versions.serve, Versions.onTarget, Task.runWith_run, created]
        exact describe.setStore built.snapshot
      · simp only [Versions.serve, Versions.onTarget, Task.runWith_run, refusal]
        simp only [Prod.map, Versions.setStore_store]
        exact describe
  | probeIndex label property value =>
      simp only [Versions.serve, Versions.onTarget, Collections.runWith_probeIndex, Prod.map,
        Versions.setStore_store]
      exact describe
  | listIndexes =>
      simp only [Versions.serve, Versions.onTarget, Collections.runWith_listIndexes, Prod.map,
        Versions.setStore_store]
      exact describe
  | begin =>
      simp only [Versions.serve, Versions.begin]
      cases works : versions.working with
      | some working => exact describe
      | none =>
          simp only
          split
          · exact ⟨describe.committed, .some describe.committed⟩
          · exact ⟨describe.committed, works ▸ describe.working⟩
  | commit =>
      simp only [Versions.serve, Versions.commit]
      have current := describe.current
      unfold Versions.current at current
      cases works : versions.working with
      | none => exact describe
      | some working =>
          rw [works] at current
          exact ⟨current, .none⟩
  | rollback =>
      simp only [Versions.serve, Versions.rollback]
      cases works : versions.working with
      | none => exact describe
      | some working => exact ⟨describe.committed, .none⟩

end Definitions
end Database
end GraphStore
