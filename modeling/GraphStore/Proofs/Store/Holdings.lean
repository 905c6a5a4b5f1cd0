import GraphStore.Proofs.Disk.Directories
import GraphStore.Proofs.Store.Stores

/-!
# Stores in worlds

Whatever only concerns the collections of one directory runs in a world as it runs on the store
that the directory holds.
-/

namespace GraphStore

theorem Collections.ne_empty_of_mem_files {name : String} (member : name ∈ files) : name ≠ "" := by
  rintro rfl
  revert member
  decide

namespace World

/-- The store that a directory holds. -/
def storeAt (world : World) (directory : Path) : Store where
  read name := world.disk.readAt (directory.child name)
  outcome name := world.disk.replacement directory name
  nextNumber := world.nextNumber

/-- Whether a directory at a place holds a store, as far as the collections are concerned. -/
structure Holds (world : World) (directory : Path) (place : List String) (store : Store) :
    Prop where
  leads : world.disk.LeadsTo directory place
  read : ∀ name ∈ Collections.files,
    world.disk.readAt (directory.child name) = store.read name
  outcome : ∀ name ∈ Collections.files,
    world.disk.replacement directory name = store.outcome name
  number : world.nextNumber = store.nextNumber

variable {world : World} {directory : Path} {place : List String} {store : Store}

theorem holds_storeAt (leads : world.disk.LeadsTo directory place) :
    world.Holds directory place (world.storeAt directory) := by
  refine ⟨leads, fun name _ => ?_, fun name _ => ?_, ?_⟩ <;> simp only [storeAt]

/-- Only the disk of a world and its next number matter. -/
theorem Holds.transport (holds : world.Holds directory place store) {other : World}
    {same : Store} (disk : other.disk = world.disk) (read : same.read = store.read)
    (outcome : same.outcome = store.outcome) (number : other.nextNumber = same.nextNumber) :
    other.Holds directory place same := by
  refine ⟨?_, fun name member => ?_, fun name member => ?_, number⟩
  · rw [disk]
    exact holds.leads
  · rw [disk, read]
    exact holds.read name member
  · rw [disk, outcome]
    exact holds.outcome name member

theorem Holds.replaced (holds : world.Holds directory place store) {name : String}
    (member : name ∈ Collections.files) (content : Content)
    (possible : world.disk.CanReplace directory place name) :
    Holds { world with disk := world.disk.update (place ++ [name]) (some (.file content)) }
      directory place (store.put name content) := by
  obtain ⟨leadsAfter, finds⟩ := holds.leads.replaced content possible
  refine ⟨leadsAfter, fun other otherMember => ?_, fun other otherMember => ?_, holds.number⟩
  · have named := Collections.ne_empty_of_mem_files otherMember
    by_cases same : other = name
    · subst same
      rw [Store.read_put_self, leadsAfter.readAt_child named possible.2.1, Tree.read, finds,
        if_pos rfl]
    · rw [Store.read_put_of_ne store content same, ← holds.read other otherMember]
      refine holds.leads.readAt_congr leadsAfter named ?_
      rw [finds, if_neg same]
  · rw [Store.outcome_put, ← holds.outcome other otherMember]
    exact holds.leads.replacement_congr leadsAfter
      (Collections.ne_empty_of_mem_files otherMember)
      (holds.leads.acceptsFile_replaced content possible other)

/-- One action that concerns the collections of a directory. -/
theorem Holds.perform (holds : world.Holds directory place store) {action : Action}
    (concerns : directory.Concerns action) :
    (world.perform action).1 = (store.perform action).1 ∧
      (world.perform action).2.Holds directory place (store.perform action).2 := by
  cases action with
  | read path =>
      obtain ⟨name, member, rfl⟩ := concerns
      refine ⟨?_, holds⟩
      simp only [World.perform, Store.perform, Path.entryName_child]
      exact holds.read name member
  | replace target name content =>
      obtain ⟨rfl, member⟩ := concerns
      have named := Collections.ne_empty_of_mem_files member
      have outcome := holds.outcome name member
      simp only [World.perform, onDisk, Store.perform, ← outcome]
      rcases holds.leads.replace_cases named content with
        ⟨possible, done, replaced⟩ | ⟨-, refused, unchanged⟩
      · rw [replaced, if_pos done]
        exact ⟨done.symm, holds.replaced member content possible⟩
      · rw [unchanged, if_neg refused]
        constructor
        · simp only
        · exact holds
  | fresh =>
      refine ⟨holds.number, holds.transport rfl rfl rfl ?_⟩
      simp only [World.perform, Store.perform, holds.number, Store.nextNumber_withNumber]
  | acquire | release => exact ⟨rfl, holds.transport rfl rfl rfl holds.number⟩
  | _ => cases concerns

/-- A whole program that concerns the collections of a directory. -/
theorem Holds.run {α : Type} {program : Program α} (uses : program.Uses directory.Concerns)
    (holds : world.Holds directory place store) :
    (world.run program).1 = (program.runWith Store.perform store).1 ∧
      (world.run program).2.Holds directory place (program.runWith Store.perform store).2 := by
  rw [Program.run_eq_runWith]
  exact Program.runWith_simulates (fun world store => Holds world directory place store)
    (fun holds concerns => holds.perform concerns) uses holds

/-- The nodes that load from a directory. -/
def nodes (world : World) (directory : Path) : Except StorageError (List Node) :=
  (world.run (Collections.loadNodes directory).run).1

/-- The relationships that load from a directory. -/
def relationships (world : World) (directory : Path) : Except StorageError (List Relationship) :=
  (world.run (Collections.loadRelationships directory).run).1

/-- The indexes that load from a directory. -/
def indexes (world : World) (directory : Path) : IndexCatalog :=
  (world.run (Collections.loadIndexes directory)).1

theorem Holds.nodes_eq (holds : world.Holds directory place store) :
    world.nodes directory = store.nodes directory := by
  rw [nodes, (holds.run (Collections.uses_loadNodes.mono Path.Touches.concerns)).1,
    Task.runWith_run, Collections.runWith_loadNodes]

theorem Holds.relationships_eq (holds : world.Holds directory place store) :
    world.relationships directory = store.relationships directory := by
  rw [relationships,
    (holds.run (Collections.uses_loadRelationships.mono Path.Touches.concerns)).1,
    Task.runWith_run, Collections.runWith_loadRelationships]

theorem Holds.indexes_eq (holds : world.Holds directory place store) :
    world.indexes directory = store.catalog directory := by
  rw [indexes, (holds.run (Collections.uses_loadIndexes.mono Path.Touches.concerns)).1,
    Collections.runWith_loadIndexes]

end World
end GraphStore
