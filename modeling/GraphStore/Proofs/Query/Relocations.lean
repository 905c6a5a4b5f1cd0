import GraphStore.Proofs.Query.Effects

/-!
# Statements in other directories

What a statement does depends on the store of its directory, not on where the directory is.  On one
store it does the same in every directory; only the paths that its errors name are others.
-/

namespace GraphStore

variable {α β ε ε' : Type}

/-- Whether two tasks do the same to every store, and give the same values where they succeed. -/
def Task.Alike (left right : Task ε α) : Prop :=
  ∀ store : Store,
    (left.runWith Store.perform store).1.toOption =
        (right.runWith Store.perform store).1.toOption ∧
      (left.runWith Store.perform store).2 = (right.runWith Store.perform store).2

namespace Task.Alike

theorem refl (task : Task ε α) : task.Alike task :=
  fun _ => ⟨rfl, rfl⟩

/-- Tasks that start alike and go on alike from every value are alike. -/
theorem bind {left right : Task ε α} {next other : α → Task ε β} (alike : left.Alike right)
    (later : ∀ value, (next value).Alike (other value)) :
    (left >>= next : Task ε β).Alike (right >>= other) := by
  intro store
  obtain ⟨sameValue, sameStore⟩ := alike store
  rw [runWith_bind, runWith_bind]
  rcases leftRan : left.runWith Store.perform store with ⟨result, after⟩
  rcases rightRan : right.runWith Store.perform store with ⟨result', after'⟩
  rw [leftRan, rightRan] at sameValue sameStore
  obtain rfl : after = after' := sameStore
  cases result with
  | error _ =>
      cases result' with
      | error _ => exact ⟨rfl, rfl⟩
      | ok _ => cases sameValue
  | ok value =>
      cases result' with
      | error _ => cases sameValue
      | ok _ =>
          cases sameValue
          exact later value after

theorem mapError {left right : Task ε α} (alike : left.Alike right) (wrap : ε → ε') :
    (left.mapError wrap).Alike (right.mapError wrap) := by
  intro store
  obtain ⟨sameValue, sameStore⟩ := alike store
  rw [runWith_mapError, runWith_mapError]
  refine ⟨?_, sameStore⟩
  cases left : (left.runWith Store.perform store).1 <;>
    cases right : (right.runWith Store.perform store).1 <;> rw [left, right] at sameValue
  · rfl
  · cases sameValue
  · cases sameValue
  · exact sameValue

theorem holding {left right : Task ε α} (alike : left.Alike right) (registry : String)
    (resources : List String) : (Query.Executor.holding registry resources left).Alike
      (Query.Executor.holding registry resources right) := by
  intro store
  rw [Query.Executor.runWith_holding, Query.Executor.runWith_holding]
  exact alike store

end Task.Alike

namespace Collections

variable (first second : Path)

theorem alike_readItems (decode : Json → Option α) (name : String) :
    (Document.readItems decode (first.child name)).Alike
      (Document.readItems decode (second.child name)) := by
  intro store
  rw [Document.runWith_readItems, Document.runWith_readItems]
  refine ⟨Option.ext fun values => ?_, rfl⟩
  have loads : ∀ {path : Path},
      (Document.itemsOfContent decode path (store.read name)).toOption = some values ↔
        Document.itemsOfContent decode path (store.read name) = .ok values := by
    intro path
    cases Document.itemsOfContent decode path (store.read name) <;> simp [Except.toOption]
  rw [loads, loads]
  exact ⟨Document.itemsOfContent_path _, Document.itemsOfContent_path _⟩

theorem alike_loadNodes : (loadNodes first).Alike (loadNodes second) :=
  alike_readItems first second _ _

theorem alike_loadRelationships : (loadRelationships first).Alike (loadRelationships second) :=
  alike_readItems first second _ _

theorem alike_replace (name : String) (content : Content) :
    (Document.replace first name content).Alike (Document.replace second name content) := by
  intro store
  rw [Document.runWith_replace, Document.runWith_replace, Store.replace, Store.replace]
  cases store.outcome name <;> exact ⟨rfl, rfl⟩

theorem catalog_eq (store : Store) : store.catalog first = store.catalog second := by
  have same : store.indexDocument first = store.indexDocument second := by
    unfold Store.indexDocument
    cases read : Document.ofContent (first.child indexesFile) (store.read indexesFile) with
    | ok document => rw [Document.ofContent_path _ read]
    | error error =>
        cases other : Document.ofContent (second.child indexesFile) (store.read indexesFile) with
        | ok document =>
            rw [Document.ofContent_path _ other] at read
            cases read
        | error error => rfl
  rw [Store.catalog, Store.catalog, same]

theorem alike_loadIndexes : Task.Alike (ExceptT.lift (loadIndexes first) : Task ε IndexCatalog)
    (ExceptT.lift (loadIndexes second)) := by
  intro store
  rw [Task.runWith_lift, Task.runWith_lift, runWith_loadIndexes, runWith_loadIndexes,
    catalog_eq first second]
  exact ⟨rfl, rfl⟩

theorem alike_createIndex (style : Json.Style) (label property : String) :
    (createIndex first style label property).Alike (createIndex second style label property) :=
  (alike_loadNodes first second).bind fun _ => (alike_loadIndexes first second).bind fun _ =>
    (alike_replace first second _ _).bind fun _ => .refl _

theorem alike_indexNodes (style : Json.Style) (nodes : List Node) :
    (indexNodes first style nodes).Alike (indexNodes second style nodes) := by
  unfold indexNodes
  split
  · exact .refl _
  · refine (alike_loadIndexes first second).bind fun catalog => ?_
    split
    · exact alike_replace first second _ _
    · exact .refl _

end Collections

namespace Query
namespace Executor

/-- The same executor in another directory. -/
def relocate (executor : Executor) (directory : Path) : Executor :=
  { executor with directory }

variable (executor : Executor) (directory : Path)

theorem alike_maintain (created : List Node) :
    (executor.maintain created).Alike ((executor.relocate directory).maintain created) := by
  unfold maintain
  show Task.Alike _ (if executor.maintainIndexes then _ else _)
  split
  · exact Collections.alike_indexNodes _ _ _ _
  · exact .refl _

theorem alike_createNodes (patterns : List NewNode) :
    (executor.createNodes patterns).Alike ((executor.relocate directory).createNodes patterns) := by
  refine Task.Alike.holding ?_ _ _
  refine (Collections.alike_loadNodes _ _).bind fun nodes => (Task.Alike.refl _).bind fun growth => ?_
  split
  · exact (Collections.alike_replace _ _ _ _).bind fun _ =>
      (executor.alike_maintain directory _).bind fun _ => .refl _
  · exact .refl _

theorem alike_createRelationship (start : NewNode) (type : String) (properties : Properties)
    (target : NewNode) :
    (executor.createRelationship start type properties target).Alike
      ((executor.relocate directory).createRelationship start type properties target) := by
  have saves : ∀ (relationships : List Relationship) (created : List Node) (answer : Answer),
      Task.Alike
        (do
          Collections.saveRelationships executor.directory executor.style relationships
          executor.maintain created
          pure answer)
        (do
          Collections.saveRelationships directory executor.style relationships
          (executor.relocate directory).maintain created
          pure answer) := fun _ created _ =>
    (Collections.alike_replace _ _ _ _).bind fun _ =>
      (executor.alike_maintain directory created).bind fun _ => .refl _
  refine Task.Alike.holding ?_ _ _
  refine (Collections.alike_loadNodes _ _).bind fun nodes =>
    (Collections.alike_loadRelationships _ _).bind fun relationships =>
      (Task.Alike.refl _).bind fun grown => (Task.Alike.refl _).bind fun grownAgain =>
        (Task.Alike.refl _).bind fun number => ?_
  split
  · exact (Collections.alike_replace _ _ _ _).bind fun _ => saves _ _ _
  · exact saves _ _ _

/-- A text does to a store what it does to it in another directory. -/
theorem store_execute_relocate (source : String) (useIndex : Bool) (store : Store) :
    (((executor.relocate directory).execute source useIndex).runWith Store.perform store).2 =
      ((executor.execute source useIndex).runWith Store.perform store).2 := by
  unfold execute
  split
  · rfl
  · next statement _ =>
      cases statement with
      | createNodes patterns =>
          exact ((executor.alike_createNodes directory patterns).mapError _ store).2.symm
      | createRelationship start type properties target =>
          exact ((executor.alike_createRelationship directory start type properties target).mapError
            _ store).2.symm
      | createIndex label property =>
          have alike := (Collections.alike_createIndex executor.directory directory executor.style
            label property).holding executor.registry [LockRegistry.nodes, LockRegistry.indexes]
          exact (((alike.mapError ExecutionError.storage).bind fun _ => .refl _) store).2.symm
      | matching query =>
          obtain ⟨_, here, -⟩ := executor.executeMatch_stored store query useIndex
          obtain ⟨_, there, -⟩ := (executor.relocate directory).executeMatch_stored store query useIndex
          exact (congrArg Prod.snd there).trans (congrArg Prod.snd here).symm

end Executor
end Query
end GraphStore
