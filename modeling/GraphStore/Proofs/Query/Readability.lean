import GraphStore.Proofs.Query.Effects
import GraphStore.Proofs.Store.Holdings

/-!
# Readability after statements

A statement that succeeds leaves collections that load if and only if every double in its answer is
finite, and then everything in the answer is loaded with the same properties.  The other doubles,
which a literal like `1.0e999` writes, are stored as null, and null is no property value.
-/

namespace GraphStore

namespace Query

/-- The doubles among the properties of an answer. -/
def Answer.doubles (answer : Answer) : List Double :=
  answer.nodes.flatMap Node.doubles ++ answer.relationships.flatMap Relationship.doubles

/-- Whether every property value of an answer is finite. -/
def Answer.isFinite (answer : Answer) : Bool :=
  answer.nodes.all Node.isFinite && answer.relationships.all Relationship.isFinite

end Query

namespace Store

/-- Whether the nodes and the relationships of a directory load. -/
def IsReadable (store : Store) (directory : Path) : Prop :=
  (∃ nodes, store.nodes directory = .ok nodes) ∧
    ∃ relationships, store.relationships directory = .ok relationships

/-- Whether everything in an answer is among what loads. -/
def Lists (store : Store) (directory : Path) (answer : Query.Answer) : Prop :=
  (∀ nodes, store.nodes directory = .ok nodes →
      ∀ node ∈ answer.nodes, ∃ stored ∈ nodes, stored.SameAs node) ∧
    ∀ relationships, store.relationships directory = .ok relationships →
      ∀ relationship ∈ answer.relationships, ∃ stored ∈ relationships,
        stored.SameAs relationship

variable {store : Store} {directory : Path}

theorem forall_isFinite_of_nodes {nodes : List Node} (loaded : store.nodes directory = .ok nodes) :
    ∀ node ∈ nodes, node.isFinite :=
  Document.forall_mem_of_itemsOfContent Node.isFinite_of_ofJson? loaded

theorem forall_isFinite_of_relationships {relationships : List Relationship}
    (loaded : store.relationships directory = .ok relationships) :
    ∀ relationship ∈ relationships, relationship.isFinite :=
  Document.forall_mem_of_itemsOfContent Relationship.isFinite_of_ofJson? loaded

@[simp]
theorem nodes_withNumber (number : Nat) :
    (store.withNumber number).nodes directory = store.nodes directory := rfl

@[simp]
theorem relationships_withNumber (number : Nat) :
    (store.withNumber number).relationships directory = store.relationships directory := rfl

theorem nodes_put_of_ne {name : String} (differs : Collections.nodesFile ≠ name)
    (content : Content) : (store.put name content).nodes directory = store.nodes directory := by
  rw [nodes, read_put_of_ne store content differs, nodes]

theorem relationships_put_of_ne {name : String} (differs : Collections.relationshipsFile ≠ name)
    (content : Content) :
    (store.put name content).relationships directory = store.relationships directory := by
  rw [relationships, read_put_of_ne store content differs, relationships]

end Store

namespace Query
namespace Executor

variable {executor : Executor} {store : Store}

/-- Nodes that are created with finite properties are finite. -/
theorem AreNew.isFinite {patterns : List NewNode} {added : List Node}
    (areNew : AreNew patterns added) (finite : ∀ pattern ∈ patterns, pattern.properties.isFinite) :
    ∀ node ∈ added, node.isFinite := by
  intro node member
  obtain ⟨pattern, found, -, same⟩ := areNew node member
  rw [Node.isFinite, same]
  exact finite pattern found

@[simp]
theorem nodes_maintained (added : List Node) :
    (executor.maintained store added).nodes executor.directory =
      store.nodes executor.directory := by
  unfold maintained
  split
  · exact Store.nodes_put_of_ne (by decide) _
  · rfl

@[simp]
theorem relationships_maintained (added : List Node) :
    (executor.maintained store added).relationships executor.directory =
      store.relationships executor.directory := by
  unfold maintained
  split
  · exact Store.relationships_put_of_ne (by decide) _
  · rfl

@[simp]
theorem relationships_saveGrowth (nodes added : List Node) :
    (executor.saveGrowth store nodes added).relationships executor.directory =
      store.relationships executor.directory := by
  unfold saveGrowth
  split
  · rfl
  · exact Store.relationships_put_of_ne (by decide) _

@[simp]
theorem nodes_saveRelationship (relationships : List Relationship)
    (relationship : Relationship) :
    (executor.saveRelationship store relationships relationship).nodes executor.directory =
      store.nodes executor.directory :=
  Store.nodes_put_of_ne (by decide) _

/-- The nodes that load after added ones were saved. -/
theorem nodes_saveGrowth {nodes added : List Node}
    (readsBack : Json.ReadsBack ((nodes ++ added).flatMap Node.doubles)) (some : added ≠ []) :
    (executor.saveGrowth store nodes added).nodes executor.directory =
      if (nodes ++ added).all Node.isFinite then .ok ((nodes ++ added).map Node.sorted)
      else .error (.json (executor.directory.child Collections.nodesFile).text) := by
  rw [saveGrowth, if_neg some, Store.nodes, Store.read_put_self]
  exact Document.nodes_write _ _ _ readsBack

/-- The relationships that load after one was added. -/
theorem relationships_saveRelationship {relationships : List Relationship}
    {relationship : Relationship}
    (readsBack : Json.ReadsBack
      ((relationships ++ [relationship]).flatMap Relationship.doubles)) :
    (executor.saveRelationship store relationships relationship).relationships
        executor.directory =
      if (relationships ++ [relationship]).all Relationship.isFinite then
        .ok ((relationships ++ [relationship]).map Relationship.sorted)
      else .error (.json (executor.directory.child Collections.relationshipsFile).text) := by
  rw [saveRelationship, Store.relationships, Store.read_put_self]
  exact Document.relationships_write _ _ _ readsBack

variable (executor store) in
/-- After added nodes were saved, the nodes load if and only if the added ones are finite. -/
theorem loads_saveGrowth {nodes added : List Node}
    (loaded : store.nodes executor.directory = .ok nodes)
    (readsBack : Json.ReadsBack ((nodes ++ added).flatMap Node.doubles)) :
    ((∃ all, (executor.saveGrowth store nodes added).nodes executor.directory = .ok all) ↔
        added.all Node.isFinite) ∧
      ∀ all, (executor.saveGrowth store nodes added).nodes executor.directory = .ok all →
        ∀ node ∈ nodes ++ added, ∃ stored ∈ all, stored.SameAs node := by
  by_cases none : added = []
  · subst none
    have unchanged : executor.saveGrowth store nodes [] = store := by simp [saveGrowth]
    rw [unchanged, loaded]
    refine ⟨by simp, ?_⟩
    rintro all ⟨⟩ node member
    exact ⟨node, by simpa using member, .refl node⟩
  · have finiteNodes := List.all_eq_true.2 (Store.forall_isFinite_of_nodes loaded)
    rw [nodes_saveGrowth readsBack none, List.all_append, finiteNodes, Bool.true_and]
    cases finite : added.all Node.isFinite with
    | false => simp
    | true =>
        refine ⟨by simp, ?_⟩
        rintro all ⟨⟩ node member
        exact ⟨node.sorted, List.mem_map_of_mem member, node.sorted_sameAs⟩

variable (executor store) in
/-- After a relationship was added, the relationships load if and only if it is finite. -/
theorem loads_saveRelationship {relationships : List Relationship} {relationship : Relationship}
    (loaded : store.relationships executor.directory = .ok relationships)
    (readsBack : Json.ReadsBack
      ((relationships ++ [relationship]).flatMap Relationship.doubles)) :
    ((∃ all, (executor.saveRelationship store relationships relationship).relationships
        executor.directory = .ok all) ↔ relationship.isFinite) ∧
      ∀ all, (executor.saveRelationship store relationships relationship).relationships
        executor.directory = .ok all → ∃ stored ∈ all, stored.SameAs relationship := by
  have finiteStored := List.all_eq_true.2 (Store.forall_isFinite_of_relationships loaded)
  rw [relationships_saveRelationship readsBack, List.all_append, finiteStored, Bool.true_and]
  cases finite : relationship.isFinite with
  | false => simp [finite]
  | true =>
      have all : [relationship].all Relationship.isFinite = true := by simp [finite]
      rw [all]
      refine ⟨by simp, ?_⟩
      rintro all ⟨⟩
      exact ⟨relationship.sorted, List.mem_map_of_mem (by simp), relationship.sorted_sameAs⟩

/-- What is stored is finite, so an answer of stored entities is. -/
theorem isFinite_of_listsStored {nodes : List Node} {relationships : List Relationship}
    {answer : Answer} (loaded : store.nodes executor.directory = .ok nodes)
    (loadedRelationships : store.relationships executor.directory = .ok relationships)
    (listed : ListsStored store executor.directory answer) : answer.isFinite := by
  simp only [Answer.isFinite, Bool.and_eq_true, List.all_eq_true]
  exact ⟨fun node member => Store.forall_isFinite_of_nodes loaded node
      (listed.1 nodes loaded node member),
    fun relationship member => Store.forall_isFinite_of_relationships loadedRelationships
      relationship (listed.2 relationships loadedRelationships relationship member)⟩

/-- A statement that succeeds leaves a readable store if and only if its answer is finite. -/
theorem Effect.isReadable_iff {statement : Statement} {answer : Answer} {after : Store}
    (effect : Effect executor store statement (.ok answer) after) {nodes : List Node}
    {relationships : List Relationship} (loaded : store.nodes executor.directory = .ok nodes)
    (loadedRelationships : store.relationships executor.directory = .ok relationships)
    (readsBack : Json.ReadsBack (nodes.flatMap Node.doubles ++
      relationships.flatMap Relationship.doubles ++ answer.doubles)) :
    (after.IsReadable executor.directory ↔ answer.isFinite) ∧
      after.Lists executor.directory answer := by
  have finiteNodes := Store.forall_isFinite_of_nodes loaded
  cases effect with
  | @nodesCreated patterns others added number loadedAgain areNew =>
      cases loaded.symm.trans loadedAgain
      obtain ⟨loads, lists⟩ := loads_saveGrowth executor (store.withNumber number) loaded
        (readsBack.of_subset fun value member => by
          simp only [Answer.doubles, List.flatMap_append, List.mem_append] at member ⊢
          exact member.elim (fun stored => Or.inl (Or.inl stored)) fun new => Or.inr (Or.inl new))
      constructor
      · rw [Store.IsReadable, nodes_maintained, relationships_maintained,
          relationships_saveGrowth, loads]
        simp [loadedRelationships, Answer.isFinite]
      · refine ⟨fun all loadedAll node member => ?_, by simp⟩
        rw [nodes_maintained] at loadedAll
        exact lists all loadedAll node (List.mem_append_right nodes member)
  | @relationshipCreated start target type properties others added otherRelationships number
      startNode endNode relationship loadedAgain loadedRelationshipsAgain areNew addedEnds startMember
      endMember ownProperties =>
      cases loaded.symm.trans loadedAgain
      cases loadedRelationships.symm.trans loadedRelationshipsAgain
      have endsMembers : ∀ node ∈ [startNode, endNode], node ∈ nodes ++ added := by
        exact List.forall_mem_cons.2 ⟨startMember, List.forall_mem_singleton.2 endMember⟩
      obtain ⟨loads, lists⟩ := loads_saveGrowth executor (store.withNumber number) loaded
        (readsBack.of_subset fun value member => by
          simp only [Answer.doubles, List.flatMap_append, List.mem_append] at member ⊢
          refine member.elim (fun stored => Or.inl (Or.inl stored)) fun new => Or.inr (Or.inl ?_)
          obtain ⟨node, added, inNode⟩ := List.mem_flatMap.1 new
          exact List.mem_flatMap.2 ⟨node, addedEnds added, inNode⟩)
      have loadedGrown : (executor.saveGrowth (store.withNumber number) nodes added).relationships
          executor.directory = .ok relationships := by
        rw [relationships_saveGrowth]
        exact loadedRelationships
      obtain ⟨loadsRelationship, listsRelationship⟩ :=
        loads_saveRelationship executor _ loadedGrown (readsBack.of_subset fun value member => by
          simp only [Answer.doubles, List.flatMap_append, List.mem_append] at member ⊢
          exact member.elim (fun stored => Or.inl (Or.inr stored)) fun new => Or.inr (Or.inr new))
      have sameFinite : added.all Node.isFinite ↔ [startNode, endNode].all Node.isFinite := by
        simp only [List.all_eq_true]
        constructor
        · intro finite node member
          rcases List.mem_append.1 (endsMembers node member) with stored | new
          · exact finiteNodes node stored
          · exact finite node new
        · exact fun finite node member => finite node (addedEnds member)
      constructor
      · rw [Store.IsReadable, nodes_maintained, relationships_maintained, nodes_saveRelationship,
          loads, loadsRelationship, sameFinite, Answer.isFinite]
        simp
      · constructor
        · intro all loadedAll node member
          rw [nodes_maintained, nodes_saveRelationship] at loadedAll
          exact lists all loadedAll node (endsMembers node member)
        · intro all loadedAll other member
          rw [relationships_maintained] at loadedAll
          rw [List.mem_singleton.1 member]
          exact listsRelationship all loadedAll
  | @indexCreated label property others message loadedAgain =>
      have sameNodes : (executor.saveIndex store others label property).nodes executor.directory =
          .ok nodes := by
        rw [← loaded]
        exact Store.nodes_put_of_ne (by decide) _
      have sameRelationships : (executor.saveIndex store others label property).relationships
          executor.directory = .ok relationships := by
        rw [← loadedRelationships]
        exact Store.relationships_put_of_ne (by decide) _
      refine ⟨?_, by simp, by simp⟩
      simp [Store.IsReadable, sameNodes, sameRelationships, Answer.isFinite]
  | matched listed =>
      refine ⟨?_, ?_, ?_⟩
      · simp [Store.IsReadable, loaded, loadedRelationships,
          isFinite_of_listsStored loaded loadedRelationships listed]
      · intro all loadedAll node member
        exact ⟨node, listed.1 all loadedAll node member, .refl node⟩
      · intro all loadedAll relationship member
        exact ⟨relationship, listed.2 all loadedAll relationship member, .refl relationship⟩

end Executor
end Query

/-! ## In a world -/

/-- Whether the nodes and the relationships of a directory load. -/
def World.IsReadable (world : World) (directory : Path) : Prop :=
  (∃ nodes, world.nodes directory = .ok nodes) ∧
    ∃ relationships, world.relationships directory = .ok relationships

/-- Whether everything in an answer is among what loads from a directory. -/
def World.Lists (world : World) (directory : Path) (answer : Query.Answer) : Prop :=
  (∀ nodes, world.nodes directory = .ok nodes →
      ∀ node ∈ answer.nodes, ∃ stored ∈ nodes, stored.SameAs node) ∧
    ∀ relationships, world.relationships directory = .ok relationships →
      ∀ relationship ∈ answer.relationships, ∃ stored ∈ relationships,
        stored.SameAs relationship

/-- When a text is executed successfully on a readable directory, the directory is readable
afterwards if and only if every double in the answer is finite; and whatever the answer lists is
then loaded with equal properties.  The doubles that are stored have to be read back from their
written form. -/
theorem Query.Executor.isReadable_after_execute_iff {executor : Executor} {world after : World}
    {place : List String} (leads : world.disk.LeadsTo executor.directory place)
    {nodes : List Node} (nodesLoad : world.nodes executor.directory = .ok nodes)
    {relationships : List Relationship}
    (relationshipsLoad : world.relationships executor.directory = .ok relationships)
    {source : String} {useIndex : Bool} {answer : Answer}
    (succeeds : world.run (executor.execute source useIndex).run = (.ok answer, after))
    (readsBack : Json.ReadsBack (nodes.flatMap Node.doubles ++
      relationships.flatMap Relationship.doubles ++ answer.doubles)) :
    (after.IsReadable executor.directory ↔ answer.isFinite) ∧
      after.Lists executor.directory answer := by
  have holds := World.holds_storeAt leads
  rw [holds.nodes_eq] at nodesLoad
  rw [holds.relationships_eq] at relationshipsLoad
  obtain ⟨sameAnswer, holdsAfter⟩ := holds.run (uses_execute source useIndex)
  rw [succeeds] at sameAnswer holdsAfter
  rw [World.IsReadable, World.Lists, holdsAfter.nodes_eq, holdsAfter.relationships_eq]
  cases parsed : parse source with
  | error error =>
      rw [execute, parsed] at sameAnswer
      cases sameAnswer
  | ok statement =>
      have effect := executor.effect_executeStatement (world.storeAt executor.directory) statement
        useIndex
      simp only [execute, parsed, Task.runWith_run] at sameAnswer holdsAfter ⊢
      rw [← sameAnswer] at effect
      exact effect.isReadable_iff nodesLoad relationshipsLoad readsBack

/-- In an empty database, a node with an infinite property makes the nodes unreadable, although it is
created successfully. -/
theorem Query.Executor.not_isReadable_after_infinite_property :
    let world : World := { disk := .directory [("db", .emptyDirectory)] }
    let executor : Executor := ⟨Path.ofText "db", "locks", .compact, true⟩
    let ended := world.run
      (executor.execute "CREATE (a:L {x: 1.5}), (b:L {x: 1.0e999})" false).run
    (∃ answer, ended.1 = .ok answer) ∧ ¬ended.2.IsReadable executor.directory := by
  intro world executor ended
  let answer : Answer := ⟨"Node(s) created",
    [⟨Identifier.ofNumber 0, ["L"], .ofList [("x", .double (.ofScientific false 15 (-1)))]⟩,
      ⟨Identifier.ofNumber 1, ["L"], .ofList [("x", .double (.infinity false))]⟩], []⟩
  have succeeds : ended = (.ok answer, ended.2) := Prod.ext (by decide +kernel) rfl
  have numbers : ∀ number ∈ answer.doubles, number.isFinite → number.isReadBack := by
    decide +kernel
  have leads : world.disk.LeadsTo executor.directory ["db"] := ⟨by decide +kernel, [], rfl⟩
  have nodesLoad : world.nodes executor.directory = .ok [] := by decide +kernel
  have relationshipsLoad : world.relationships executor.directory = .ok [] := by decide +kernel
  obtain ⟨readable_iff, -⟩ :=
    isReadable_after_execute_iff leads nodesLoad relationshipsLoad succeeds numbers
  refine ⟨⟨answer, congrArg Prod.fst succeeds⟩, fun readable => ?_⟩
  have infinite : answer.isFinite = false := by decide +kernel
  rw [readable_iff.1 readable] at infinite
  cases infinite

end GraphStore
