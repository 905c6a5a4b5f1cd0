import GraphStore.Proofs.Store.Stores
import GraphStore.Query.Execution

/-!
# Effects of statements

What a statement does to a store, case by case.  Everything that is proved about statements follows
from `Executor.effect_executeStatement` and not from the definitions of the statements again.
-/

namespace GraphStore

namespace Store

/-- Whether every file can be replaced. -/
def IsReliable (store : Store) : Prop :=
  ∀ name, store.outcome name = .done

theorem outcome_perform (store : Store) (action : Action) :
    (store.perform action).2.outcome = store.outcome := by
  cases action with
  | replace directory name content =>
      simp only [perform]
      split <;> rfl
  | _ => rfl

/-- Replacing a file succeeds, or it fails and leaves the store as it was. -/
theorem replace_cases (store : Store) (directory : Path) (name : String) (content : Content) :
    store.outcome name = .done ∧
        store.replace directory name content = (.ok (), store.put name content) ∨
      store.outcome name ≠ .done ∧
        ∃ error, store.replace directory name content = (.error error, store) := by
  unfold replace
  cases store.outcome name <;> simp

end Store

namespace Query
namespace Executor

variable (executor : Executor) (store : Store)

/-! ## Locks -/

private theorem runWith_forM {body : String → Program PUnit}
    (silent : ∀ resource, (body resource).runWith Store.perform store = ((), store))
    (resources : List String) :
    (resources.forM body).runWith Store.perform store = ((), store) := by
  induction resources with
  | nil => rfl
  | cons resource rest ih =>
      change (body resource >>= fun _ => rest.forM body).runWith Store.perform store = _
      rw [Program.runWith_bind, silent]
      exact ih

/-- Holding locks does not matter to a task that runs alone. -/
@[simp]
theorem runWith_holding {ε α : Type} (registry : String) (resources : List String)
    (task : Task ε α) :
    (holding registry resources task).runWith Store.perform store =
      task.runWith Store.perform store := by
  rw [holding, Task.runWith_bind_of_ok (Task.runWith_lift _ _ _), runWith_forM store fun _ => rfl]
  rw [Task.runWith_ensuring, runWith_forM _ fun _ => rfl]

/-! ## Creation of nodes -/

/-- A growth with further nodes. -/
def Growth.extend (growth : Growth) (added : List Node) : Growth :=
  ⟨growth.nodes ++ added, growth.created ++ added⟩

@[simp]
theorem Growth.extend_nil (growth : Growth) : growth.extend [] = growth := by
  simp [extend]

@[simp]
theorem Growth.extend_extend (growth : Growth) (first second : List Node) :
    (growth.extend first).extend second = growth.extend (first ++ second) := by
  simp [extend]

/-- Whether every node of a list is what one of several patterns asks to create. -/
def AreNew (patterns : List NewNode) (added : List Node) : Prop :=
  ∀ node ∈ added, ∃ pattern ∈ patterns,
    node.labels = [pattern.label] ∧ node.properties = pattern.properties

theorem AreNew.append {patterns others : List NewNode} {first second : List Node}
    (areNew : AreNew patterns first) (areNewOthers : AreNew others second) :
    AreNew (patterns ++ others) (first ++ second) := by
  intro node member
  rcases List.mem_append.1 member with member | member
  · obtain ⟨pattern, found, same⟩ := areNew node member
    exact ⟨pattern, List.mem_append_left others found, same⟩
  · obtain ⟨pattern, found, same⟩ := areNewOthers node member
    exact ⟨pattern, List.mem_append_right patterns found, same⟩

/-- Which node stands for a new one among nodes, and which nodes are added for it, when a given number
is drawn next: the first node like it, or itself under a fresh id. -/
inductive Stands (nodes : List Node) (pattern : NewNode) (number : Nat) :
    Node → List Node → Prop where
  /-- A node has the label and the properties, and none before it has. -/
  | found {before after : List Node} {node : Node} (split : nodes = before ++ node :: after)
      (like : node.satisfies (some pattern.label) pattern.properties)
      (none : ∀ other ∈ before, ¬other.satisfies (some pattern.label) pattern.properties) :
      Stands nodes pattern number node []
  /-- No node has the label and the properties. -/
  | added (none : ∀ other ∈ nodes, ¬other.satisfies (some pattern.label) pattern.properties) :
      Stands nodes pattern number
        ⟨Identifier.ofNumber number, [pattern.label], pattern.properties⟩
        [⟨Identifier.ofNumber number, [pattern.label], pattern.properties⟩]

/-- Which nodes are added for new ones that are looked for one after the other. -/
inductive Grows : List Node → List NewNode → Nat → List Node → Prop where
  | nil {nodes : List Node} {number : Nat} : Grows nodes [] number []
  | cons {nodes first others : List Node} {pattern : NewNode} {rest : List NewNode} {number : Nat}
      {node : Node} (stands : Stands nodes pattern number node first)
      (grows : Grows (nodes ++ first) rest (number + first.length) others) :
      Grows nodes (pattern :: rest) number (first ++ others)

section

variable {nodes added : List Node} {pattern : NewNode} {patterns : List NewNode} {number : Nat}
  {node : Node}

theorem Stands.areNew (stands : Stands nodes pattern number node added) :
    AreNew [pattern] added := by
  cases stands with
  | found => simp [AreNew]
  | added => simp [AreNew]

theorem Stands.subset (stands : Stands nodes pattern number node added) : added ⊆ [node] := by
  cases stands <;> simp

theorem Stands.mem (stands : Stands nodes pattern number node added) : node ∈ nodes ++ added := by
  cases stands with
  | found split => simp [split]
  | added => simp

theorem Grows.areNew (grows : Grows nodes patterns number added) : AreNew patterns added := by
  induction grows with
  | nil => simp [AreNew]
  | cons stands _ ih => exact stands.areNew.append ih

end

/-- A node like the pattern is found, or it is added. -/
theorem runWith_findOrCreate (growth : Growth) (pattern : NewNode) :
    ∃ node added, (findOrCreate growth pattern).runWith Store.perform store =
        ((node, growth.extend added), store.withNumber (store.nextNumber + added.length)) ∧
      Stands growth.nodes pattern store.nextNumber node added := by
  unfold findOrCreate
  cases search : findNode? growth.nodes pattern with
  | some node =>
      obtain ⟨like, before, after, split, none⟩ := List.find?_eq_some_iff_append.1 search
      exact ⟨node, [], by simp, .found split like (by simpa using none)⟩
  | none =>
      refine ⟨_, _, ?_, .added (by simpa using List.find?_eq_none.1 search)⟩
      rw [Program.runWith_bind, Program.runWith_perform]
      rfl

theorem runWith_findOrCreateAll (growth : Growth) (patterns : List NewNode) :
    ∃ added, (findOrCreateAll growth patterns).runWith Store.perform store =
        (growth.extend added, store.withNumber (store.nextNumber + added.length)) ∧
      Grows growth.nodes patterns store.nextNumber added := by
  induction patterns generalizing growth store with
  | nil => exact ⟨[], by simp [findOrCreateAll], .nil⟩
  | cons pattern rest ih =>
      obtain ⟨node, first, ran, stands⟩ := runWith_findOrCreate store growth pattern
      obtain ⟨others, ranRest, grows⟩ :=
        ih (store.withNumber (store.nextNumber + first.length)) (growth.extend first)
      refine ⟨first ++ others, ?_, .cons stands grows⟩
      rw [findOrCreateAll, Program.runWith_bind, ran]
      simpa [Nat.add_assoc] using ranRest

/-- The store after nodes were saved because some were added to them. -/
def saveGrowth (nodes added : List Node) : Store :=
  if added = [] then store
  else store.put Collections.nodesFile
    (.text ((Json.array ((nodes ++ added).map Node.toJson)).write executor.style))

@[simp]
theorem outcome_saveGrowth (nodes added : List Node) :
    (executor.saveGrowth store nodes added).outcome = store.outcome := by
  unfold saveGrowth
  split <;> rfl

/-- The store after new nodes were filed in the indexes. -/
def maintained (added : List Node) : Store :=
  if executor.maintainIndexes && (store.catalog executor.directory).lacksSome added then
    store.put Collections.indexesFile
      (.text (((store.catalog executor.directory).addNodes added).toJson.write executor.style))
  else store

/-- Filing new nodes succeeds, or the file of the indexes cannot be replaced. -/
theorem runWith_maintain (added : List Node) :
    (executor.maintain added).runWith Store.perform store = (.ok (), executor.maintained store added) ∨
      ¬store.IsReliable ∧
        ∃ error, (executor.maintain added).runWith Store.perform store = (.error error, store) := by
  unfold maintain maintained
  cases executor.maintainIndexes with
  | false => exact Or.inl rfl
  | true =>
      simp only [if_true, Bool.true_and, Collections.indexNodes]
      by_cases empty : added = []
      · subst empty
        exact Or.inl rfl
      · rw [if_neg empty, Task.runWith_bind_of_ok (Task.runWith_lift _ _ _),
          Collections.runWith_loadIndexes]
        split
        · rw [Collections.runWith_saveIndexes]
          rcases store.replace_cases executor.directory Collections.indexesFile
            (.text (((store.catalog executor.directory).addNodes added).toJson.write executor.style))
            with ⟨-, replaced⟩ | ⟨refused, error, failed⟩
          · exact Or.inl replaced
          · exact Or.inr ⟨fun reliable => refused (reliable _), error, failed⟩
        · exact Or.inl rfl

/-- The store after a relationship was added to those that are stored. -/
def saveRelationship (relationships : List Relationship) (relationship : Relationship) : Store :=
  store.put Collections.relationshipsFile
    (.text ((Json.array ((relationships ++ [relationship]).map Relationship.toJson)).write
      executor.style))

/-- The store after an index was built anew. -/
def saveIndex (nodes : List Node) (label property : String) : Store :=
  store.put Collections.indexesFile
    (.text (((store.catalog executor.directory).set label property
      (PropertyIndex.build nodes label property)).toJson.write executor.style))

/-! ## Matching -/

/-- Whether an answer lists only what is stored. -/
def ListsStored (directory : Path) (answer : Answer) : Prop :=
  (∀ nodes, store.nodes directory = .ok nodes → ∀ node ∈ answer.nodes, node ∈ nodes) ∧
    ∀ relationships, store.relationships directory = .ok relationships →
      ∀ relationship ∈ answer.relationships, relationship ∈ relationships

theorem mem_of_mem_distinctNodes {nodes : List Node} {node : Node} {seen : List String}
    (member : node ∈ distinctNodes seen nodes) : node ∈ nodes := by
  induction nodes generalizing seen with
  | nil => simp [distinctNodes] at member
  | cons first rest ih =>
      rw [distinctNodes] at member
      split at member
      · exact List.mem_cons_of_mem first (ih member)
      · rcases List.mem_cons.1 member with rfl | member
        · exact List.mem_cons_self
        · exact List.mem_cons_of_mem first (ih member)

theorem mem_of_mem_select {segment : Segment} {start : NodePattern} {condition : Option Comparison}
    {nodes : List Node} {relationships : List Relationship} {relationship : Relationship}
    {source target : Node}
    (member : (relationship, source, target) ∈
      segment.select start condition nodes relationships) :
    relationship ∈ relationships ∧ source ∈ nodes ∧ target ∈ nodes := by
  obtain ⟨other, found, selected⟩ := List.mem_filterMap.1 member
  simp only [Option.bind_eq_bind, Option.bind_eq_some_iff] at selected
  obtain ⟨left, leftFound, right, rightFound, accepted⟩ := selected
  split at accepted
  · cases accepted
    exact ⟨found, List.mem_reverse.1 (List.mem_of_find?_eq_some leftFound),
      List.mem_reverse.1 (List.mem_of_find?_eq_some rightFound)⟩
  · cases accepted

/-- The ids that the stored indexes hold for a pattern. -/
def probed (pattern : NodePattern) (useIndex : Bool) : List String :=
  match pattern.label, pattern.properties.entries with
  | some label, [(property, value)] =>
    if useIndex then store.probe executor.directory label property value else []
  | _, _ => []

theorem runWith_probe (pattern : NodePattern) (useIndex : Bool) :
    (executor.probe pattern useIndex).runWith Store.perform store =
      (executor.probed store pattern useIndex, store) := by
  unfold probe probed
  generalize pattern.label = label
  generalize pattern.properties.entries = entries
  match label, entries, useIndex with
  | some label, [(property, value)], true =>
      simp only [if_true, Collections.runWith_probeIndex]
  | some _, [_], false | none, _, _ | some _, [], _ | some _, _ :: _ :: _, _ => rfl

/-- The nodes among which a pattern is looked for when an index holds some ids for it. -/
def narrowed (ids : List String) (nodes : List Node) : List Node :=
  if ids = [] then nodes else nodes.filter fun node => ids.contains node.id

/-- The answer of a match of one node with properties. -/
theorem runWith_matchNode {pattern : NodePattern} (useIndex : Bool)
    (demanding : pattern.properties.entries ≠ []) :
    (executor.matchNode pattern useIndex).runWith Store.perform store =
      ((store.nodes executor.directory).map fun nodes =>
        answerNodes (pattern.select (narrowed (executor.probed store pattern useIndex) nodes))
          " with properties", store) := by
  rw [matchNode, if_neg demanding, Task.runWith_bind_of_ok (Task.runWith_lift _ _ _), runWith_probe,
    Task.runWith_bind, Collections.runWith_loadNodes]
  cases store.nodes executor.directory <;> rfl

private theorem matchNode_stored (pattern : NodePattern) (useIndex : Bool) :
    ∃ result, (executor.matchNode pattern useIndex).runWith Store.perform store = (result, store) ∧
      ∀ answer, result = .ok answer → ListsStored store executor.directory answer := by
  by_cases plain : pattern.properties.entries = []
  · rw [matchNode, if_pos plain, Task.runWith_bind, Collections.runWith_loadNodes]
    cases loaded : store.nodes executor.directory with
    | error error => exact ⟨.error error, rfl, by simp⟩
    | ok nodes =>
        cases label : pattern.label with
        | some label =>
            refine ⟨_, rfl, ?_⟩
            rintro answer ⟨⟩
            refine ⟨?_, by simp [answerNodes]⟩
            rintro others same node member
            cases loaded.symm.trans same
            exact (List.mem_filter.1 member).1
        | none =>
            simp only [Task.runWith_bind, Collections.runWith_loadRelationships]
            cases loadedRelationships : store.relationships executor.directory with
            | error error => exact ⟨.error error, rfl, by simp⟩
            | ok relationships =>
                refine ⟨_, rfl, ?_⟩
                rintro answer ⟨⟩
                constructor
                · rintro others same node member
                  cases loaded.symm.trans same
                  exact member
                · rintro others same relationship member
                  cases loadedRelationships.symm.trans same
                  exact member
  · rw [executor.runWith_matchNode store useIndex plain]
    refine ⟨_, rfl, ?_⟩
    cases loaded : store.nodes executor.directory with
    | error error => exact fun answer same => by cases same
    | ok nodes =>
        rintro answer ⟨⟩
        refine ⟨?_, by simp [answerNodes]⟩
        rintro others same node member
        cases loaded.symm.trans same
        have candidate := (List.mem_filter.1 member).1
        unfold narrowed at candidate
        split at candidate
        · exact candidate
        · exact (List.mem_filter.1 candidate).1

private theorem matchWhere_stored (pattern : NodePattern) (condition : Comparison) :
    ∃ result, (executor.matchWhere pattern condition).runWith Store.perform store =
        (result, store) ∧
      ∀ answer, result = .ok answer → ListsStored store executor.directory answer := by
  rw [matchWhere, Task.runWith_bind, Collections.runWith_loadNodes]
  cases loaded : store.nodes executor.directory with
  | error error => exact ⟨.error error, rfl, by simp⟩
  | ok nodes =>
      refine ⟨_, rfl, ?_⟩
      rintro answer ⟨⟩
      refine ⟨?_, by simp [answerNodes]⟩
      rintro others same node member
      cases loaded.symm.trans same
      exact (List.mem_filter.1 (List.mem_filter.1 member).1).1

private theorem matchPath_stored (start : NodePattern) (segment : Segment)
    (condition : Option Comparison) :
    ∃ result, (executor.matchPath start segment condition).runWith Store.perform store =
        (result, store) ∧
      ∀ answer, result = .ok answer → ListsStored store executor.directory answer := by
  rw [matchPath, Task.runWith_bind, Collections.runWith_loadNodes]
  cases loaded : store.nodes executor.directory with
  | error error => exact ⟨.error error, rfl, by simp⟩
  | ok nodes =>
      simp only [Task.runWith_bind, Collections.runWith_loadRelationships]
      cases loadedRelationships : store.relationships executor.directory with
      | error error => exact ⟨.error error, rfl, by simp⟩
      | ok relationships =>
          refine ⟨_, rfl, ?_⟩
          rintro answer ⟨⟩
          constructor
          · rintro others same node member
            cases loaded.symm.trans same
            obtain ⟨path, found, inPath⟩ := List.mem_flatMap.1 (mem_of_mem_distinctNodes member)
            obtain ⟨-, source, target⟩ := mem_of_mem_select found
            rcases List.mem_cons.1 inPath with rfl | inPath
            · exact source
            · exact List.mem_singleton.1 inPath ▸ target
          · rintro others same relationship member
            cases loadedRelationships.symm.trans same
            obtain ⟨path, found, rfl⟩ := List.mem_map.1 member
            exact (mem_of_mem_select found).1

/-- A match leaves everything as it is and answers with stored entities. -/
theorem executeMatch_stored (query : MatchQuery) (useIndex : Bool) :
    ∃ result, (executor.executeMatch query useIndex).runWith Store.perform store =
        (result, store) ∧
      ∀ answer, result = .ok answer → ListsStored store executor.directory answer := by
  have wrapped : ∀ {task : Task StorageError Answer},
      (∃ result, task.runWith Store.perform store = (result, store) ∧
        ∀ answer, result = .ok answer → ListsStored store executor.directory answer) →
      ∃ result, (task.mapError ExecutionError.storage).runWith Store.perform store =
          (result, store) ∧
        ∀ answer, result = .ok answer → ListsStored store executor.directory answer := by
    rintro task ⟨result, ran, listed⟩
    refine ⟨result.mapError .storage, by rw [Task.runWith_mapError, ran], ?_⟩
    intro answer same
    cases result with
    | error error => cases same
    | ok other =>
        cases same
        exact listed _ rfl
  unfold executeMatch
  split
  · split
    · exact wrapped (executor.matchPath_stored store _ _ _)
    · exact wrapped (executor.matchWhere_stored store _ _)
    · exact wrapped (executor.matchNode_stored store _ _)
  · exact ⟨.error .variableMismatch, rfl, by simp⟩

/-! ## Statements -/

/-- How a statement may end on a store, and the store that it leaves. -/
inductive Effect (executor : Executor) (store : Store) :
    Statement → Except ExecutionError Answer → Store → Prop
  /-- It fails.  If every file can be replaced, nothing was written. -/
  | failed {statement : Statement} {error : ExecutionError} {after : Store}
      (kept : store.IsReliable → after.read = store.read) :
      Effect executor store statement (.error error) after
  /-- The stored nodes and the added ones are saved if there are added ones. -/
  | nodesCreated {patterns : List NewNode} {nodes added : List Node} {number : Nat}
      (loaded : store.nodes executor.directory = .ok nodes) (areNew : AreNew patterns added) :
      Effect executor store (.createNodes patterns) (.ok ⟨"Node(s) created", added, []⟩)
        (executor.maintained (executor.saveGrowth (store.withNumber number) nodes added) added)
  /-- One relationship and the nodes that it needs are added. -/
  | relationshipCreated {start target : NewNode} {type : String} {properties : Properties}
      {nodes added : List Node} {relationships : List Relationship} {number : Nat}
      {startNode endNode : Node} {relationship : Relationship}
      (loaded : store.nodes executor.directory = .ok nodes)
      (loadedRelationships : store.relationships executor.directory = .ok relationships)
      (areNew : AreNew [start, target] added) (addedEnds : added ⊆ [startNode, endNode])
      (startMember : startNode ∈ nodes ++ added)
      (endMember : endNode ∈ nodes ++ added)
      (ownProperties : relationship.properties = properties) :
      Effect executor store (.createRelationship start type properties target)
        (.ok ⟨"Nodes and relationship created", [startNode, endNode], [relationship]⟩)
        (executor.maintained
          (executor.saveRelationship (executor.saveGrowth (store.withNumber number) nodes added)
            relationships relationship) added)
  /-- An index over the stored nodes is saved. -/
  | indexCreated {label property : String} {nodes : List Node} {message : String}
      (loaded : store.nodes executor.directory = .ok nodes) :
      Effect executor store (.createIndex label property) (.ok ⟨message, [], []⟩)
        (executor.saveIndex store nodes label property)
  /-- Stored entities are listed. -/
  | matched {query : MatchQuery} {answer : Answer}
      (listed : ListsStored store executor.directory answer) :
      Effect executor store (.matching query) (.ok answer) store

variable {executor store} in
theorem Effect.ofStorage {statement : Statement} {error : StorageError} {after : Store}
    (kept : store.IsReliable → after.read = store.read) :
    Effect executor store statement (Except.mapError .storage (.error error)) after :=
  .failed kept

/-- Creating nodes adds those that stand for none yet.  If there are none it does not fail on nodes
that load; if every file can be replaced it writes nothing when it fails. -/
theorem runWith_createNodes (patterns : List NewNode) :
    (∃ nodes added, store.nodes executor.directory = .ok nodes ∧
      Grows nodes patterns store.nextNumber added ∧
      (executor.createNodes patterns).runWith Store.perform store =
        (.ok ⟨"Node(s) created", added, []⟩, executor.maintained (executor.saveGrowth
          (store.withNumber (store.nextNumber + added.length)) nodes added) added)) ∨
      (∀ nodes, store.nodes executor.directory = .ok nodes →
          ∃ added, added ≠ [] ∧ Grows nodes patterns store.nextNumber added) ∧
        ∃ error after, (executor.createNodes patterns).runWith Store.perform store =
          (.error error, after) ∧ (store.IsReliable → after.read = store.read) := by
  rw [createNodes, runWith_holding, Task.runWith_bind, Collections.runWith_loadNodes]
  cases loaded : store.nodes executor.directory with
  | error error => exact .inr ⟨fun _ same => (nomatch same), error, store, rfl, fun _ => rfl⟩
  | ok nodes =>
      obtain ⟨added, ran, grows⟩ := runWith_findOrCreateAll store ⟨nodes, []⟩ patterns
      simp only [Task.runWith_bind, Task.runWith_lift, ran, Growth.extend, List.nil_append]
      by_cases none : added = []
      · subst none
        refine .inl ⟨nodes, [], rfl, grows, ?_⟩
        simp [saveGrowth, maintained, IndexCatalog.lacksSome]
      · have some : ∀ others, Except.ok nodes = (.ok others : Except StorageError (List Node)) →
            ∃ added, added ≠ [] ∧ Grows others patterns store.nextNumber added := by
          rintro others ⟨⟩
          exact ⟨added, none, grows⟩
        rw [if_pos none, Task.runWith_bind, Collections.runWith_saveNodes]
        rcases (store.withNumber (store.nextNumber + added.length)).replace_cases
          executor.directory Collections.nodesFile
          (.text ((Json.array ((nodes ++ added).map Node.toJson)).write executor.style))
          with ⟨-, replaced⟩ | ⟨refused, error, refusal⟩
        · rw [replaced]
          simp only [Task.runWith_bind]
          rcases executor.runWith_maintain _ added with filed | ⟨unreliable, error, refusal⟩
          · rw [filed]
            refine .inl ⟨nodes, added, rfl, grows, ?_⟩
            rw [saveGrowth, if_neg none]
            rfl
          · rw [refusal]
            exact .inr ⟨some, error, _, rfl, fun reliable => absurd reliable unreliable⟩
        · rw [refusal]
          exact .inr ⟨some, error, _, rfl, fun reliable => absurd (reliable _) refused⟩

theorem effect_createNodes (patterns : List NewNode) :
    Effect executor store (.createNodes patterns)
      (Except.mapError .storage ((executor.createNodes patterns).runWith Store.perform store).1)
      ((executor.createNodes patterns).runWith Store.perform store).2 := by
  rcases executor.runWith_createNodes store patterns with
    ⟨nodes, added, loaded, grows, ran⟩ | ⟨-, error, after, ran, kept⟩
  · rw [ran]
    exact .nodesCreated loaded grows.areNew
  · rw [ran]
    exact .ofStorage kept

/-- Saving a relationship and filing the added nodes succeeds, or a file cannot be replaced. -/
theorem runWith_saveRelationship (relationships : List Relationship) (relationship : Relationship)
    (added : List Node) (answer : Answer) :
    Task.runWith Store.perform store
        (do
          Collections.saveRelationships executor.directory executor.style
            (relationships ++ [relationship])
          executor.maintain added
          pure answer) =
        (.ok answer, executor.maintained
          (executor.saveRelationship store relationships relationship) added) ∨
      ¬store.IsReliable ∧ ∃ error after, Task.runWith Store.perform store
        (do
          Collections.saveRelationships executor.directory executor.style
            (relationships ++ [relationship])
          executor.maintain added
          pure answer) = (.error error, after) := by
  rw [Task.runWith_bind, Collections.runWith_saveRelationships]
  rcases store.replace_cases executor.directory Collections.relationshipsFile
    (.text ((Json.array ((relationships ++ [relationship]).map Relationship.toJson)).write
      executor.style)) with ⟨-, replaced⟩ | ⟨refused, error, refusal⟩
  · rw [replaced]
    simp only [Task.runWith_bind]
    rcases executor.runWith_maintain _ added with filed | ⟨unreliable, error, refusal⟩
    · rw [filed]
      exact Or.inl rfl
    · rw [refusal]
      exact Or.inr ⟨unreliable, error, _, rfl⟩
  · rw [refusal]
    exact Or.inr ⟨fun reliable => refused (reliable _), error, _, rfl⟩

/-- Saving the added nodes succeeds, or the file of the nodes cannot be replaced. -/
theorem runWith_saveGrowth {α : Type} (nodes added : List Node) (rest : Task StorageError α) :
    Task.runWith Store.perform store
        (if added ≠ [] then do
          Collections.saveNodes executor.directory executor.style (nodes ++ added)
          rest
        else rest) = rest.runWith Store.perform (executor.saveGrowth store nodes added) ∨
      ¬store.IsReliable ∧ ∃ error, Task.runWith Store.perform store
        (if added ≠ [] then do
          Collections.saveNodes executor.directory executor.style (nodes ++ added)
          rest
        else rest) = (.error error, store) := by
  unfold saveGrowth
  by_cases none : added = []
  · subst none
    exact Or.inl rfl
  · rw [if_pos none, if_neg none, Task.runWith_bind, Collections.runWith_saveNodes]
    rcases store.replace_cases executor.directory Collections.nodesFile
      (.text ((Json.array ((nodes ++ added).map Node.toJson)).write executor.style))
      with ⟨-, replaced⟩ | ⟨refused, error, refusal⟩
    · rw [replaced]
      exact Or.inl rfl
    · rw [refusal]
      exact Or.inr ⟨fun reliable => refused (reliable _), error, rfl⟩

/-- Saving the added nodes and a relationship and filing the nodes succeeds, or a file cannot be
replaced. -/
theorem runWith_saveConnection (nodes added : List Node) (relationships : List Relationship)
    (relationship : Relationship) (answer : Answer) :
    let rest : Task StorageError Answer := do
      Collections.saveRelationships executor.directory executor.style
        (relationships ++ [relationship])
      executor.maintain added
      pure answer
    let task : Task StorageError Answer :=
      if added ≠ [] then do
        Collections.saveNodes executor.directory executor.style (nodes ++ added)
        rest
      else rest
    task.runWith Store.perform store = (.ok answer, executor.maintained (executor.saveRelationship
        (executor.saveGrowth store nodes added) relationships relationship) added) ∨
      ¬store.IsReliable ∧ ∃ error after, task.runWith Store.perform store = (.error error, after) := by
  intro rest task
  rcases executor.runWith_saveGrowth store nodes added rest with saved | ⟨unreliable, error, refusal⟩
  · rcases executor.runWith_saveRelationship (executor.saveGrowth store nodes added) relationships
      relationship added answer with ended | ⟨unreliable, error, after, refusal⟩
    · exact .inl (saved.trans ended)
    · refine .inr ⟨fun reliable => unreliable fun name => ?_, error, after, saved.trans refusal⟩
      rw [outcome_saveGrowth]
      exact reliable name
  · exact .inr ⟨unreliable, error, store, refusal⟩

/-- Creating a relationship connects the nodes that stand for its ends, or it fails and, if every
file can be replaced, writes nothing. -/
theorem runWith_createRelationship (start : NewNode) (type : String) (properties : Properties)
    (target : NewNode) :
    (∃ nodes relationships startNode first endNode second number,
      store.nodes executor.directory = .ok nodes ∧
      store.relationships executor.directory = .ok relationships ∧
      Stands nodes start store.nextNumber startNode first ∧
      Stands (nodes ++ first) target (store.nextNumber + first.length) endNode second ∧
      number = store.nextNumber + first.length + second.length ∧
      (executor.createRelationship start type properties target).runWith Store.perform store =
        (.ok ⟨"Nodes and relationship created", [startNode, endNode],
            [⟨Identifier.ofNumber number, startNode.id, endNode.id, type, properties⟩]⟩,
          executor.maintained (executor.saveRelationship
            (executor.saveGrowth (store.withNumber (number + 1)) nodes (first ++ second))
            relationships ⟨Identifier.ofNumber number, startNode.id, endNode.id, type, properties⟩)
            (first ++ second))) ∨
      ∃ error after, (executor.createRelationship start type properties target).runWith
        Store.perform store = (.error error, after) ∧
          (store.IsReliable → after.read = store.read) := by
  rw [createRelationship, runWith_holding, Task.runWith_bind, Collections.runWith_loadNodes]
  cases loaded : store.nodes executor.directory with
  | error error => exact .inr ⟨error, store, rfl, fun _ => rfl⟩
  | ok nodes =>
      simp only [Task.runWith_bind, Collections.runWith_loadRelationships]
      cases loadedRelationships : store.relationships executor.directory with
      | error error => exact .inr ⟨error, store, rfl, fun _ => rfl⟩
      | ok relationships =>
          obtain ⟨startNode, first, ranFirst, startStands⟩ :=
            runWith_findOrCreate store ⟨nodes, []⟩ start
          obtain ⟨endNode, second, ranSecond, endStands⟩ :=
            runWith_findOrCreate (store.withNumber (store.nextNumber + first.length))
              ⟨nodes ++ first, first⟩ target
          obtain ⟨number, number_eq⟩ :
              ∃ number, number = store.nextNumber + first.length + second.length := ⟨_, rfl⟩
          simp only [Task.runWith_lift, ranFirst, Growth.extend, List.nil_append, ranSecond,
            List.append_assoc, Store.withNumber_withNumber]
          rw [Task.runWith_perform]
          simp only [Store.perform, Store.nextNumber_withNumber, Store.withNumber_withNumber,
            ← number_eq]
          rcases executor.runWith_saveConnection (store.withNumber (number + 1)) nodes
            (first ++ second) relationships
            ⟨Identifier.ofNumber number, startNode.id, endNode.id, type, properties⟩
            ⟨"Nodes and relationship created", [startNode, endNode],
              [⟨Identifier.ofNumber number, startNode.id, endNode.id, type, properties⟩]⟩
            with saved | ⟨unreliable, error, after, refusal⟩
          · exact .inl ⟨nodes, relationships, startNode, first, endNode, second, number, rfl, rfl,
              startStands, endStands, number_eq, saved⟩
          · exact .inr ⟨error, after, refusal, fun reliable => absurd reliable unreliable⟩

theorem effect_createRelationship (start : NewNode) (type : String) (properties : Properties)
    (target : NewNode) :
    Effect executor store (.createRelationship start type properties target)
      (Except.mapError .storage ((executor.createRelationship start type properties target).runWith
        Store.perform store).1)
      ((executor.createRelationship start type properties target).runWith
        Store.perform store).2 := by
  rcases executor.runWith_createRelationship store start type properties target with
    ⟨nodes, relationships, startNode, first, endNode, second, number, loaded, loadedRelationships,
      startStands, endStands, -, ran⟩ | ⟨error, after, ran, kept⟩
  · rw [ran]
    have startMember : startNode ∈ nodes ++ (first ++ second) := by
      rw [← List.append_assoc]
      exact List.mem_append_left second startStands.mem
    have endMember : endNode ∈ nodes ++ (first ++ second) := by
      rw [← List.append_assoc]
      exact endStands.mem
    have addedEnds : first ++ second ⊆ [startNode, endNode] :=
      List.append_subset.2 ⟨fun node member => List.mem_cons.2 (.inl
        (List.mem_singleton.1 (startStands.subset member))),
        fun node member => List.mem_cons_of_mem _ (endStands.subset member)⟩
    exact .relationshipCreated loaded loadedRelationships
      (startStands.areNew.append endStands.areNew) addedEnds startMember endMember rfl
  · rw [ran]
    exact .ofStorage kept

/-- Creating an index saves it, or it fails and writes nothing because the nodes do not load or a file
cannot be replaced. -/
theorem runWith_createIndex (label property : String) :
    (∃ nodes, store.nodes executor.directory = .ok nodes ∧
      (executor.createIndex label property).runWith Store.perform store =
        (.ok (PropertyIndex.build nodes label property).size,
          executor.saveIndex store nodes label property)) ∨
      (∀ nodes, store.nodes executor.directory = .ok nodes → ¬store.IsReliable) ∧
        ∃ error, (executor.createIndex label property).runWith Store.perform store =
          (.error error, store) := by
  rw [createIndex, runWith_holding, Collections.createIndex, Task.runWith_bind,
    Collections.runWith_loadNodes]
  cases loaded : store.nodes executor.directory with
  | error error => exact Or.inr ⟨fun _ same => (nomatch same), error, rfl⟩
  | ok nodes =>
      simp only [Task.runWith_bind, Task.runWith_lift, Collections.runWith_loadIndexes,
        Collections.runWith_saveIndexes]
      rcases store.replace_cases executor.directory Collections.indexesFile
        (.text (((store.catalog executor.directory).set label property
          (PropertyIndex.build nodes label property)).toJson.write executor.style))
        with ⟨-, replaced⟩ | ⟨refused, error, refusal⟩
      · rw [replaced]
        exact Or.inl ⟨nodes, rfl, rfl⟩
      · rw [refusal]
        exact Or.inr ⟨fun _ _ reliable => refused (reliable _), error, rfl⟩

/-- Every statement ends in one of the ways listed. -/
theorem effect_executeStatement (statement : Statement) (useIndex : Bool) :
    Effect executor store statement
      ((executor.executeStatement statement useIndex).runWith Store.perform store).1
      ((executor.executeStatement statement useIndex).runWith Store.perform store).2 := by
  cases statement with
  | createNodes patterns =>
      rw [executeStatement, Task.runWith_mapError]
      exact executor.effect_createNodes store patterns
  | createRelationship start type properties target =>
      rw [executeStatement, Task.runWith_mapError]
      exact executor.effect_createRelationship store start type properties target
  | createIndex label property =>
      rw [executeStatement, Task.runWith_bind, Task.runWith_mapError]
      rcases executor.runWith_createIndex store label property with
        ⟨nodes, loaded, created⟩ | ⟨-, error, refusal⟩
      · rw [created]
        exact .indexCreated loaded
      · rw [refusal]
        exact .failed fun _ => rfl
  | matching query =>
      rw [executeStatement]
      obtain ⟨result, ran, listed⟩ := executor.executeMatch_stored store query useIndex
      rw [ran]
      cases result with
      | error error => exact .failed fun _ => rfl
      | ok answer => exact .matched (listed answer rfl)

/-! ## What a statement needs -/

variable {executor}

theorem uses_holding {ε α : Type} {registry : String} {resources : List String}
    {task : Task ε α} (uses : task.run.Uses executor.directory.Touches) :
    (holding registry resources task).run.Uses executor.directory.Concerns := by
  have acquires : ((LockRegistry.collectionOrder resources).forM fun resource =>
      Program.perform (.acquire registry resource)).Uses executor.directory.Concerns :=
    Program.uses_forM fun resource => ⟨trivial, fun _ => trivial⟩
  have releases : ((LockRegistry.collectionOrder resources).forM fun resource =>
      Program.perform (.release registry resource)).Uses executor.directory.Concerns :=
    Program.uses_forM fun resource => ⟨trivial, fun _ => trivial⟩
  exact Program.uses_taskBind (Program.uses_lift acquires) fun _ =>
    Program.uses_ensuring (uses.mono Path.Touches.concerns) releases

theorem uses_findOrCreate {allowed : Action → Prop} (draws : allowed .fresh) (growth : Growth)
    (pattern : NewNode) : (findOrCreate growth pattern).Uses allowed := by
  unfold findOrCreate
  split
  · trivial
  · exact ⟨draws, fun _ => trivial⟩

theorem uses_findOrCreateAll {allowed : Action → Prop} (draws : allowed .fresh) (growth : Growth)
    (patterns : List NewNode) : (findOrCreateAll growth patterns).Uses allowed := by
  induction patterns generalizing growth with
  | nil => trivial
  | cons pattern rest ih =>
      exact Program.uses_bind (uses_findOrCreate draws growth pattern) fun found => ih found.2

theorem uses_maintain (created : List Node) :
    (executor.maintain created).run.Uses executor.directory.Touches := by
  unfold maintain
  split
  · exact Collections.uses_indexNodes _ _
  · trivial

/-- Nodes are created under the locks of the nodes and the indexes. -/
theorem createNodes_eq_holding (executor : Executor) (patterns : List NewNode) :
    ∃ body : Task StorageError Answer, executor.createNodes patterns =
        holding executor.registry [LockRegistry.nodes, LockRegistry.indexes] body ∧
      body.run.Uses executor.directory.Touches := by
  refine ⟨_, rfl, Program.uses_taskBind Collections.uses_loadNodes fun nodes => ?_⟩
  refine Program.uses_taskBind (Program.uses_lift (uses_findOrCreateAll trivial _ _)) fun growth => ?_
  split
  · exact Program.uses_taskBind (Collections.uses_saveNodes _ _) fun _ =>
      Program.uses_taskBind (uses_maintain _) fun _ => trivial
  · trivial

/-- A relationship is created under all locks. -/
theorem createRelationship_eq_holding (executor : Executor) (start : NewNode) (type : String)
    (properties : Properties) (target : NewNode) :
    ∃ body : Task StorageError Answer,
      executor.createRelationship start type properties target =
        holding executor.registry LockRegistry.collections body ∧
      body.run.Uses executor.directory.Touches := by
  have saves : ∀ (growth : Query.Executor.Growth) (relationships : List Relationship)
      (answer : Answer), Program.Uses executor.directory.Touches (do
        Collections.saveRelationships executor.directory executor.style relationships
        executor.maintain growth.created
        pure answer : Task StorageError Answer).run := by
    intro growth relationships answer
    exact Program.uses_taskBind (Collections.uses_saveRelationships _ _) fun _ =>
      Program.uses_taskBind (uses_maintain _) fun _ => trivial
  refine ⟨_, rfl, Program.uses_taskBind Collections.uses_loadNodes fun nodes => ?_⟩
  refine Program.uses_taskBind Collections.uses_loadRelationships fun relationships => ?_
  refine Program.uses_taskBind (Program.uses_lift (uses_findOrCreate trivial _ _)) fun first => ?_
  refine Program.uses_taskBind (Program.uses_lift (uses_findOrCreate trivial _ _)) fun second => ?_
  have draws : (Program.perform .fresh).Uses executor.directory.Touches :=
    ⟨trivial, fun _ => trivial⟩
  refine Program.uses_taskBind (Program.uses_lift draws) fun number => ?_
  split
  · exact Program.uses_taskBind (Collections.uses_saveNodes _ _) fun _ => saves _ _ _
  · exact saves _ _ _

theorem uses_createNodes (patterns : List NewNode) :
    (executor.createNodes patterns).run.Uses executor.directory.Concerns := by
  obtain ⟨body, same, uses⟩ := executor.createNodes_eq_holding patterns
  rw [same]
  exact uses_holding uses

theorem uses_createRelationship (start : NewNode) (type : String) (properties : Properties)
    (target : NewNode) :
    (executor.createRelationship start type properties target).run.Uses
      executor.directory.Concerns := by
  obtain ⟨body, same, uses⟩ :=
    executor.createRelationship_eq_holding start type properties target
  rw [same]
  exact uses_holding uses

theorem uses_createIndex (label property : String) :
    (executor.createIndex label property).run.Uses executor.directory.Concerns :=
  uses_holding (Collections.uses_createIndex _ label property)

theorem uses_executeMatch (query : MatchQuery) (useIndex : Bool) :
    (executor.executeMatch query useIndex).run.Uses executor.directory.Touches := by
  unfold executeMatch
  split
  · refine Program.uses_mapError _ ?_
    split
    · exact Program.uses_taskBind Collections.uses_loadNodes fun _ =>
        Program.uses_taskBind Collections.uses_loadRelationships fun _ => trivial
    · exact Program.uses_taskBind Collections.uses_loadNodes fun _ => trivial
    · unfold matchNode
      split
      · refine Program.uses_taskBind Collections.uses_loadNodes fun nodes => ?_
        split
        · exact Program.uses_taskBind Collections.uses_loadRelationships fun _ => trivial
        · trivial
      · refine Program.uses_taskBind (Program.uses_lift ?_) fun _ =>
          Program.uses_taskBind Collections.uses_loadNodes fun _ => trivial
        unfold probe
        split
        · split
          · exact Collections.uses_probeIndex _ _ _
          · trivial
        · trivial
  · trivial

/-- Executing a text concerns the collections of one directory only. -/
theorem uses_execute (source : String) (useIndex : Bool) :
    (executor.execute source useIndex).run.Uses executor.directory.Concerns := by
  unfold execute
  split
  · trivial
  · unfold executeStatement
    split
    · exact Program.uses_mapError _ (uses_createNodes _)
    · exact Program.uses_mapError _ (uses_createRelationship _ _ _ _)
    · exact Program.uses_taskBind (Program.uses_mapError _ (uses_createIndex _ _)) fun _ => trivial
    · exact (uses_executeMatch _ _).mono Path.Touches.concerns

end Executor
end Query
end GraphStore
