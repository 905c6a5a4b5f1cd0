import GraphStore.Proofs.Index.Documents
import GraphStore.Proofs.Query.Progress

/-!
# Stale indexes

Without maintenance an index holds what was filed when it was built the last time.  A match that
probes it finds, of the nodes that it finds without it, those that were filed then; only if none was
filed under its value does it find them all.
-/

namespace GraphStore

/-! ## What was filed -/

/-- The builds of indexes, the latest first: which pair of label and property was indexed, and over
which nodes. -/
abbrev IndexBuilds : Type :=
  List ((String × String) × List Node)

namespace IndexBuilds

variable (builds : IndexBuilds) (first : IndexCatalog)

/-- The index over a pair as it was built the last time, or what it was at first. -/
def index? (label property : String) : Option PropertyIndex :=
  match builds.lookup (label, property) with
  | some nodes => some (.build nodes label property)
  | none => first.get? label property

theorem index?_cons (label property : String) (nodes : List Node) (other otherProperty : String) :
    index? (((label, property), nodes) :: builds) first other otherProperty =
      if other = label ∧ otherProperty = property then some (.build nodes label property)
      else builds.index? first other otherProperty := by
  unfold index?
  by_cases same : other = label ∧ otherProperty = property
  · obtain ⟨rfl, rfl⟩ := same
    simp
  · have differs : ((other, otherProperty) == (label, property)) = false := by simpa using same
    rw [if_neg same, List.lookup_cons, differs]

/-- The ids that an index holds for a pattern: those of the nodes that the pattern accepted when the
index was built the last time, or what it held at first. -/
def filed (pattern : Query.NodePattern) : List String :=
  match pattern.label, pattern.properties.entries with
  | some label, [(property, value)] =>
    match builds.lookup (label, property) with
    | some nodes => (pattern.select nodes).map Node.id
    | none => ((first.get? label property).map fun index => index.lookup value).getD []
  | _, _ => []

/-- The ids that an index holds for a match, which probes it only for a single node without a
condition. -/
def filedFor (query : Query.MatchQuery) : List String :=
  match query.pattern.segment, query.condition with
  | none, none => builds.filed first query.pattern.start
  | _, _ => []

end IndexBuilds

/-- An answer with only those nodes that have one of some ids, if there are such ids. -/
def Query.Answer.among (answer : Answer) (ids : List String) : Answer :=
  if ids = [] then answer
  else answerNodes (answer.nodes.filter fun node => ids.contains node.id) " with properties"

theorem Query.map_among_nil {ε : Type} (result : Except ε Answer) :
    (result.map fun answer => answer.among []) = result := by
  cases result <;> rfl

/-- A response with only those nodes that have one of some ids, if there are such ids. -/
def Query.Response.among (ids : List String) : Response → Response
  | success answer => success (answer.among ids)
  | failure message => failure message

theorem Query.Response.ofResult_among (result : Except ExecutionError Answer) (ids : List String) :
    ofResult (result.map fun answer => answer.among ids) = (ofResult result).among ids := by
  cases result <;> rfl

/-- The ids that a catalog holds for a text, if that is a match. -/
def Query.filedFor (catalog : IndexCatalog) (source : String) : List String :=
  match parse source with
  | .ok (.matching query) => IndexBuilds.filedFor [] catalog query
  | _ => []

namespace Store

variable {store : Store} {directory : Path} {first : IndexCatalog} {builds : IndexBuilds}

/-- The nodes that load from a directory, or none if they do not load. -/
def loadedNodes (store : Store) (directory : Path) : List Node :=
  (store.nodes directory).toOption.getD []

/-- Whether the stored indexes are those that were built the last time. -/
def Recalls (store : Store) (first : IndexCatalog) (builds : IndexBuilds) : Prop :=
  ∀ directory label property,
    (store.catalog directory).get? label property = builds.index? first label property

/-- The stored indexes depend on what can be read of their file. -/
theorem catalog_of_toOption {other : Store}
    (same : (other.read Collections.indexesFile).toOption =
      (store.read Collections.indexesFile).toOption) (directory : Path) :
    other.catalog directory = store.catalog directory := by
  rw [catalog_eq, catalog_eq, indexDocument, indexDocument]
  cases found : store.read Collections.indexesFile with
  | ok content =>
      rw [found] at same
      cases foundOther : other.read Collections.indexesFile with
      | ok content =>
          rw [foundOther] at same
          cases same
          rfl
      | error fault =>
          rw [foundOther] at same
          cases same
  | error fault =>
      rw [found] at same
      cases foundOther : other.read Collections.indexesFile with
      | ok content =>
          rw [foundOther] at same
          cases same
      | error other => cases fault <;> cases other <;> rfl

theorem catalog_path (store : Store) (directory other : Path) :
    store.catalog directory = store.catalog other := by
  rw [catalog_eq, catalog_eq, indexDocument_path store directory other]

theorem recalls_nil (store : Store) (directory : Path) :
    store.Recalls (store.catalog directory) [] :=
  fun other _ _ => by rw [catalog_path store other directory]; rfl

theorem Recalls.congr (recalls : store.Recalls first builds) {other : Store}
    (same : (other.read Collections.indexesFile).toOption =
      (store.read Collections.indexesFile).toOption) : other.Recalls first builds :=
  fun directory label property => by
    rw [catalog_of_toOption same]
    exact recalls directory label property

end Store

namespace Query
namespace Executor

variable {executor : Executor} {store : Store} {first : IndexCatalog} {builds : IndexBuilds}

theorem recalls_saveIndex (recalls : store.Recalls first builds) (nodes : List Node)
    (label property : String) :
    (executor.saveIndex store nodes label property).Recalls first
      (((label, property), nodes) :: builds) := by
  intro directory otherLabel otherProperty
  have reduced := (store.isReduced_catalog executor.directory).set label property
    (PropertyIndex.isReduced_build nodes label property)
  rw [saveIndex, Store.catalog_put store directory executor.style reduced, IndexCatalog.get?_set,
    IndexBuilds.index?_cons, recalls]

/-! ## Matches -/

/-- Probing the stored indexes for a pattern finds what was filed. -/
theorem mem_probed_iff (recalls : store.Recalls first builds) (pattern : NodePattern) (id : String) :
    id ∈ executor.probed store pattern true ↔ id ∈ builds.filed first pattern := by
  unfold probed
  split
  · next label property value labelled single =>
      rw [if_pos rfl, Store.mem_probe_iff, recalls, IndexBuilds.index?, IndexBuilds.filed]
      simp only [labelled, single]
      cases builds.lookup (label, property) with
      | none => rfl
      | some nodes =>
          rw [Option.map_some, Option.getD_some, mem_lookup_build_iff labelled single]
          simp only [NodePattern.select, List.mem_map, List.mem_filter, and_assoc, eq_comm]
  · next none =>
      unfold IndexBuilds.filed
      split
      · next labelled single => exact absurd single (none _ _ _ labelled)
      · rfl

/-- Of the nodes that an index leaves, a pattern selects those of which the ids are left. -/
theorem answerNodes_narrowed {ids : List String} {others : List String}
    (same : ∀ id, id ∈ ids ↔ id ∈ others) (pattern : NodePattern) (nodes : List Node) :
    answerNodes (pattern.select (narrowed ids nodes)) " with properties" =
      (answerNodes (pattern.select nodes) " with properties").among others := by
  unfold narrowed Answer.among
  by_cases none : ids = []
  · subst none
    have noneOther : others = [] := List.eq_nil_iff_forall_not_mem.2 fun id member =>
      List.not_mem_nil ((same id).2 member)
    rw [if_pos rfl, if_pos noneOther]
  · have someOther : others ≠ [] := by
      rintro rfl
      exact none (List.eq_nil_iff_forall_not_mem.2 fun id member =>
        List.not_mem_nil ((same id).1 member))
    have contains : ∀ node : Node, ids.contains node.id = others.contains node.id := fun node => by
      rw [Bool.eq_iff_iff, List.contains_iff_mem, List.contains_iff_mem, same]
    rw [if_neg none, if_neg someOther]
    simp only [NodePattern.select, answerNodes, List.filter_filter, contains, Bool.and_comm]

/-- A match of one node that probes the indexes answers with those nodes that were filed. -/
theorem runWith_matchNode_among (recalls : store.Recalls first builds) (pattern : NodePattern) :
    ((executor.matchNode pattern true).runWith Store.perform store).1 =
      ((executor.matchNode pattern false).runWith Store.perform store).1.map fun answer =>
        answer.among (builds.filed first pattern) := by
  by_cases plain : pattern.properties.entries = []
  · have none : builds.filed first pattern = [] := by
      unfold IndexBuilds.filed
      rw [plain]
      cases pattern.label <;> rfl
    have same : executor.matchNode pattern true = executor.matchNode pattern false := by
      rw [matchNode, matchNode, if_pos plain, if_pos plain]
    rw [same, none, Query.map_among_nil]
  · have unprobed : executor.probed store pattern false = [] := by
      unfold probed
      split <;> rfl
    rw [executor.runWith_matchNode store true plain, executor.runWith_matchNode store false plain,
      unprobed]
    cases store.nodes executor.directory with
    | error error => rfl
    | ok nodes =>
        exact congrArg Except.ok
          (answerNodes_narrowed (mem_probed_iff recalls pattern) pattern nodes)

/-- A match that probes the indexes answers with those nodes that were filed. -/
theorem runWith_executeMatch_among (recalls : store.Recalls first builds) (query : MatchQuery) :
    ((executor.executeMatch query true).runWith Store.perform store).1 =
      ((executor.executeMatch query false).runWith Store.perform store).1.map fun answer =>
        answer.among (builds.filedFor first query) := by
  unfold executeMatch IndexBuilds.filedFor
  split
  · rw [Task.runWith_mapError, Task.runWith_mapError]
    cases segment : query.pattern.segment with
    | some segment => exact (Query.map_among_nil _).symm
    | none =>
        cases condition : query.condition with
        | some condition => exact (Query.map_among_nil _).symm
        | none =>
            have same := executor.runWith_matchNode_among recalls query.pattern.start
            simp only [same]
            cases ((executor.matchNode query.pattern.start false).runWith Store.perform store).1 <;>
              rfl
  · rfl

/-! ## Statements -/

/-- Only a match asks whether indexes are to be probed. -/
theorem execute_useIndex_of_not_matching (executor : Executor) {source : String}
    (other : ∀ query, parse source ≠ .ok (.matching query)) (first second : Bool) :
    executor.execute source first = executor.execute source second := by
  rw [execute, execute]
  cases parsed : parse source with
  | error error => rfl
  | ok statement =>
      cases statement with
      | matching query => exact absurd parsed (other query)
      | createNodes | createRelationship | createIndex => rfl

/-- A text that probes the indexes is answered with those nodes that they hold. -/
theorem runWith_execute_among (executor : Executor) (store : Store) (source : String) :
    ((executor.execute source true).runWith Store.perform store).1 =
      ((executor.execute source false).runWith Store.perform store).1.map fun answer =>
        answer.among (filedFor (store.catalog executor.directory) source) := by
  by_cases isMatch : ∃ query, parse source = .ok (.matching query)
  · obtain ⟨query, parsed⟩ := isMatch
    rw [executor.execute_of_parse parsed, executor.execute_of_parse parsed, filedFor, parsed]
    exact executor.runWith_executeMatch_among (store.recalls_nil executor.directory) query
  · have other : ∀ query, parse source ≠ .ok (.matching query) := not_exists.1 isMatch
    have none : filedFor (store.catalog executor.directory) source = [] := by
      unfold filedFor
      split
      · next query parsed => exact absurd parsed (other query)
      · rfl
    rw [executor.execute_useIndex_of_not_matching other true false, none, map_among_nil]

/-- An index that is created is recalled as it was built. -/
theorem recalls_createIndex (recalls : store.Recalls first builds) (label property : String) :
    let ran := (executor.createIndex label property).runWith Store.perform store
    ran.2.Recalls first (if ran.1.isOk then
      ((label, property), store.loadedNodes executor.directory) :: builds else builds) := by
  rcases executor.runWith_createIndex store label property with
    ⟨nodes, loaded, created⟩ | ⟨-, error, refusal⟩
  · rw [created, Store.loadedNodes, loaded]
    exact recalls_saveIndex recalls nodes label property
  · rw [refusal]
    exact recalls

/-- Without maintenance only the creation of an index changes what is recalled. -/
theorem recalls_execute (unmaintained : executor.maintainIndexes = false)
    (recalls : store.Recalls first builds) (source : String) (useIndex : Bool) :
    let ran := (executor.execute source useIndex).runWith Store.perform store
    ran.2.Recalls first ((indexedBy source ran.1).map
      (fun pair => (pair, store.loadedNodes executor.directory)) ++ builds) := by
  intro ran
  have progress := (@advances_execute store executor source useIndex).runWith
  have keeps : (statementOf source).indexed = [] → ran.2.Recalls first builds := fun none =>
    recalls.congr (congrArg Except.toOption (progress.indexes unmaintained none))
  unfold indexedBy
  cases parsed : parse source with
  | error error => exact keeps (by rw [statementOf, parsed]; rfl)
  | ok statement =>
      cases statement with
      | createIndex label property =>
          have created := executor.recalls_createIndex recalls label property
          have runs : ran = Task.runWith Store.perform store
              (executor.executeStatement (.createIndex label property) useIndex) := by
            simp only [ran, execute, parsed]
          rw [executeStatement, Task.runWith_bind, Task.runWith_mapError] at runs
          rcases both : (executor.createIndex label property).runWith Store.perform store with
            ⟨result, after⟩
          rw [both] at created runs
          rw [runs]
          cases result with
          | error error => exact created
          | ok size => exact created
      | _ =>
          have kept := keeps (by rw [statementOf, parsed]; rfl)
          cases ran.1 with
          | error error => exact kept
          | ok answer => exact kept

end Executor
end Query
end GraphStore
