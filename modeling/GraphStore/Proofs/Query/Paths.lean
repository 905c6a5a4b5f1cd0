import GraphStore.Proofs.Query.Saves

/-!
# Matches of paths

A relationship is what a path pattern asks for if it can be read from a stored node on the left to
one on the right such that the direction, both node patterns and the condition are met in this one
reading.  A match answers exactly these relationships and the nodes where they start and end.
-/

namespace GraphStore

namespace Program

variable {α : Type} {directory : Path} {files : List String} {program : Program α}

/-- Who only loads files leaves the world as it was. -/
theorem Loads.run_snd (loads : program.Loads directory files) (world : World) :
    (world.run program).2 = world := by
  induction program generalizing files with
  | done value => rfl
  | act action next ih =>
      obtain ⟨name, rest, -, rfl, later⟩ := loads
      exact ih _ (later _)

end Program

namespace Query

variable {direction : Direction} {start : NodePattern} {segment : Segment}
  {condition : Option Comparison} {nodes : List Node} {relationships : List Relationship}
  {relationship : Relationship} {left right : Node}

/-! ## What is asked for -/

/-- Whether a direction lets a relationship be read from a left node to a right one. -/
def Direction.Allows (direction : Direction) (relationship : Relationship) (left right : Node) :
    Prop :=
  direction ≠ .incoming ∧ left.id = relationship.startNode ∧ right.id = relationship.endNode ∨
    direction ≠ .outgoing ∧ left.id = relationship.endNode ∧ right.id = relationship.startNode

instance decidableAllows : Decidable (direction.Allows relationship left right) :=
  inferInstanceAs (Decidable (_ ∨ _))

/-- The direction of the same arrow when it is written from right to left. -/
def Direction.mirrored : Direction → Direction
  | .outgoing => .incoming
  | .incoming => .outgoing
  | .undirected => .undirected

/-- The same segment with an arrow in another direction. -/
def Segment.inDirection (segment : Segment) (direction : Direction) : Segment :=
  { segment with relationship.direction := direction }

/-- The segment of the path that is written from right to left, after the old target. -/
def Segment.mirrored (segment : Segment) (start : NodePattern) : Segment :=
  ⟨{ segment.relationship with direction := segment.relationship.direction.mirrored }, start⟩

/-- The variables of a path and the properties of what they name, left node, right node and
relationship. -/
def Segment.bindings (segment : Segment) (start : NodePattern) (relationship : Relationship)
    (left right : Node) : List (Option String × Properties) :=
  [(start.variableName, left.properties), (segment.target.variableName, right.properties),
    (segment.relationship.variableName, relationship.properties)]

/-- Whether a relationship that is read from left to right is what a path pattern with a condition
describes. -/
structure Segment.Describes (segment : Segment) (start : NodePattern)
    (condition : Option Comparison) (relationship : Relationship) (left right : Node) : Prop where
  allowed : segment.relationship.direction.Allows relationship left right
  acceptsLeft : start.accepts left
  acceptsRight : segment.target.accepts right
  holds : ∀ comparison ∈ condition, ∃ properties ∈
    (segment.bindings start relationship left right).lookup (some comparison.variableName),
    comparison.holds properties

/-- Whether a path pattern with a condition asks for a relationship, given the stored nodes. -/
def Segment.AsksFor (segment : Segment) (start : NodePattern) (condition : Option Comparison)
    (nodes : List Node) (relationship : Relationship) : Prop :=
  relationship.satisfies segment.relationship.type segment.relationship.properties ∧
    ∃ left ∈ nodes, ∃ right ∈ nodes, segment.Describes start condition relationship left right

instance decidableDescribes :
    Decidable (segment.Describes start condition relationship left right) :=
  decidable_of_iff
    (segment.relationship.direction.Allows relationship left right ∧ start.accepts left ∧
      segment.target.accepts right ∧ ∀ comparison ∈ condition, ∃ properties ∈
        (segment.bindings start relationship left right).lookup (some comparison.variableName),
        comparison.holds properties)
    ⟨fun ⟨allowed, acceptsLeft, acceptsRight, holds⟩ =>
        ⟨allowed, acceptsLeft, acceptsRight, holds⟩,
      fun described => ⟨described.allowed, described.acceptsLeft, described.acceptsRight,
        described.holds⟩⟩

instance decidableAsksFor :
    DecidablePred (segment.AsksFor start condition nodes) :=
  fun _ => inferInstanceAs (Decidable (_ ∧ _))

/-- The ids of the nodes where relationships start and end, in the order of their first
occurrence. -/
def endpoints (relationships : List Relationship) : List String :=
  (relationships.flatMap fun relationship =>
    [relationship.startNode, relationship.endNode]).eraseDups

/-! ## Stored nodes -/

theorem nodeWithId?_eq_some_iff (distinct : (nodes.map Node.id).Nodup) {id : String} {node : Node} :
    nodeWithId? nodes id = some node ↔ node ∈ nodes ∧ node.id = id := by
  constructor
  · intro found
    exact ⟨List.mem_reverse.1 (List.mem_of_find?_eq_some found),
      by simpa using List.find?_some found⟩
  · rintro ⟨member, rfl⟩
    cases found : nodeWithId? nodes node.id with
    | none =>
        have differs := List.find?_eq_none.1 found node (List.mem_reverse.2 member)
        simp at differs
    | some other =>
        have otherMember := List.mem_reverse.1 (List.mem_of_find?_eq_some found)
        have sameId : other.id = node.id := by simpa using List.find?_some found
        rw [List.inj_on_of_nodup_map distinct otherMember member sameId]

/-- Stored nodes can be told from their ids. -/
theorem filterMap_nodeWithId? (distinct : (nodes.map Node.id).Nodup) {chosen : List Node}
    (stored : chosen ⊆ nodes) : (chosen.map Node.id).filterMap (nodeWithId? nodes) = chosen := by
  have found : ∀ node ∈ chosen, nodeWithId? nodes node.id = some node := fun node member =>
    (nodeWithId?_eq_some_iff distinct).2 ⟨stored member, rfl⟩
  rw [List.filterMap_map, Function.comp_def, List.filterMap_congr found, List.filterMap_some]

/-- Without the nodes that were seen before, the ids of distinct nodes are those that are left when
repetitions are erased. -/
theorem map_id_distinctNodes (seen : List String) (nodes : List Node) :
    (distinctNodes seen nodes).map Node.id =
      ((nodes.map Node.id).filter (!seen.contains ·)).eraseDups := by
  induction nodes generalizing seen with
  | nil => rfl
  | cons node rest ih =>
      rw [distinctNodes, List.map_cons, List.filter_cons]
      by_cases known : seen.contains node.id
      · rw [if_pos known, if_neg (by simpa using known), ih]
      · rw [if_neg known, if_pos (by simpa using known), List.eraseDups_cons, List.map_cons, ih,
          List.filter_filter]
        congr 3
        funext id
        rw [List.contains_cons, Bool.not_or]

/-! ## Readings of a relationship -/

theorem lookup_cons_some {α : Type} (name : String) (entry : Option String × α)
    (rest : List (Option String × α)) :
    (entry :: rest).lookup (some name) =
      if entry.1 = some name then some entry.2 else rest.lookup (some name) := by
  obtain ⟨first, value⟩ := entry
  by_cases same : first = some name
  · simp [same]
  · have skip : (some name == first) = false := beq_eq_false_iff_ne.2 (Ne.symm same)
    simp [List.lookup_cons, skip, same]

theorem holdsOnPath_iff {comparison : Comparison} :
    comparison.holdsOnPath start segment left right relationship ↔
      ∃ properties ∈
        (segment.bindings start relationship left right).lookup (some comparison.variableName),
        comparison.holds properties := by
  simp only [Comparison.holdsOnPath, NodePattern.binds, beq_iff_eq, Segment.bindings,
    lookup_cons_some, List.lookup_nil]
  split
  · simp
  · split
    · simp
    · split <;> simp

theorem mem_orientations_iff {source target : Node} :
    (left, right) ∈ direction.orientations source target ↔
      direction ≠ .incoming ∧ left = source ∧ right = target ∨
        direction ≠ .outgoing ∧ left = target ∧ right = source := by
  cases direction <;> simp [Direction.orientations]

/-- A relationship between two nodes is accepted if one of its readings is described. -/
theorem accepts_iff {source target : Node} :
    segment.accepts start condition relationship source target ↔
      relationship.satisfies segment.relationship.type segment.relationship.properties ∧
        ∃ left right, (left, right) ∈ segment.relationship.direction.orientations source target ∧
          start.accepts left ∧ segment.target.accepts right ∧
            ∀ comparison ∈ condition, ∃ properties ∈
              (segment.bindings start relationship left right).lookup
                (some comparison.variableName), comparison.holds properties := by
  simp only [Segment.accepts, Bool.and_eq_true, List.any_eq_true, Prod.exists, Option.all_eq_true,
    holdsOnPath_iff, and_assoc, Option.mem_def]

/-- Given nodes with distinct ids, a pattern asks for a relationship if both its nodes are stored and
it is accepted between them. -/
theorem asksFor_iff (distinct : (nodes.map Node.id).Nodup) :
    segment.AsksFor start condition nodes relationship ↔
      ∃ source target, nodeWithId? nodes relationship.startNode = some source ∧
        nodeWithId? nodes relationship.endNode = some target ∧
          segment.accepts start condition relationship source target := by
  simp only [nodeWithId?_eq_some_iff distinct, accepts_iff, mem_orientations_iff]
  constructor
  · rintro ⟨satisfies, left, leftMember, right, rightMember, described⟩
    rcases described.allowed with ⟨way, starts, ends⟩ | ⟨way, ends, starts⟩
    · exact ⟨left, right, ⟨leftMember, starts⟩, ⟨rightMember, ends⟩, satisfies, left, right,
        .inl ⟨way, rfl, rfl⟩, described.acceptsLeft, described.acceptsRight, described.holds⟩
    · exact ⟨right, left, ⟨rightMember, starts⟩, ⟨leftMember, ends⟩, satisfies, left, right,
        .inr ⟨way, rfl, rfl⟩, described.acceptsLeft, described.acceptsRight, described.holds⟩
  · rintro ⟨source, target, ⟨sourceMember, starts⟩, ⟨targetMember, ends⟩, satisfies, left, right,
      oriented, acceptsLeft, acceptsRight, holds⟩
    rcases oriented with ⟨way, rfl, rfl⟩ | ⟨way, rfl, rfl⟩
    · exact ⟨satisfies, left, sourceMember, right, targetMember, .inl ⟨way, starts, ends⟩,
        acceptsLeft, acceptsRight, holds⟩
    · exact ⟨satisfies, left, targetMember, right, sourceMember, .inr ⟨way, ends, starts⟩,
        acceptsLeft, acceptsRight, holds⟩

/-! ## Selections -/

theorem mem_select_iff {source target : Node} :
    (relationship, source, target) ∈ segment.select start condition nodes relationships ↔
      relationship ∈ relationships ∧ nodeWithId? nodes relationship.startNode = some source ∧
        nodeWithId? nodes relationship.endNode = some target ∧
          segment.accepts start condition relationship source target := by
  simp only [Segment.select, List.mem_filterMap, Option.bind_eq_bind, Option.bind_eq_some_iff]
  constructor
  · rintro ⟨other, member, left, leftFound, right, rightFound, chosen⟩
    split at chosen
    · next accepted =>
        cases chosen
        exact ⟨member, leftFound, rightFound, accepted⟩
    · cases chosen
  · rintro ⟨member, sourceFound, targetFound, accepted⟩
    exact ⟨relationship, member, source, sourceFound, target, targetFound, if_pos accepted⟩

theorem map_fst_select (distinct : (nodes.map Node.id).Nodup) :
    (segment.select start condition nodes relationships).map Prod.fst =
      relationships.filter (segment.AsksFor start condition nodes) := by
  rw [Segment.select, List.map_filterMap, ← List.filterMap_eq_filter]
  refine List.filterMap_congr fun relationship _ => ?_
  by_cases asks : segment.AsksFor start condition nodes relationship
  · obtain ⟨source, target, sourceFound, targetFound, accepted⟩ := (asksFor_iff distinct).1 asks
    simp [sourceFound, targetFound, accepted, asks, Option.guard]
  · have refused := mt (asksFor_iff distinct).2 asks
    simp only [not_exists, not_and] at refused
    cases sourceFound : nodeWithId? nodes relationship.startNode with
    | none => simp [asks, Option.guard]
    | some source =>
        cases targetFound : nodeWithId? nodes relationship.endNode with
        | none => simp [asks, Option.guard]
        | some target => simp [asks, Option.guard, refused source target sourceFound targetFound]

theorem map_id_answerPaths (distinct : (nodes.map Node.id).Nodup) :
    (answerPaths direction (segment.select start condition nodes relationships)).nodes.map Node.id =
      endpoints ((segment.select start condition nodes relationships).map Prod.fst) := by
  rw [answerPaths, map_id_distinctNodes, endpoints, List.map_flatMap, List.flatMap_map]
  have sameIds : ∀ path ∈ segment.select start condition nodes relationships,
      [path.2.1, path.2.2].map Node.id = [path.1.startNode, path.1.endNode] := by
    rintro ⟨relationship, source, target⟩ member
    obtain ⟨-, sourceFound, targetFound, -⟩ := mem_select_iff.1 member
    simp [((nodeWithId?_eq_some_iff distinct).1 sourceFound).2,
      ((nodeWithId?_eq_some_iff distinct).1 targetFound).2]
  rw [List.flatMap_congr sameIds, List.filter_eq_self.2]
  exact fun id _ => by simp

/-! ## Other directions -/

theorem allows_undirected_iff :
    Direction.undirected.Allows relationship left right ↔
      Direction.outgoing.Allows relationship left right ∨
        Direction.incoming.Allows relationship left right := by
  simp [Direction.Allows]

theorem allows_mirrored_iff :
    direction.mirrored.Allows relationship right left ↔ direction.Allows relationship left right := by
  cases direction <;> simp [Direction.Allows, Direction.mirrored, and_comm, or_comm]

theorem lookup_mirrored {name : String}
    (single : start.variableName ≠ some name ∨ segment.target.variableName ≠ some name) :
    ((segment.mirrored start).bindings segment.target relationship right left).lookup (some name) =
      (segment.bindings start relationship left right).lookup (some name) := by
  simp only [Segment.bindings, Segment.mirrored, lookup_cons_some]
  by_cases named : start.variableName = some name
  · have other := single.resolve_left (not_not.2 named)
    rw [if_neg other, if_pos named, if_pos named]
  · rw [if_neg named, if_neg named]

theorem asksFor_undirected_iff :
    (segment.inDirection .undirected).AsksFor start condition nodes relationship ↔
      (segment.inDirection .outgoing).AsksFor start condition nodes relationship ∨
        (segment.inDirection .incoming).AsksFor start condition nodes relationship := by
  have described (left right : Node) :
      (segment.inDirection .undirected).Describes start condition relationship left right ↔
        (segment.inDirection .outgoing).Describes start condition relationship left right ∨
          (segment.inDirection .incoming).Describes start condition relationship left right := by
    constructor
    · rintro ⟨allowed, acceptsLeft, acceptsRight, holds⟩
      exact (allows_undirected_iff.1 allowed).imp
        (⟨·, acceptsLeft, acceptsRight, holds⟩) (⟨·, acceptsLeft, acceptsRight, holds⟩)
    · rintro (⟨allowed, acceptsLeft, acceptsRight, holds⟩ |
        ⟨allowed, acceptsLeft, acceptsRight, holds⟩)
      · exact ⟨allows_undirected_iff.2 (.inl allowed), acceptsLeft, acceptsRight, holds⟩
      · exact ⟨allows_undirected_iff.2 (.inr allowed), acceptsLeft, acceptsRight, holds⟩
  simp only [Segment.AsksFor, described, and_or_left, exists_or]
  rfl

theorem asksFor_mirrored_iff
    (single : ∀ name, start.variableName ≠ some name ∨ segment.target.variableName ≠ some name) :
    (segment.mirrored start).AsksFor segment.target condition nodes relationship ↔
      segment.AsksFor start condition nodes relationship := by
  have described (left right : Node) :
      (segment.mirrored start).Describes segment.target condition relationship right left ↔
        segment.Describes start condition relationship left right := by
    constructor
    · rintro ⟨allowed, acceptsRight, acceptsLeft, holds⟩
      simp only [lookup_mirrored (single _)] at holds
      exact ⟨allows_mirrored_iff.1 allowed, acceptsLeft, acceptsRight, holds⟩
    · rintro ⟨allowed, acceptsLeft, acceptsRight, holds⟩
      refine ⟨allows_mirrored_iff.2 allowed, acceptsRight, acceptsLeft, ?_⟩
      simpa only [lookup_mirrored (single _)] using holds
  refine and_congr_right fun _ => ?_
  constructor
  · rintro ⟨right, rightMember, left, leftMember, describes⟩
    exact ⟨left, leftMember, right, rightMember, (described left right).1 describes⟩
  · rintro ⟨left, leftMember, right, rightMember, describes⟩
    exact ⟨right, rightMember, left, leftMember, (described left right).2 describes⟩

/-! ## Answers -/

/-- Whether a path pattern binds the variable of a condition. -/
def Segment.Binds (segment : Segment) (start : NodePattern) (condition : Option Comparison) :
    Prop :=
  ∀ comparison ∈ condition, some comparison.variableName ∈
    [start.variableName, segment.target.variableName, segment.relationship.variableName]

instance decidableBinds : Decidable (segment.Binds start condition) :=
  inferInstanceAs (Decidable (∀ comparison ∈ condition, _))

namespace Executor

variable {executor : Executor} {world : World}

theorem run_matchPath (nodesLoad : world.nodes executor.directory = .ok nodes)
    (relationshipsLoad : world.relationships executor.directory = .ok relationships)
    (start : NodePattern) (segment : Segment) (condition : Option Comparison) :
    world.run (executor.matchPath start segment condition).run =
      (.ok (answerPaths segment.relationship.direction
        (segment.select start condition nodes relationships)), world) := by
  have loadsNodes : world.run (Collections.loadNodes executor.directory).run = (.ok nodes, world) :=
    Prod.ext nodesLoad (Collections.loads_loadNodes.run_snd world)
  have loadsRelationships :
      world.run (Collections.loadRelationships executor.directory).run =
        (.ok relationships, world) :=
    Prod.ext relationshipsLoad (Collections.loads_loadRelationships.run_snd world)
  rw [Program.run_eq_runWith, Task.runWith_run] at loadsNodes loadsRelationships ⊢
  rw [matchPath, Task.runWith_bind_of_ok loadsNodes, Task.runWith_bind_of_ok loadsRelationships,
    Task.runWith_pure]

theorem run_executeStatement_path (nodesLoad : world.nodes executor.directory = .ok nodes)
    (relationshipsLoad : world.relationships executor.directory = .ok relationships)
    (bound : segment.Binds start condition) (returned : List String) (useIndex : Bool) :
    world.run (executor.executeStatement
        (.matching ⟨⟨start, some segment⟩, condition, returned⟩) useIndex).run =
      (.ok (answerPaths segment.relationship.direction
        (segment.select start condition nodes relationships)), world) := by
  have isBound : isBound ⟨⟨start, some segment⟩, condition, returned⟩ := by
    refine (Option.all_eq_true _ _).2 fun comparison conditioned => ?_
    have named := bound comparison conditioned
    simp only [List.mem_cons, List.not_mem_nil, or_false,
      @eq_comm _ (some comparison.variableName)] at named
    simpa [PathPattern.binds, NodePattern.binds] using named
  have ran := run_matchPath nodesLoad relationshipsLoad start segment condition
  rw [Program.run_eq_runWith, Task.runWith_run] at ran ⊢
  rw [executeStatement, executeMatch, if_pos isBound, Task.runWith_mapError, ran]
  rfl

/-- When the nodes and the relationships load and the ids of the nodes are distinct, matching a path
with or without a condition on a variable that it binds changes nothing.  It answers, in their order,
the relationships that the pattern asks for, and the stored nodes where these start and end, each
once.  Without a direction these are the relationships of both directions; and they and the nodes
stay the same when a path whose nodes have no common variable is written from right to left. -/
theorem matches_what_path_asks_for {executor : Executor} {world : World} {nodes : List Node}
    (nodesLoad : world.nodes executor.directory = .ok nodes) {relationships : List Relationship}
    (relationshipsLoad : world.relationships executor.directory = .ok relationships)
    (distinct : (nodes.map Node.id).Nodup) (condition : Option Comparison) :
    ∃ answer : NodePattern → Segment → Answer,
      (∀ start segment returned useIndex, segment.Binds start condition →
        world.run (executor.executeStatement
            (.matching ⟨⟨start, some segment⟩, condition, returned⟩) useIndex).run =
          (.ok (answer start segment), world)) ∧
      (∀ start segment, (answer start segment).relationships =
        relationships.filter (segment.AsksFor start condition nodes)) ∧
      (∀ start segment, (answer start segment).nodes ⊆ nodes ∧
        (answer start segment).nodes.map Node.id =
          endpoints (answer start segment).relationships) ∧
      (∀ start (segment : Segment), (answer start (segment.inDirection .undirected)).relationships =
        relationships.filter fun relationship =>
          relationship ∈ (answer start (segment.inDirection .outgoing)).relationships ∨
            relationship ∈ (answer start (segment.inDirection .incoming)).relationships) ∧
      ∀ (start : NodePattern) (segment : Segment),
        (∀ name, start.variableName ≠ some name ∨ segment.target.variableName ≠ some name) →
        (answer segment.target (segment.mirrored start)).relationships =
            (answer start segment).relationships ∧
          (answer segment.target (segment.mirrored start)).nodes =
            (answer start segment).nodes := by
  let answer (start : NodePattern) (segment : Segment) : Answer :=
    answerPaths segment.relationship.direction
      (segment.select start condition nodes relationships)
  have relationshipsEq (start : NodePattern) (segment : Segment) :
      (answer start segment).relationships =
        relationships.filter (segment.AsksFor start condition nodes) :=
    map_fst_select distinct
  have nodesMember (start : NodePattern) (segment : Segment) :
      (answer start segment).nodes ⊆ nodes := by
    intro node member
    obtain ⟨⟨relationship, source, target⟩, selected, listed⟩ :=
      List.mem_flatMap.1 (mem_of_mem_distinctNodes member)
    obtain ⟨-, sourceMember, targetMember⟩ := mem_of_mem_select selected
    rcases List.mem_pair.1 listed with rfl | rfl
    · exact sourceMember
    · exact targetMember
  have ids (start : NodePattern) (segment : Segment) : (answer start segment).nodes.map Node.id =
      endpoints (answer start segment).relationships :=
    map_id_answerPaths distinct
  refine ⟨answer, fun start segment returned useIndex bound =>
    run_executeStatement_path nodesLoad relationshipsLoad bound returned useIndex,
    relationshipsEq, fun start segment => ⟨nodesMember start segment, ids start segment⟩,
    fun start segment => ?_, fun start segment single => ?_⟩
  · simp only [relationshipsEq]
    refine List.filter_congr fun relationship member => ?_
    simp [asksFor_undirected_iff, member]
  · have sameRelationships : (answer segment.target (segment.mirrored start)).relationships =
        (answer start segment).relationships := by
      simp only [relationshipsEq, asksFor_mirrored_iff single]
    refine ⟨sameRelationships, ?_⟩
    have sameIds : (answer segment.target (segment.mirrored start)).nodes.map Node.id =
        (answer start segment).nodes.map Node.id := by
      rw [ids, ids, sameRelationships]
    rw [← filterMap_nodeWithId? distinct (nodesMember segment.target (segment.mirrored start)),
      sameIds, filterMap_nodeWithId? distinct (nodesMember start segment)]

/-- Of two relationships between the same nodes, a loop, one that leads to a missing node and one of
another type, those from a node whose `x` is `1` are the first and the loop. -/
theorem matches_what_path_asks_for_with_loop :
    let world : World := { disk := .directory [("db", .directory
      [("nodes.json", .file (.text
          ("[\x7b\"id\":\"n\",\"labels\":[\"L\"],\"properties\":\x7b\"x\":1\x7d\x7d," ++
            "\x7b\"id\":\"m\",\"labels\":[\"L\"],\"properties\":\x7b\"x\":2\x7d\x7d]"))),
        ("relationships.json", .file (.text
          ("[[\"r\",\"n\",\"m\",\"T\"],[\"s\",\"m\",\"n\",\"T\"],[\"t\",\"n\",\"n\",\"T\"]," ++
            "[\"u\",\"n\",\"missing\",\"T\"],[\"v\",\"n\",\"m\",\"U\"]]")))])] }
    let executor : Executor := ⟨Path.ofText "db", "locks", .compact, true⟩
    let start : NodePattern := { variableName := some "a", label := some "L" }
    let segment : Segment := ⟨⟨none, some "T", .empty, .outgoing⟩, { variableName := some "b" }⟩
    let condition : Option Comparison := some ⟨"a", "x", .equal, .integer 1⟩
    ∃ answer, world.run (executor.executeStatement
        (.matching ⟨⟨start, some segment⟩, condition, []⟩) false).run = (.ok answer, world) ∧
      answer.relationships.map Relationship.id = ["r", "t"] ∧
      answer.nodes.map Node.id = ["n", "m"] := by
  intro world executor start segment condition
  let nodes : List Node := [⟨"n", ["L"], .ofList [("x", .integer 1)]⟩,
    ⟨"m", ["L"], .ofList [("x", .integer 2)]⟩]
  let relationships : List Relationship :=
    [⟨"r", "n", "m", "T", .empty⟩, ⟨"s", "m", "n", "T", .empty⟩, ⟨"t", "n", "n", "T", .empty⟩,
      ⟨"u", "n", "missing", "T", .empty⟩, ⟨"v", "n", "m", "U", .empty⟩]
  have nodesLoad : world.nodes executor.directory = .ok nodes := by decide +kernel
  have relationshipsLoad : world.relationships executor.directory = .ok relationships := by
    decide +kernel
  obtain ⟨answer, ran, relationshipsEq, nodesEq, -, -⟩ :=
    matches_what_path_asks_for nodesLoad relationshipsLoad (by decide) condition
  refine ⟨answer start segment, ran start segment [] false (by decide), ?_, ?_⟩
  · rw [relationshipsEq]
    decide +kernel
  · rw [(nodesEq start segment).2, relationshipsEq]
    decide +kernel

end Executor
end Query
end GraphStore
