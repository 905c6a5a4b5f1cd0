import GraphStore.Proofs.KeyTexts
import GraphStore.Proofs.Query.Failures
import GraphStore.Proofs.Query.Parsing

/-!
# Two ways to ask for a value

A node with a value can be asked for by a property in its pattern or by a condition with `=`.  The
first compares key texts and the second numbers where it can, but what the first finds, the second
finds as well.  The only exception are values that write a NaN, which a condition never finds.
-/

namespace GraphStore
namespace Query

/-! ## Literals as property values -/

theorem Number.mem_text {number : Number} {c : Char} (member : c ∈ number.text) :
    c = '-' ∨ c = '.' ∨ c.isDigit := by
  rcases List.mem_append.1 member with front | fraction
  · rcases List.mem_append.1 front with minus | whole
    · split at minus
      · exact .inl (List.mem_singleton.1 minus)
      · cases minus
    · exact .inr (.inr (number.isDigit_whole c whole))
  · split at fraction
    · next digits given =>
        rcases List.mem_cons.1 fraction with point | digit
        · exact .inr (.inl point)
        · exact .inr (.inr (number.isDigit_fraction digits given c digit))
    · cases fraction

/-- A number is a property value without quotes. -/
def Number.bare (number : Number) : Bare where
  text := number.text
  not_blank := by
    obtain ⟨c, rest, whole⟩ := List.exists_cons_of_ne_nil number.whole_ne_nil
    refine ⟨c, by simp [text, whole], isSpace_eq_false_of_isNameChar ?_⟩
    have digit := number.isDigit_whole c (whole ▸ List.mem_cons_self)
    simp [isNameChar, Char.isAlphanum, digit]
  isPlain := by
    intro c member special
    have kind := mem_text member
    simp only [List.mem_cons, List.not_mem_nil, or_false] at special
    rcases special with rfl | rfl | rfl | rfl <;> exact absurd kind (by decide)

/-- A truth value is a property value without quotes. -/
def Truth.bare (truth : Truth) : Bare where
  text := truth.text.toList
  not_blank := by cases truth with | _ value => cases value <;> simp [text, isSpace]
  isPlain := by cases truth with | _ value => cases value <;> simp [text]

/-- A literal where a property value is written. -/
def Literal.fieldValue : Literal → FieldValue
  | quoted written => .quoted written
  | number written => .bare written.bare
  | truth written => .bare written.bare

theorem Literal.text_fieldValue (literal : Literal) :
    literal.fieldValue.token.text = literal.token.text := by
  cases literal <;> rfl

/-- The value of a literal. -/
def Literal.value (literal : Literal) : Value :=
  Value.ofLiteral literal.token.text

/-! ## Two matches -/

namespace WrittenMatch

/-- A match of the nodes with a label that asks for a value by a property. -/
def byProperty (variableName label property : Name) (literal : Literal) : WrittenMatch where
  start := ⟨some variableName, some label, some [⟨.name property, literal.fieldValue⟩]⟩
  segment := none
  condition := none
  first := variableName
  others := []

/-- A match of the nodes with a label that asks for a value by a condition. -/
def byCondition (variableName label property : Name) (literal : Literal) : WrittenMatch where
  start := ⟨some variableName, some label, none⟩
  segment := none
  condition := some ⟨variableName, property, .equal, literal⟩
  first := variableName
  others := []

/-- A match of the nodes with a label that compares a value by a condition. -/
def byComparison (variableName label property : Name) (operator : Operator) (literal : Literal) :
    WrittenMatch where
  start := ⟨some variableName, some label, none⟩
  segment := none
  condition := some ⟨variableName, property, operator, literal⟩
  first := variableName
  others := []

variable (variableName label property : Name) (operator : Operator) (literal : Literal)

theorem entries_byProperty :
    (byProperty variableName label property literal).start.node.properties.entries =
      [(property.text, literal.value)] := by
  rw [Literal.value, ← literal.text_fieldValue]
  simp [byProperty, Entity.node, Entity.properties, Properties.ofWritten, Field.entry, Key.text]

theorem accepts_byProperty (node : Node) :
    (byProperty variableName label property literal).start.node.accepts node =
      (node.hasLabel label.text && (node.properties.get? property.text).any fun actual =>
        actual.looselyEquals literal.value) := by
  have required : node.properties.satisfies
      (byProperty variableName label property literal).start.node.properties =
        (node.properties.get? property.text).any fun actual =>
          actual.looselyEquals literal.value := by
    rw [Properties.satisfies, entries_byProperty, List.all_cons, List.all_nil, Bool.and_true]
    generalize literal.value = value
    cases node.properties.get? property.text <;> rfl
  exact congrArg (node.hasLabel label.text && ·) required

theorem accepts_byComparison (node : Node) :
    (byComparison variableName label property operator literal).start.node.accepts node =
      node.hasLabel label.text :=
  Bool.and_true _

theorem holds_byCondition (node : Node) :
    (Comparison.mk variableName.text property.text .equal literal.value).holds node.properties =
      (node.properties.get? property.text).any fun actual =>
        actual.compare? literal.value == some .eq := by
  rw [Comparison.holds, Operator.holds]
  cases node.properties.get? property.text with
  | none => rfl
  | some actual =>
      rw [Option.bind_some, Option.any_some]
      cases actual.compare? literal.value with
      | none => rfl
      | some outcome => cases outcome <;> rfl

end WrittenMatch

namespace Executor

variable {executor : Executor} {world : World}

/-- What the execution of a match answers depends on the store alone. -/
theorem run_execute_matching {source : String} {query : MatchQuery}
    (parsed : parse source = .ok (.matching query)) (useIndex : Bool) :
    (world.run (executor.execute source useIndex).run).1 =
      ((executor.executeMatch query useIndex).runWith Store.perform
        (world.storeAt executor.directory)).1 := by
  rw [execute, parsed]
  exact (executor.loads_executeMatch query useIndex).run_storeAt world

section

variable (variableName label property : Name) (operator : Operator) (literal : Literal)
  (store : Store)

theorem runWith_byProperty :
    ((executor.executeMatch (WrittenMatch.byProperty variableName label property literal).query
        false).runWith Store.perform store).1 =
      ((store.nodes executor.directory).map fun nodes =>
        answerNodes (nodes.filter fun node => node.hasLabel label.text &&
          (node.properties.get? property.text).any fun actual =>
            actual.looselyEquals literal.value) " with properties").mapError .storage := by
  have accepts := funext (WrittenMatch.accepts_byProperty variableName label property literal)
  have entries := WrittenMatch.entries_byProperty variableName label property literal
  change ((Task.mapError ExecutionError.storage (executor.matchNode
    (WrittenMatch.byProperty variableName label property literal).start.node false)).runWith
      Store.perform store).1 = _
  have unprobed : executor.probed store
      (WrittenMatch.byProperty variableName label property literal).start.node false = [] := by
    rw [probed, entries]
    rfl
  rw [Task.runWith_mapError, executor.runWith_matchNode store false (by rw [entries]; nofun),
    unprobed]
  simp only [narrowed, if_true, NodePattern.select, accepts]

theorem runWith_byComparison (useIndex : Bool) :
    ((executor.executeMatch (WrittenMatch.byComparison variableName label property operator
        literal).query useIndex).runWith Store.perform store).1 =
      ((store.nodes executor.directory).map fun nodes =>
        answerNodes (nodes.filter fun node => node.hasLabel label.text &&
          (Comparison.mk variableName.text property.text operator literal.value).holds
            node.properties) " with WHERE").mapError .storage := by
  have bound : isBound (WrittenMatch.byComparison variableName label property operator
      literal).query := by
    simp [isBound, WrittenMatch.query, WrittenMatch.byComparison, Condition.comparison,
      PathPattern.binds, NodePattern.binds, Entity.node]
  rw [executeMatch, if_pos bound]
  change ((Task.mapError ExecutionError.storage (executor.matchWhere
    (WrittenMatch.byComparison variableName label property operator literal).start.node
      ⟨variableName.text, property.text, operator, literal.value⟩)).runWith
        Store.perform store).1 = _
  rw [Task.runWith_mapError, matchWhere, Task.runWith_bind, Collections.runWith_loadNodes]
  cases store.nodes executor.directory with
  | error => rfl
  | ok nodes =>
      simp only [Task.runWith_pure, NodePattern.select, List.filter_filter,
        WrittenMatch.accepts_byComparison, Bool.and_comm]
      rfl

theorem runWith_byCondition (useIndex : Bool) :
    ((executor.executeMatch (WrittenMatch.byCondition variableName label property literal).query
        useIndex).runWith Store.perform store).1 =
      ((store.nodes executor.directory).map fun nodes =>
        answerNodes (nodes.filter fun node => node.hasLabel label.text &&
          (node.properties.get? property.text).any fun actual =>
            actual.compare? literal.value == some .eq) " with WHERE").mapError .storage := by
  simp only [← WrittenMatch.holds_byCondition variableName property literal]
  exact executor.runWith_byComparison variableName label property .equal literal store useIndex

end

/-- Two values with the same key text are equal in the loose order, unless they write a NaN; then
they are not comparable.  So when a match with a property, made without index, answers at all, then
the match with `=` answers as well, and with all nodes of the other answer in the same order.  If the
literal writes a NaN it answers with none. -/
theorem where_finds_what_properties_find (executor : Executor) (world : World)
    {variableName label property : Name} {literal : Literal} {first second : Bool}
    {propertySource conditionSource : String}
    (writesProperty : Spaced ((WrittenMatch.byProperty variableName label property literal).tokens ++
      semicolonTokens first) propertySource.toList)
    (writesCondition : Spaced ((WrittenMatch.byCondition variableName label property
      literal).tokens ++ semicolonTokens second) conditionSource.toList) (useIndex : Bool) :
    (∀ left right : Value, left.looselyEquals right →
      left.compare? right = if right.writesNaN then none else some .eq) ∧
    ∀ answer, (world.run (executor.execute propertySource false).run).1 = .ok answer →
      ∃ other, (world.run (executor.execute conditionSource useIndex).run).1 = .ok other ∧
        (¬literal.value.writesNaN → answer.nodes.Sublist other.nodes) ∧
        (literal.value.writesNaN → other.nodes = []) := by
  refine ⟨fun left right same => Value.compare?_of_looselyEquals same, fun answer => ?_⟩
  rw [run_execute_matching (parse_matching _ first writesProperty), runWith_byProperty,
    run_execute_matching (parse_matching _ second writesCondition), runWith_byCondition]
  cases (world.storeAt executor.directory).nodes executor.directory with
  | error => exact nofun
  | ok nodes =>
      rintro ⟨⟩
      refine ⟨_, rfl, fun writesNot => ?_, fun writes => ?_⟩
      · refine List.monotone_filter_right nodes fun node accepted => ?_
        obtain ⟨labelled, holds⟩ := Bool.and_eq_true_iff.1 accepted
        obtain ⟨actual, found, same⟩ := (Option.any_eq_true _ _).1 holds
        have equal := (Value.compare?_of_looselyEquals same).trans (if_neg writesNot)
        rw [labelled, found, Option.any_some, equal]
        rfl
      · refine List.filter_eq_nil_iff.2 fun node _ => ?_
        cases node.properties.get? property.text with
        | none => simp
        | some actual =>
            have differs := Value.compare?_ne_eq_of_writesNaN writes actual
            simp [differs]

/-- A number that is stored as an integer, as a text and as a double; the match with a property does
not find the last. -/
theorem where_finds_thirty :
    let name (first : Char) (start : isNameStart first) : Name := ⟨first, [], start, nofun⟩
    let thirty : Number := ⟨false, ['3', '0'], none, by simp, by simp, nofun, nofun⟩
    let nodes : List Node := [⟨"x", ["L"], .ofList [("p", .integer 30)]⟩,
      ⟨"y", ["L"], .ofList [("p", .text "30")]⟩, ⟨"z", ["L"], .ofList [("p", .double (.ofInt 30))]⟩]
    let world : World := { disk := .directory [("db", .directory [("nodes.json", .file (.text (
      "[[\"x\",[\"L\"],\x7b\"p\":30\x7d],[\"y\",[\"L\"],\x7b\"p\":\"30\"\x7d]," ++
        "[\"z\",[\"L\"],\x7b\"p\":30.0\x7d]]")))])] }
    let executor : Executor := ⟨Path.ofText "db", "db", .indented, true⟩
    Spaced ((WrittenMatch.byProperty (name 'n' rfl) (name 'L' rfl) (name 'p' rfl)
        (.number thirty)).tokens ++ semicolonTokens false)
      "MATCH (n:L \x7bp: 30\x7d) RETURN n".toList ∧
    Spaced ((WrittenMatch.byCondition (name 'n' rfl) (name 'L' rfl) (name 'p' rfl)
        (.number thirty)).tokens ++ semicolonTokens true)
      "MATCH(n:L)WHERE n.p=30RETURN n;".toList ∧
    ∃ other, (world.run (executor.execute "MATCH(n:L)WHERE n.p=30RETURN n;" true).run).1 =
      .ok other ∧ (nodes.take 2).Sublist other.nodes := by
  intro name thirty nodes world executor
  have writesProperty : Spaced ((WrittenMatch.byProperty (name 'n' rfl) (name 'L' rfl)
      (name 'p' rfl) (.number thirty)).tokens ++ semicolonTokens false)
      "MATCH (n:L \x7bp: 30\x7d) RETURN n".toList := by decide +kernel
  have writesCondition : Spaced ((WrittenMatch.byCondition (name 'n' rfl) (name 'L' rfl)
      (name 'p' rfl) (.number thirty)).tokens ++ semicolonTokens true)
      "MATCH(n:L)WHERE n.p=30RETURN n;".toList := by decide +kernel
  obtain ⟨-, finds⟩ :=
    where_finds_what_properties_find executor world writesProperty writesCondition true
  obtain ⟨other, ran, sublist, -⟩ :=
    finds ⟨"2 nodes matched with properties", nodes.take 2, []⟩ (by decide +kernel)
  exact ⟨writesProperty, writesCondition, other, ran, sublist (by decide +kernel)⟩

/-- A text that writes a NaN is found by the match with a property alone. -/
theorem where_misses_nan :
    let node : Node := ⟨"x", ["L"], .ofList [("p", .text "NaN")]⟩
    let world : World := { disk := .directory [("db", .directory [("nodes.json", .file (.text
      "[[\"x\",[\"L\"],\x7b\"p\":\"NaN\"\x7d]]"))])] }
    let executor : Executor := ⟨Path.ofText "db", "db", .indented, true⟩
    (world.run (executor.execute "MATCH (n:L \x7bp: \"NaN\"\x7d) RETURN n" false).run).1 =
        .ok ⟨"1 nodes matched with properties", [node], []⟩ ∧
      (world.run (executor.execute "MATCH (n:L) WHERE n.p = \"NaN\" RETURN n" false).run).1 =
        .ok ⟨"0 nodes matched with WHERE", [], []⟩ ∧
      (Value.text "NaN").looselyEquals (.text "NaN") ∧
      (Value.text "NaN").compare? (.text "NaN") ≠ some .eq := by
  decide +kernel

end Executor
end Query
end GraphStore
