import GraphStore.Proofs.Literals
import GraphStore.Proofs.Query.Equality

/-!
# Conditions on integers

A condition compares numbers as doubles.  Integers that have different nearest doubles are compared
as integers; an integer of at most fifty-three bits shares its nearest double with no other.
Greater integers that do share it are taken for one another.
-/

namespace GraphStore

namespace Operator

variable {left right : Int64}

/-- What an operator says about two integers. -/
def Relates : Operator → Int → Int → Prop
  | equal, left, right => left = right
  | notEqual, left, right => left ≠ right
  | less, left, right => left < right
  | greater, left, right => left > right
  | lessOrEqual, left, right => left ≤ right
  | greaterOrEqual, left, right => left ≥ right

theorem accepts_compare_iff (operator : Operator) (left right : Int) :
    operator.accepts (compare left right) ↔ operator.Relates left right := by
  rcases Int.lt_trichotomy left right with before | rfl | behind
  · rw [compare_lt_iff_lt.2 before]
    cases operator <;> simp [accepts, Relates] <;> omega
  · rw [compare_eq_iff_eq.2 rfl]
    cases operator <;> simp [accepts, Relates]
  · rw [compare_gt_iff_gt.2 behind]
    cases operator <;> simp [accepts, Relates] <;> omega

instance (operator : Operator) (left right : Int) : Decidable (operator.Relates left right) :=
  decidable_of_iff _ (operator.accepts_compare_iff left right)

/-- An integer is compared as it is, or as the other one if both have the same nearest double. -/
theorem holds_integer_iff (operator : Operator) (left right : Int64) :
    operator.holds (some (.integer left)) (.integer right) ↔
      operator.Relates (if Double.ofInt left.toInt = .ofInt right.toInt then right.toInt
        else left.toInt) right.toInt := by
  have outcome : (Value.integer left).compare? (.integer right) = _ :=
    Double.compare?_ofInt left.toInt right.toInt
  rw [holds, Option.bind_some, outcome, ← accepts_compare_iff]
  by_cases same : Double.ofInt left.toInt = .ofInt right.toInt
  · rw [if_pos same, if_pos same, compare_eq_iff_eq.2 rfl]
  · rw [if_neg same, if_neg same]

end Operator

namespace Query

/-! ## Integer literals -/

/-- An integer as it is written in a condition. -/
def Number.ofInteger (value : Int64) : Number where
  isNegative := value.toInt < 0
  whole := Text.natDigits value.toInt.natAbs
  fraction := none
  whole_ne_nil := Text.natDigits_ne_nil _
  isDigit_whole := fun _ => Text.isDigit_of_mem_natDigits _
  fraction_ne_nil := nofun
  isDigit_fraction := nofun

/-- Every integer of 64 bits has a literal. -/
theorem Literal.value_ofInteger (value : Int64) :
    (Literal.number (.ofInteger value)).value = .integer value := by
  have text : (Number.ofInteger value).text = (Value.integer value).keyText.toList := by
    simp [Number.text, Number.ofInteger, Value.keyText, Text.intText]
  change Value.ofLiteral (Number.ofInteger value).text = .integer value
  rw [text, Value.ofLiteral_keyText rfl, Value.ofBare_keyText_integer]

namespace Executor

/-- A condition with an integer literal compares stored integers through their nearest doubles.  The
comparison is that of the integers, but integers with the same nearest double are taken for equal;
different ones both need more than fifty-three bits for that. -/
theorem where_compares_nearest_doubles (executor : Executor) (world : World)
    {variableName label property : Name} {operator : Operator} {literal : Literal} {right : Int64}
    (reads : literal.value = .integer right) {source : String} {isThere : Bool}
    (writes : Spaced ((WrittenMatch.byComparison variableName label property operator
      literal).tokens ++ semicolonTokens isThere) source.toList) (useIndex : Bool)
    {nodes : List Node} (nodesLoad : world.nodes executor.directory = .ok nodes) :
    (∀ left : Int64, (Value.integer left).compare? (.integer right) =
      some (if Double.ofInt left.toInt = .ofInt right.toInt then .eq
        else compare left.toInt right.toInt)) ∧
    (∀ left : Int64, left.toInt.natAbs < 2 ^ 53 ∨ right.toInt.natAbs < 2 ^ 53 →
      Double.ofInt left.toInt = .ofInt right.toInt → left = right) ∧
    (∀ (properties : Properties) (left : Int64),
      properties.get? property.text = some (.integer left) →
      ((Comparison.mk variableName.text property.text operator literal.value).holds properties ↔
        operator.Relates (if Double.ofInt left.toInt = .ofInt right.toInt then right.toInt
          else left.toInt) right.toInt)) ∧
    ∃ answer, (world.run (executor.execute source useIndex).run).1 = .ok answer ∧
      ∀ node ∈ nodes, ∀ left : Int64, node.hasLabel label.text →
        node.properties.get? property.text = some (.integer left) →
        (node ∈ answer.nodes ↔ operator.Relates
          (if Double.ofInt left.toInt = .ofInt right.toInt then right.toInt else left.toInt)
          right.toInt) := by
  have holds (properties : Properties) (left : Int64)
      (found : properties.get? property.text = some (.integer left)) :
      (Comparison.mk variableName.text property.text operator literal.value).holds properties ↔
        operator.Relates (if Double.ofInt left.toInt = .ofInt right.toInt then right.toInt
          else left.toInt) right.toInt := by
    rw [Comparison.holds, found, reads]
    exact operator.holds_integer_iff left right
  refine ⟨fun left => Double.compare?_ofInt left.toInt right.toInt, ?_, holds, ?_⟩
  · rintro left (small | small) same
    · exact Int64.toInt_inj.1 (Double.eq_of_ofInt_eq small same)
    · exact (Int64.toInt_inj.1 (Double.eq_of_ofInt_eq small same.symm)).symm
  · rw [World.nodes_eq_storeAt] at nodesLoad
    rw [run_execute_matching (parse_matching _ isThere writes), runWith_byComparison, nodesLoad]
    refine ⟨_, rfl, fun node member left labelled found => ?_⟩
    rw [← holds node.properties left found]
    simp [answerNodes, List.mem_filter, labelled, member]

/-- Of two integers that lie below a great integer, the greater one is taken for it. -/
theorem where_compares_great_integers :
    let name (first : Char) (start : isNameStart first) : Name := ⟨first, [], start, nofun⟩
    let nodes : List Node := [⟨"x", ["L"], .ofList [("p", .integer 9007199254740992)]⟩,
      ⟨"y", ["L"], .ofList [("p", .integer (-5))]⟩]
    let world : World := { disk := .directory [("db", .directory [("nodes.json", .file (.text (
      "[[\"x\",[\"L\"],\x7b\"p\":9007199254740992\x7d]," ++
        "[\"y\",[\"L\"],\x7b\"p\":-5\x7d]]")))])] }
    let executor : Executor := ⟨Path.ofText "db", "db", .indented, true⟩
    let source := "MATCH (n:L) WHERE n.p >= 9007199254740993 RETURN n;"
    Spaced ((WrittenMatch.byComparison (name 'n' rfl) (name 'L' rfl) (name 'p' rfl) .greaterOrEqual
        (.number (.ofInteger 9007199254740993))).tokens ++ semicolonTokens true) source.toList ∧
      ∃ answer, (world.run (executor.execute source true).run).1 = .ok answer ∧
        nodes[0] ∈ answer.nodes ∧ nodes[1] ∉ answer.nodes := by
  intro name nodes world executor source
  have writes : Spaced ((WrittenMatch.byComparison (name 'n' rfl) (name 'L' rfl) (name 'p' rfl)
      .greaterOrEqual (.number (.ofInteger 9007199254740993))).tokens ++ semicolonTokens true)
      source.toList := by
    decide +kernel
  have nodesLoad : world.nodes executor.directory = .ok nodes := by decide +kernel
  obtain ⟨-, -, -, answer, ran, answers⟩ := where_compares_nearest_doubles executor world
    (Literal.value_ofInteger 9007199254740993) writes true nodesLoad
  refine ⟨writes, answer, ran, ?_, ?_⟩
  · rw [answers nodes[0] (by decide) 9007199254740992 (by decide) (by decide)]
    decide +kernel
  · rw [answers nodes[1] (by decide) (-5) (by decide) (by decide)]
    decide +kernel

/-- An integer that is less than a literal is not found as less if both have the same nearest
double. -/
theorem where_misses_lesser_integer :
    let world : World := { disk := .directory [("db", .directory [("nodes.json", .file (.text
      "[[\"x\",[\"L\"],\x7b\"p\":9007199254740992\x7d]]"))])] }
    let executor : Executor := ⟨Path.ofText "db", "db", .indented, true⟩
    (9007199254740992 : Int64) < 9007199254740993 ∧
      (Value.integer 9007199254740992).compare? (.integer 9007199254740993) = some .eq ∧
      world.nodes executor.directory =
        .ok [⟨"x", ["L"], .ofList [("p", .integer 9007199254740992)]⟩] ∧
      (world.run
          (executor.execute "MATCH (n:L) WHERE n.p < 9007199254740993 RETURN n" false).run).1 =
        .ok ⟨"0 nodes matched with WHERE", [], []⟩ := by
  decide +kernel

end Executor
end Query
end GraphStore
