import GraphStore.Value

/-!
# Comparison operators

The six operators of a `WHERE` clause, each of which accepts some outcomes of a comparison.
-/

namespace GraphStore

/-- An operator that compares a stored value with a literal. -/
inductive Operator where
  | equal
  | notEqual
  | less
  | greater
  | lessOrEqual
  | greaterOrEqual
  deriving DecidableEq

namespace Operator

/-- All operators. -/
def all : List Operator :=
  [equal, notEqual, less, greater, lessOrEqual, greaterOrEqual]

/-- The written form. -/
def symbol : Operator → String
  | equal => "="
  | notEqual => "!="
  | less => "<"
  | greater => ">"
  | lessOrEqual => "<="
  | greaterOrEqual => ">="

/-- The operator with a given written form. -/
def ofSymbol? (symbol : String) : Option Operator :=
  all.find? (fun operator => operator.symbol == symbol)

theorem ofSymbol?_symbol (operator : Operator) : ofSymbol? operator.symbol = some operator := by
  cases operator <;> decide

/-- Whether the operator holds when the comparison has a given outcome. -/
def accepts : Operator → Ordering → Bool
  | equal, outcome => outcome == .eq
  | notEqual, outcome => outcome != .eq
  | less, outcome => outcome == .lt
  | greater, outcome => outcome == .gt
  | lessOrEqual, outcome => outcome != .gt
  | greaterOrEqual, outcome => outcome != .lt

/-- Whether the operator holds between a stored value and a literal; an absent property and a pair
without order satisfy none. -/
def holds (operator : Operator) (actual : Option Value) (literal : Value) : Bool :=
  match actual.bind (fun value => value.compare? literal) with
  | some outcome => operator.accepts outcome
  | none => false

end Operator
end GraphStore
