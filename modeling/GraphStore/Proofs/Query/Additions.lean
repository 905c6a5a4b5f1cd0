import GraphStore.Proofs.Query.Parsing
import GraphStore.Proofs.Query.Readability
import GraphStore.Proofs.Store.RoundTrips

/-!
# Additions

What a creation adds stands behind what was stored, which stays as it is.  A created relationship
connects the first stored nodes that are like its ends, or new nodes if there are none.
-/

namespace GraphStore

/-! ## Fresh ids -/

theorem eq_ok_of_mapError {ε ε' α : Type} {wrap : ε → ε'} {result : Except ε α} {value : α}
    (succeeds : result.mapError wrap = .ok value) : result = .ok value := by
  cases result with
  | error error => cases succeeds
  | ok other =>
      cases succeeds
      rfl

namespace Store

variable {store : Store} {directory : Path}

theorem map_sorted_of_nodes {nodes : List Node} (loaded : store.nodes directory = .ok nodes) :
    nodes.map Node.sorted = nodes :=
  Document.map_sorted_of_itemsOfContent Node.sorted_of_ofJson? loaded

end Store

theorem Properties.satisfies_self (properties : Properties) : properties.satisfies properties := by
  refine List.all_eq_true.2 fun entry member => ?_
  rw [(properties.mem_entries_iff entry).1 member]
  simp [Value.looselyEquals]

namespace Query
namespace Executor

variable {executor : Executor} {store : Store} {nodes added : List Node} {pattern : NewNode}
  {patterns : List NewNode} {number : Nat} {node : Node}

/-! ## Nodes like new ones -/

theorem Stands.like (stands : Stands nodes pattern number node added) :
    node.satisfies (some pattern.label) pattern.properties := by
  cases stands with
  | found _ like => exact like
  | added => simp [Node.satisfies, Node.hasLabel, Properties.satisfies_self]

/-- A node that stands for a new one has every value that was asked for, up to its key text. -/
theorem Stands.exists_get? (stands : Stands nodes pattern number node added) {key : String}
    {value : Value} (asks : pattern.properties.get? key = some value) :
    ∃ actual, node.properties.get? key = some actual ∧ actual.looselyEquals value := by
  have satisfied := (Bool.and_eq_true_iff.1 stands.like).2
  have member : (key, value) ∈ pattern.properties.entries :=
    (pattern.properties.mem_entries_iff (key, value)).2 asks
  have holds := List.all_eq_true.1 satisfied (key, value) member
  cases found : node.properties.get? key with
  | none => simp [found] at holds
  | some actual => exact ⟨actual, rfl, by simpa [found] using holds⟩

/-! ## Loading what was added -/

/-- Finite nodes that are added to stored ones load behind them. -/
theorem nodes_saveGrowth_eq_ok (loaded : store.nodes executor.directory = .ok nodes)
    (finite : ∀ node ∈ added, node.isFinite)
    (readsBack : Json.ReadsBack ((nodes ++ added).flatMap Node.doubles)) (number : Nat) :
    (executor.saveGrowth (store.withNumber number) nodes added).nodes executor.directory =
      .ok (nodes ++ added.map Node.sorted) := by
  by_cases none : added = []
  · subst none
    rw [saveGrowth, if_pos rfl, Store.nodes_withNumber, loaded, List.map_nil, List.append_nil]
  · have allFinite : (nodes ++ added).all Node.isFinite := by
      rw [List.all_append, Bool.and_eq_true, List.all_eq_true, List.all_eq_true]
      exact ⟨Store.forall_isFinite_of_nodes loaded, finite⟩
    rw [nodes_saveGrowth readsBack none, if_pos allFinite, List.map_append,
      Store.map_sorted_of_nodes loaded]

theorem Stands.isFinite (stands : Stands nodes pattern number node added)
    (finite : pattern.properties.isFinite) : ∀ other ∈ added, other.isFinite := by
  cases stands with
  | found => simp
  | added => simpa [Node.isFinite] using finite

theorem Stands.length_le (stands : Stands nodes pattern number node added) : added.length ≤ 1 := by
  cases stands <;> simp

theorem Stands.doubles_subset (stands : Stands nodes pattern number node added) :
    added.flatMap Node.doubles ⊆ pattern.properties.doubles := by
  cases stands with
  | found => simp
  | added => simp [Node.doubles]

end Executor
end Query
end GraphStore
