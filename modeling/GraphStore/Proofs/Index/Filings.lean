import GraphStore.Proofs.Index.Buckets

/-!
# Filings

An index can be filled in three ways: with an id under a value, with an id under a key text, and with
a node.  All three write into the same buckets.  Whatever is filed in whatever order, the index says
what a plain log of the filings says.
-/

namespace GraphStore

/-- Something that is filed in an index. -/
inductive Filing where
  /-- An id under a value. -/
  | ofValue (value : Value) (id : String)
  /-- An id under a key text. -/
  | ofKey (key id : String)
  /-- A node, in an index over a label and a property. -/
  | ofNode (node : Node) (label property : String)

namespace Filing

/-- The key text and the id of a filing.  A node without the label or the property has none. -/
def filed? : Filing → Option (String × String)
  | .ofValue value id => some (value.keyText, id)
  | .ofKey key id => some (key, id)
  | .ofNode node label property =>
      if node.hasLabel label then
        (node.properties.get? property).map fun value => (value.keyText, node.id)
      else none

/-- The log of filings. -/
def log (filings : List Filing) : List (String × String) :=
  filings.filterMap filed?

/-- What a filing is answered after a log: whether it adds to it.  A filing under a key text is
not answered. -/
def answer (log : List (String × String)) : Filing → Option Bool
  | .ofKey _ _ => none
  | filing => some (filing.filed?.any fun entry => decide (entry ∉ log))

/-- The different ids under a key text of a log, in their order. -/
def idsUnder (log : List (String × String)) (key : String) : List String :=
  ((log.filter fun entry => entry.1 == key).map Prod.snd).eraseDups

theorem log_cons (filing : Filing) (rest : List Filing) :
    log (filing :: rest) = filing.filed?.toList ++ log rest := by
  cases found : filing.filed? <;> simp [log, found]

theorem mem_idsUnder {entries : List (String × String)} {key id : String} :
    id ∈ idsUnder entries key ↔ (key, id) ∈ entries := by
  simp [idsUnder]

end Filing

namespace PropertyIndex

variable {index : PropertyIndex} {log : List (String × String)}

/-- Serve a filing: the answer to it, and the index with it. -/
def serve (index : PropertyIndex) : Filing → Option Bool × PropertyIndex
  | .ofValue value id => (some !index.contains value id, index.insert value id)
  | .ofKey key id => (none, index.file key id)
  | .ofNode node label property =>
      (some (index.lacks label property node), index.add label property node)

/-- Serve filings one after the other. -/
def serveAll (index : PropertyIndex) : List Filing → List (Option Bool) × PropertyIndex
  | [] => ([], index)
  | filing :: rest =>
      let after := (index.serve filing).2.serveAll rest
      ((index.serve filing).1 :: after.1, after.2)

/-- Whether an index holds what a log says. -/
structure Keeps (index : PropertyIndex) (log : List (String × String)) : Prop where
  /-- Every bucket holds the ids under its key text. -/
  bucket : ∀ key, index.bucket key = Filing.idsUnder log key
  /-- There is no bucket without ids. -/
  reduced : index.IsReduced

theorem keeps_empty : empty.Keeps [] :=
  ⟨fun _ => rfl, isReduced_empty⟩

namespace Keeps

theorem file (keeps : index.Keeps log) (key id : String) :
    (index.file key id).Keeps (log ++ [(key, id)]) := by
  refine ⟨fun other => ?_, keeps.reduced.file key id⟩
  rw [Filing.idsUnder, List.filter_append, List.map_append]
  by_cases same : key = other
  · subst same
    rw [bucket_file_self (keeps.bucket key) id]
    simp
  · rw [bucket_file_of_ne (Ne.symm same) id, keeps.bucket other]
    simp [Filing.idsUnder, same]

theorem mem_bucket (keeps : index.Keeps log) {key id : String} :
    id ∈ index.bucket key ↔ (key, id) ∈ log := by
  rw [keeps.bucket key, Filing.mem_idsUnder]

/-- Serving a filing adds its entry, and the answer is that of the log. -/
theorem serve (keeps : index.Keeps log) (filing : Filing) :
    (index.serve filing).1 = filing.answer log ∧
      (index.serve filing).2.Keeps (log ++ filing.filed?.toList) := by
  cases filing with
  | ofValue value id =>
      refine ⟨?_, keeps.file value.keyText id⟩
      simp [PropertyIndex.serve, Filing.answer, Filing.filed?, contains, lookup, keeps.mem_bucket]
  | ofKey key id => exact ⟨rfl, keeps.file key id⟩
  | ofNode node label property =>
      have entry : (Filing.ofNode node label property).filed? =
          (indexed? node label property).map fun value => (value.keyText, node.id) := by
        rw [Filing.filed?, indexed?]
        split <;> rfl
      rw [Filing.answer, entry, PropertyIndex.serve, lacks, add]
      · cases indexed? node label property with
        | none => exact ⟨rfl, by simpa using keeps⟩
        | some value =>
            refine ⟨?_, keeps.file value.keyText node.id⟩
            simp [contains, lookup, keeps.mem_bucket]
      · intro _ _ other
        cases other

/-- Serving filings adds their log, and every answer is that of the log up to its filing. -/
theorem serveAll (keeps : index.Keeps log) (filings : List Filing) :
    (index.serveAll filings).1 =
        filings.mapIdx (fun place filing =>
          filing.answer (log ++ Filing.log (filings.take place))) ∧
      (index.serveAll filings).2.Keeps (log ++ Filing.log filings) := by
  induction filings generalizing index log with
  | nil => exact ⟨rfl, by simpa [Filing.log, PropertyIndex.serveAll] using keeps⟩
  | cons filing rest ih =>
      obtain ⟨answer, next⟩ := keeps.serve filing
      obtain ⟨answers, last⟩ := ih next
      refine ⟨?_, by simpa only [Filing.log_cons, List.append_assoc, PropertyIndex.serveAll] using last⟩
      rw [PropertyIndex.serveAll, answer, answers, List.mapIdx_cons]
      simp only [List.take_succ_cons, Filing.log_cons, List.append_assoc]
      simp [Filing.log]

theorem size_eq (keeps : index.Keeps log) : index.size = (log.map Prod.fst).toFinset.card := by
  refine keeps.reduced.size_eq_card fun key => ?_
  simp [keeps.mem_bucket]

end Keeps

/-- Filing nodes one after the other is building an index further. -/
theorem serveAll_nodes (index : PropertyIndex) (nodes : List Node) (label property : String) :
    (index.serveAll (nodes.map fun node => .ofNode node label property)).2 =
      nodes.foldl (fun index node => index.add label property node) index := by
  induction nodes generalizing index with
  | nil => rfl
  | cons node rest ih => exact ih _

/-- An index that was filled from nothing says what the log of its filings says: under a value stand
the different ids that were filed under its key text in the order in which they came, a filing is
answered by whether it was new, and the size counts the different key texts.  An index over nodes and
more nodes is the index over the nodes in which the others were filed. -/
theorem serveAll_empty_eq_log (filings : List Filing) :
    (∀ value, (empty.serveAll filings).2.lookup value =
        Filing.idsUnder (Filing.log filings) value.keyText) ∧
      (empty.serveAll filings).1 =
        filings.mapIdx (fun place filing => filing.answer (Filing.log (filings.take place))) ∧
      (empty.serveAll filings).2.size = ((Filing.log filings).map Prod.fst).toFinset.card ∧
      ∀ nodes more label property, build (nodes ++ more) label property =
        ((build nodes label property).serveAll
          (more.map fun node => .ofNode node label property)).2 := by
  obtain ⟨answers, keeps⟩ := keeps_empty.serveAll filings
  rw [List.nil_append] at keeps
  refine ⟨fun value => keeps.bucket value.keyText, by simpa using answers, keeps.size_eq, ?_⟩
  intro nodes more label property
  rw [serveAll_nodes, build_append]

end PropertyIndex
end GraphStore
