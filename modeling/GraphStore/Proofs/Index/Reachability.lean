import GraphStore.Proofs.Index.Documents

/-!
# Catalogs that come about

A catalog is empty or read from any document, and then changed by setting indexes and by filing
nodes.  None of this ever makes an empty bucket, a repeated id or a label without an index, which are
what reading a catalog would drop.  So every catalog that comes about is read back from its JSON form.
-/

namespace GraphStore

/-- The indexes that are built from nodes and by inserting ids under values. -/
inductive PropertyIndex.Reachable : PropertyIndex → Prop
  | empty : Reachable .empty
  | build (nodes : List Node) (label property : String) : Reachable (.build nodes label property)
  | insert {index : PropertyIndex} (value : Value) (id : String) :
      Reachable index → Reachable (index.insert value id)

theorem PropertyIndex.Reachable.isReduced {index : PropertyIndex} (reachable : index.Reachable) :
    index.IsReduced := by
  induction reachable with
  | empty => exact isReduced_empty
  | build nodes label property => exact isReduced_build nodes label property
  | insert value id _ reduced => exact reduced.file value.keyText id

namespace IndexCatalog

/-- The catalogs that come about. -/
inductive Reachable : IndexCatalog → Prop
  | empty : Reachable .empty
  | ofJson (json : Json) : Reachable (.ofJson json)
  | set {catalog : IndexCatalog} {index : PropertyIndex} (label property : String) :
      Reachable catalog → index.Reachable → Reachable (catalog.set label property index)
  | addNode {catalog : IndexCatalog} (node : Node) :
      Reachable catalog → Reachable (catalog.addNode node)

variable {catalog : IndexCatalog}

theorem Reachable.isReduced (reachable : catalog.Reachable) : catalog.IsReduced := by
  induction reachable with
  | empty => exact isReduced_empty
  | ofJson json => exact isReduced_ofJson json
  | set label property _ index reduced => exact reduced.set label property index.isReduced
  | addNode node _ reduced => exact reduced.addNode node

/-- Every catalog that comes about has some indexes for each of its labels, and in each bucket of
these some ids, each once; and it is read back from its JSON form, also when that is written as a
text.  In particular reading a document, writing it and reading it again is the same as reading it. -/
theorem read_back_of_reachable :
    (∀ catalog : IndexCatalog, catalog.Reachable →
      catalog.IsReduced ∧ ofJson catalog.toJson = catalog ∧
        ∀ style, (Json.sortedDocument? (catalog.toJson.write style)).map ofJson = some catalog) ∧
    ∀ json, ofJson (ofJson json).toJson = ofJson json := by
  have same : ∀ catalog : IndexCatalog, catalog.Reachable → ofJson catalog.toJson = catalog :=
    fun catalog reachable => ofJson_toJson reachable.isReduced
  refine ⟨fun catalog reachable => ⟨reachable.isReduced, same catalog reachable, fun style => ?_⟩,
    fun json => same _ (.ofJson json)⟩
  rw [sortedDocument?_write_toJson, Option.map_some, same catalog reachable]

/-- A document with malformed parts at every level, into which an index with a repeated id is set and
a node is filed. -/
theorem read_back_of_malformed :
    let document : Json := .object [("A", .array [.text "p"]), ("B", .object []),
      ("C", .object [("p", .object [("k", .array [.text "x", .integer 5, .text "x"]),
        ("e", .array []), ("n", .null)]), ("q", .text "k")])]
    let nodes : List Node := [⟨"x", ["B", "C"], .ofList [("p", .integer 1)]⟩,
      ⟨"x", ["B"], .ofList [("p", .text "1")]⟩]
    let index := (PropertyIndex.build nodes "B" "p").insert (.text "1") "x"
    let catalog := ((ofJson document).set "B" "p" index).addNode
      ⟨"y", ["C"], .ofList [("p", .text "k")]⟩
    catalog.Reachable ∧ catalog.IsReduced ∧ ofJson catalog.toJson = catalog ∧
      (Json.sortedDocument? (catalog.toJson.write .indented)).map ofJson = some catalog ∧
      catalog.definitions = [("B", "p"), ("C", "p")] := by
  intro document nodes index catalog
  have reachable : catalog.Reachable :=
    .addNode _ (.set "B" "p" (.ofJson document) (.insert _ _ (.build nodes "B" "p")))
  obtain ⟨reduced, same, written⟩ := read_back_of_reachable.1 catalog reachable
  exact ⟨reachable, reduced, same, written .indented, by decide +kernel⟩

end IndexCatalog
end GraphStore
