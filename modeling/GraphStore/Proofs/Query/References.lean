import GraphStore.Proofs.Query.Progress
import GraphStore.Proofs.Query.Readability

/-!
# References of stored relationships

A stored relationship refers to two nodes by their ids.  What the files list tells whether these
nodes are there, also if the files hold numbers that cannot be loaded.  A statement only adds nodes,
and a relationship only between nodes that are saved before it, so that no reference comes to
dangle, wherever the statement is stopped.
-/

namespace GraphStore

/-! ## What files list -/

namespace Document

variable {α β : Type}

/-- The document that a file holds, if it holds one. -/
def held : Option Content → Option Json
  | some (.text source) =>
    if Text.trim source.toList = [] then none else Json.sortedDocument? source
  | _ => none

/-- What a file lists, record by record.  What is no list lists nothing. -/
def listed (decode : Json → Option α) (content : Option Content) : List α :=
  match held content with
  | some (.array items) => items.filterMap decode
  | _ => []

theorem held_of_ofContent {path : Path} {content : Except Fault Content} {document : Option Json}
    (read : ofContent path content = .ok document) : held content.toOption = document := by
  unfold ofContent at read
  split at read
  · next source =>
      change (if Text.trim source.toList = [] then none else Json.sortedDocument? source) = document
      split at read
      · next blank =>
          rw [if_pos blank]
          exact Except.ok.inj read
      · next visible =>
          rw [if_neg visible]
          split at read
          · next json found => exact found.trans (Except.ok.inj read)
          · cases read
  · exact Except.ok.inj read
  · cases read

theorem filterMap_of_mapM {decode : Json → Option α} {part : Json → Option β} {change : α → β}
    (decoded : ∀ {json value}, decode json = some value → part json = some (change value))
    {items : List Json} {values : List α} (all : items.mapM decode = some values) :
    items.filterMap part = values.map change := by
  induction items generalizing values with
  | nil =>
      cases all
      rfl
  | cons item rest ih =>
      simp only [List.mapM_cons, Option.bind_eq_bind, Option.bind_eq_some_iff] at all
      obtain ⟨value, read, others, readRest, same⟩ := all
      cases same
      rw [List.filterMap_cons_some (decoded read), ih readRest, List.map_cons]

/-- Items that load are listed. -/
theorem listed_of_itemsOfContent {decode : Json → Option α} {part : Json → Option β}
    {change : α → β}
    (decoded : ∀ {json value}, decode json = some value → part json = some (change value))
    {path : Path} {content : Except Fault Content} {values : List α}
    (loaded : itemsOfContent decode path content = .ok values) :
    listed part content.toOption = values.map change := by
  unfold itemsOfContent at loaded
  cases read : ofContent path content with
  | error error =>
      rw [read] at loaded
      cases loaded
  | ok document =>
      rw [read] at loaded
      rw [listed, held_of_ofContent read]
      simp only [Except.bind, items] at loaded
      split at loaded
      · cases loaded
        rfl
      · cases loaded
        rfl
      · next json _ =>
        split at loaded
        · next found =>
            cases loaded
            cases json with
            | array items => exact filterMap_of_mapM decoded found
            | _ => cases found
        · cases loaded

/-- The items of an array that was written are listed. -/
theorem listed_writeArray {encode : α → Json} {part : Json → Option β} {change : α → β}
    (decoded : ∀ value, part (encode value).recovered.reread.sorted = some (change value))
    (shallow : ∀ value, (encode value).depth ≤ 2) (style : Json.Style) (values : List α) :
    listed part (some (.text ((Json.array (values.map encode)).write style))) =
      values.map change := by
  have container : (Json.array (values.map encode)).isContainer := rfl
  have read : held (some (.text ((Json.array (values.map encode)).write style))) = _ :=
    (if_neg (Json.trim_write_ne_nil style container)).trans
      (sortedDocument?_writeArray style values shallow)
  rw [listed, read]
  simp only [List.filterMap_map]
  exact List.filterMap_eq_map_iff_forall_eq_some.2 fun value _ => decoded value

end Document

/-! ## References -/

/-- The ids of the nodes that a file lists. -/
def nodeIds : Option Content → List String :=
  Document.listed Node.idOfJson?

/-- The ids to which the relationships refer that a file lists. -/
def endpoints (content : Option Content) : List String :=
  (Document.listed Relationship.endsOfJson? content).flatten

theorem nodeIds_of_itemsOfContent {path : Path} {content : Except Fault Content}
    {nodes : List Node} (loaded : Document.itemsOfContent Node.ofJson? path content = .ok nodes) :
    nodeIds content.toOption = nodes.map Node.id :=
  Document.listed_of_itemsOfContent Node.idOfJson?_of_ofJson? loaded

theorem endpoints_of_itemsOfContent {path : Path} {content : Except Fault Content}
    {relationships : List Relationship}
    (loaded : Document.itemsOfContent Relationship.ofJson? path content = .ok relationships) :
    endpoints content.toOption = relationships.flatMap Relationship.ends := by
  rw [endpoints, Document.listed_of_itemsOfContent Relationship.endsOfJson?_of_ofJson? loaded,
    List.flatMap_def]

theorem nodeIds_write (style : Json.Style) (nodes : List Node) :
    nodeIds (some (.text ((Json.array (nodes.map Node.toJson)).write style))) =
      nodes.map Node.id :=
  Document.listed_writeArray Node.idOfJson?_written Node.depth_toJson_le style nodes

theorem endpoints_write (style : Json.Style) (relationships : List Relationship) :
    endpoints (some (.text
        ((Json.array (relationships.map Relationship.toJson)).write style))) =
      relationships.flatMap Relationship.ends := by
  rw [endpoints, Document.listed_writeArray Relationship.endsOfJson?_written
    Relationship.depth_toJson_le, List.flatMap_def]

/-! ## Statements -/

namespace Store

variable (store : Store)

/-- The ids of the stored nodes. -/
def nodeIds : List String :=
  GraphStore.nodeIds (store.read Collections.nodesFile).toOption

/-- The ids to which stored relationships refer. -/
def endpoints : List String :=
  GraphStore.endpoints (store.read Collections.relationshipsFile).toOption

/-- Whether all stored relationships refer to stored nodes. -/
def Refers : Prop :=
  store.endpoints ⊆ store.nodeIds

variable {store} {directory : Path} {reached : Store}

theorem nodeIds_of_nodes {nodes : List Node} (loaded : store.nodes directory = .ok nodes) :
    store.nodeIds = nodes.map Node.id :=
  nodeIds_of_itemsOfContent loaded

theorem endpoints_of_relationships {relationships : List Relationship}
    (loaded : store.relationships directory = .ok relationships) :
    store.endpoints = relationships.flatMap Relationship.ends :=
  endpoints_of_itemsOfContent loaded

theorem nodeIds_congr (same : reached.read = store.read) : reached.nodeIds = store.nodeIds := by
  rw [nodeIds, same, nodeIds]

theorem endpoints_congr (same : reached.read = store.read) :
    reached.endpoints = store.endpoints := by
  rw [endpoints, same, endpoints]

theorem nodeIds_put_of_ne {name : String} (content : Content)
    (differs : Collections.nodesFile ≠ name) : (store.put name content).nodeIds = store.nodeIds := by
  rw [nodeIds, read_put_of_ne _ _ differs, nodeIds]

theorem endpoints_put_of_ne {name : String} (content : Content)
    (differs : Collections.relationshipsFile ≠ name) :
    (store.put name content).endpoints = store.endpoints := by
  rw [endpoints, read_put_of_ne _ _ differs, endpoints]

end Store

namespace Query.Executor

variable {executor : Executor} {store reached : Store} {statement : Statement}

/-- Nodes that are saved add their ids. -/
theorem nodeIds_saveGrowth {nodes added : List Node}
    (loaded : store.nodes executor.directory = .ok nodes) :
    (executor.saveGrowth store nodes added).nodeIds = (nodes ++ added).map Node.id := by
  unfold saveGrowth
  split
  · next none => rw [none, List.append_nil, Store.nodeIds_of_nodes loaded]
  · rw [Store.nodeIds, Store.read_put_self]
    exact nodeIds_write executor.style _

theorem endpoints_saveGrowth (nodes added : List Node) :
    (executor.saveGrowth store nodes added).endpoints = store.endpoints := by
  unfold saveGrowth
  split
  · rfl
  · exact Store.endpoints_put_of_ne _ (by decide)

theorem nodeIds_saveRelationship (relationships : List Relationship)
    (relationship : Relationship) :
    (executor.saveRelationship store relationships relationship).nodeIds = store.nodeIds :=
  Store.nodeIds_put_of_ne _ (by decide)

/-- A relationship that is saved adds its ends. -/
theorem endpoints_saveRelationship (relationships : List Relationship)
    (relationship : Relationship) :
    (executor.saveRelationship store relationships relationship).endpoints =
      relationships.flatMap Relationship.ends ++ relationship.ends := by
  rw [saveRelationship, Store.endpoints, Store.read_put_self]
  refine (endpoints_write executor.style _).trans ?_
  simp

/-- No stored node is lost. -/
theorem Progress.nodeIds_subset (progress : Progress executor store statement reached) :
    store.nodeIds ⊆ reached.nodeIds := by
  induction progress with
  | unchanged same =>
      rw [Store.nodeIds_congr same]
      exact List.Subset.refl _
  | nodesSaved loaded areNew same =>
      rw [Store.nodeIds_congr same, nodeIds_saveGrowth loaded, Store.nodeIds_of_nodes loaded,
        List.map_append]
      exact List.subset_append_left _ _
  | relationshipSaved loaded loadedRelationships areNew startMember endMember own same =>
      rw [Store.nodeIds_congr same, nodeIds_saveRelationship, nodeIds_saveGrowth loaded,
        Store.nodeIds_of_nodes loaded, List.map_append]
      exact List.subset_append_left _ _
  | indexesSaved earlier writes same ih =>
      rwa [Store.nodeIds_congr same, Store.nodeIds_put_of_ne _ (by decide)]

/-- What relationships come to refer to is stored before them. -/
theorem Progress.endpoints_subset (progress : Progress executor store statement reached) :
    reached.endpoints ⊆ store.endpoints ++ reached.nodeIds := by
  induction progress with
  | unchanged same =>
      rw [Store.endpoints_congr same]
      exact List.subset_append_left _ _
  | nodesSaved loaded areNew same =>
      rw [Store.endpoints_congr same, endpoints_saveGrowth]
      exact List.subset_append_left _ _
  | relationshipSaved loaded loadedRelationships areNew startMember endMember own same =>
      rw [Store.endpoints_congr same, endpoints_saveRelationship, Store.nodeIds_congr same,
        nodeIds_saveRelationship, nodeIds_saveGrowth loaded,
        Store.endpoints_of_relationships loadedRelationships]
      refine List.append_subset.2 ⟨List.subset_append_left _ _,
        List.Subset.trans ?_ (List.subset_append_right _ _)⟩
      simp only [Relationship.ends, List.cons_subset, List.nil_subset, and_true]
      exact ⟨startMember, endMember⟩
  | indexesSaved earlier writes same ih =>
      rwa [Store.endpoints_congr same, Store.endpoints_put_of_ne _ (by decide),
        Store.nodeIds_congr same, Store.nodeIds_put_of_ne _ (by decide)]

/-- No reference comes to dangle, wherever the statement is stopped. -/
theorem Progress.refers (progress : Progress executor store statement reached)
    (refers : store.Refers) : reached.Refers :=
  List.Subset.trans progress.endpoints_subset (List.append_subset.2
    ⟨List.Subset.trans refers progress.nodeIds_subset, List.Subset.refl _⟩)

end Query.Executor

/-! ## Collections that load -/

/-- Whether a file, as far as it holds anything, lists items that load. -/
def Document.Loadable {α : Type} (decode : Json → Option α) (content : Option Content) : Prop :=
  ∀ found, content = some found →
    ∀ path, ∃ values, itemsOfContent decode path (.ok found) = .ok values

/-- Whether nodes and relationships load, as far as there are any, and no reference dangles. -/
structure Collections.Intact (nodes relationships : Option Content) : Prop where
  nodesLoad : Document.Loadable Node.ofJson? nodes
  relationshipsLoad : Document.Loadable Relationship.ofJson? relationships
  refers : endpoints relationships ⊆ nodeIds nodes

namespace Document

variable {α : Type} {decode : Json → Option α}

/-- What can be read and loads as far as it holds anything loads. -/
theorem Loadable.loads {content : Except Fault Content} (loadable : Loadable decode content.toOption)
    (readable : content ≠ .error .obstructed) (path : Path) :
    ∃ values, itemsOfContent decode path content = .ok values := by
  cases content with
  | ok found => exact loadable found rfl path
  | error fault =>
      cases fault with
      | missing => exact ⟨[], rfl⟩
      | obstructed => exact absurd rfl readable

theorem loadable_of_loads {content : Except Fault Content} {path : Path} {values : List α}
    (loads : itemsOfContent decode path content = .ok values) :
    Loadable decode content.toOption := by
  intro found holds other
  cases content with
  | ok content =>
      cases holds
      exact ⟨values, itemsOfContent_path other loads⟩
  | error fault => cases holds

theorem loadable_nodes_write (style : Json.Style) {nodes : List Node}
    (finite : ∀ node ∈ nodes, node.isFinite) :
    Loadable Node.ofJson? (some (.text ((Json.array (nodes.map Node.toJson)).write style))) := by
  rintro found ⟨⟩ path
  exact ⟨_, (nodes_write_eq path style nodes).trans (if_pos (List.all_eq_true.2 finite))⟩

theorem loadable_relationships_write (style : Json.Style) {relationships : List Relationship}
    (finite : ∀ relationship ∈ relationships, relationship.isFinite) :
    Loadable Relationship.ofJson? (some (.text
      ((Json.array (relationships.map Relationship.toJson)).write style))) := by
  rintro found ⟨⟩ path
  exact ⟨_, (relationships_write_eq path style relationships).trans
    (if_pos (List.all_eq_true.2 finite))⟩

end Document

theorem Store.readable_put {store : Store} {name file : String} {content : Content}
    (readable : store.read file ≠ .error .obstructed) :
    (store.put name content).read file ≠ .error .obstructed := by
  by_cases same : file = name
  · rw [same, read_put_self]
    rintro ⟨⟩
  · rwa [read_put_of_ne _ _ same]

/-- Whether the nodes and the relationships of a store load, as far as there are any, and no
reference dangles. -/
def Store.Intact (store : Store) : Prop :=
  Collections.Intact (store.read Collections.nodesFile).toOption
    (store.read Collections.relationshipsFile).toOption

namespace Query

/-- Whether all numbers that a statement stores are finite. -/
def Statement.isFinite : Statement → Bool
  | .createNodes patterns => patterns.all fun pattern => pattern.properties.isFinite
  | .createRelationship start _ properties target =>
    start.properties.isFinite && properties.isFinite && target.properties.isFinite
  | .createIndex .. | .matching _ => true

theorem Statement.forall_isFinite_of_isFinite {statement : Statement}
    (finite : statement.isFinite) :
    ∀ pattern ∈ statement.newNodes, pattern.properties.isFinite := by
  cases statement with
  | createNodes patterns => exact List.all_eq_true.1 finite
  | createRelationship start type properties target =>
      simp only [isFinite, Bool.and_eq_true] at finite
      simp [newNodes, finite]
  | createIndex | matching => simp [newNodes]

namespace Executor

variable {executor : Executor} {store reached : Store} {statement : Statement}

theorem loadable_saveGrowth {nodes added : List Node}
    (loaded : store.nodes executor.directory = .ok nodes)
    (finite : ∀ node ∈ added, node.isFinite) :
    Document.Loadable Node.ofJson?
      ((executor.saveGrowth store nodes added).read Collections.nodesFile).toOption := by
  unfold saveGrowth
  split
  · exact Document.loadable_of_loads loaded
  · rw [Store.read_put_self]
    exact Document.loadable_nodes_write executor.style fun node member =>
      (List.mem_append.1 member).elim (Store.forall_isFinite_of_nodes loaded node) (finite node)

theorem loadable_saveRelationship {relationships : List Relationship} {relationship : Relationship}
    {other : Store} (loaded : store.relationships executor.directory = .ok relationships)
    (finite : relationship.isFinite) :
    Document.Loadable Relationship.ofJson? ((executor.saveRelationship other relationships
      relationship).read Collections.relationshipsFile).toOption := by
  rw [saveRelationship, Store.read_put_self]
  refine Document.loadable_relationships_write executor.style fun stored member => ?_
  rcases List.mem_append.1 member with earlier | new
  · exact Store.forall_isFinite_of_relationships loaded stored earlier
  · rwa [List.mem_singleton.1 new]

theorem read_saveGrowth_of_ne {nodes added : List Node} {file : String}
    (differs : file ≠ Collections.nodesFile) :
    (executor.saveGrowth store nodes added).read file = store.read file := by
  unfold saveGrowth
  split
  · rfl
  · exact Store.read_put_of_ne _ _ differs

/-- A statement with finite numbers leaves collections that load, wherever it is stopped. -/
theorem Progress.intact (progress : Progress executor store statement reached)
    (finite : statement.isFinite) (intact : store.Intact) : reached.Intact := by
  have loads : Document.Loadable Node.ofJson? (reached.read Collections.nodesFile).toOption ∧
      Document.Loadable Relationship.ofJson?
        (reached.read Collections.relationshipsFile).toOption := by
    have patterns := Statement.forall_isFinite_of_isFinite finite
    induction progress with
    | unchanged same =>
        rw [same]
        exact ⟨intact.nodesLoad, intact.relationshipsLoad⟩
    | nodesSaved loaded areNew same =>
        rw [same]
        refine ⟨loadable_saveGrowth loaded (areNew.isFinite patterns), ?_⟩
        rw [read_saveGrowth_of_ne (by decide)]
        exact intact.relationshipsLoad
    | relationshipSaved loaded loadedRelationships areNew startMember endMember own same =>
        have ownFinite := finite
        simp only [Statement.isFinite, Bool.and_eq_true] at ownFinite
        rw [same]
        constructor
        · rw [saveRelationship, Store.read_put_of_ne _ _ (by decide)]
          exact loadable_saveGrowth loaded (areNew.isFinite patterns)
        · refine loadable_saveRelationship loadedRelationships ?_
          rw [Relationship.isFinite, own]
          exact ownFinite.1.2
    | indexesSaved earlier writes same ih =>
        rw [same, Store.read_put_of_ne _ _ (by decide), Store.read_put_of_ne _ _ (by decide)]
        exact ih finite patterns
  exact ⟨loads.1, loads.2, progress.refers intact.refers⟩

/-- A file that can be read can be read all the way. -/
theorem Progress.readable (progress : Progress executor store statement reached) {file : String}
    (readable : store.read file ≠ .error .obstructed) : reached.read file ≠ .error .obstructed := by
  have grown {nodes added : List Node} :
      (executor.saveGrowth store nodes added).read file ≠ .error .obstructed := by
    unfold saveGrowth
    split
    · exact readable
    · exact Store.readable_put readable
  induction progress with
  | unchanged same => rwa [same]
  | nodesSaved loaded areNew same =>
      rw [same]
      exact grown
  | relationshipSaved loaded loadedRelationships areNew startMember endMember own same =>
      rw [same]
      exact Store.readable_put grown
  | indexesSaved earlier writes same ih =>
      rw [same]
      exact Store.readable_put ih

end Executor
end Query
end GraphStore
