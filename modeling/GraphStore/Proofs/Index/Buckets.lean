import GraphStore.Index.PropertyIndex
import GraphStore.Proofs.Graph.Stored
import GraphStore.Proofs.SortedMaps

/-!
# Buckets of property indexes

An index that was built from nodes holds, under every key text, the ids of exactly the nodes whose
value has that key text, in their order.  Filing nodes one after the other builds the same index as
building it at once, and an index is read back from its JSON form.
-/

namespace GraphStore

theorem eraseDups_concat (items : List String) (item : String) :
    (items ++ [item]).eraseDups =
      if item ∈ items then items.eraseDups else items.eraseDups ++ [item] := by
  rw [List.eraseDups_append]
  by_cases known : item ∈ items <;> simp [List.removeAll, known, List.eraseDups_cons]

namespace PropertyIndex

variable {index : PropertyIndex} {label property : String}

/-! ## Filing -/

@[simp]
theorem bucket_empty (key : String) : empty.bucket key = [] := rfl

theorem bucket_file (index : PropertyIndex) (key id other : String) :
    (index.file key id).bucket other =
      if other = key ∧ id ∉ index.bucket key then index.bucket key ++ [id]
      else index.bucket other := by
  unfold file
  by_cases filed : id ∈ index.bucket key
  · simp [filed]
  · rw [if_neg (by simpa using filed)]
    by_cases same : other = key
    · rw [if_pos ⟨same, filed⟩, bucket, SortedMap.get?_insert, if_pos same, Option.getD_some]
    · rw [if_neg (by simp [same]), bucket, SortedMap.get?_insert, if_neg same, bucket]

/-- Filing an id in a bucket adds it to what was filed there, in whatever order and however often
that was done. -/
theorem bucket_file_self {key : String} {filed : List String}
    (holds : index.bucket key = filed.eraseDups) (id : String) :
    (index.file key id).bucket key = (filed ++ [id]).eraseDups := by
  rw [bucket_file, eraseDups_concat, holds]
  by_cases known : id ∈ filed
  · rw [if_neg fun both => both.2 (List.mem_eraseDups.2 known), if_pos known]
  · rw [if_pos ⟨rfl, fun member => known (List.mem_eraseDups.1 member)⟩, if_neg known]

theorem bucket_file_of_ne {key other : String} (differs : other ≠ key) (id : String) :
    (index.file key id).bucket other = index.bucket other := by
  rw [bucket_file, if_neg fun both => differs both.1]

/-- Whether a node is filed under a key text. -/
def isFiledUnder (label property key : String) (node : Node) : Bool :=
  (indexed? node label property).any fun value => value.keyText == key

theorem bucket_add {key : String} {filed : List String} (holds : index.bucket key = filed.eraseDups)
    (node : Node) :
    (index.add label property node).bucket key =
      if isFiledUnder label property key node then (filed ++ [node.id]).eraseDups
      else filed.eraseDups := by
  unfold add isFiledUnder
  cases indexed? node label property with
  | none => exact holds
  | some value =>
      rw [Option.any_some]
      by_cases same : value.keyText = key
      · subst same
        rw [if_pos (beq_self_eq_true _)]
        exact bucket_file_self holds node.id
      · rw [if_neg (by simpa using same)]
        exact (bucket_file_of_ne (Ne.symm same) node.id).trans holds

theorem add_of_not_lacks {node : Node} (lacksNot : index.lacks label property node = false) :
    index.add label property node = index := by
  unfold lacks at lacksNot
  unfold add
  cases value : indexed? node label property with
  | none => rfl
  | some value =>
      simp only [value, Bool.not_eq_false'] at lacksNot
      exact if_pos lacksNot

/-! ## Building -/

theorem build_append (nodes added : List Node) (label property : String) :
    build (nodes ++ added) label property =
      added.foldl (fun index node => index.add label property node)
        (build nodes label property) := by
  rw [build, List.foldl_append, build]

/-- A bucket of a built index holds the ids of the nodes whose value has the key text, each once and
in the order of the nodes. -/
theorem bucket_build (nodes : List Node) (label property key : String) :
    (build nodes label property).bucket key =
      ((nodes.filter (isFiledUnder label property key)).map Node.id).eraseDups := by
  induction nodes using List.reverseRecOn with
  | nil => rfl
  | append_singleton nodes node ih =>
      rw [build_append, List.foldl_cons, List.foldl_nil, bucket_add ih, List.filter_append,
        List.map_append]
      cases filed : isFiledUnder label property key node <;> simp [filed]

/-- The bucket of a built index holds the ids of the nodes whose value has the key text. -/
theorem mem_bucket_build (nodes : List Node) (label property key member : String) :
    member ∈ (build nodes label property).bucket key ↔
      ∃ node ∈ nodes, ∃ value, indexed? node label property = some value ∧
        key = value.keyText ∧ member = node.id := by
  simp only [bucket_build, List.mem_eraseDups, List.mem_map, List.mem_filter, isFiledUnder,
    Option.any_eq_true, beq_iff_eq]
  constructor
  · rintro ⟨node, ⟨inside, value, found, same⟩, rfl⟩
    exact ⟨node, inside, value, found, same.symm, rfl⟩
  · rintro ⟨node, inside, value, found, same, rfl⟩
    exact ⟨node, ⟨inside, value, found, same.symm⟩, rfl⟩

/-- The order of the properties of a node does not matter to an index. -/
theorem build_map_sorted (nodes : List Node) (label property : String) :
    build (nodes.map Node.sorted) label property = build nodes label property := by
  have same : ∀ (index : PropertyIndex) (node : Node),
      index.add label property node.sorted = index.add label property node := by
    intro index node
    simp only [add, indexed?, Node.hasLabel_sorted, Node.get?_properties_sorted, insert,
      Node.id_sorted]
  rw [build, List.foldl_map]
  simp only [same]
  rfl

/-! ## Reduced indexes -/

/-- Whether every bucket holds some ids, each once. -/
def IsReduced (index : PropertyIndex) : Prop :=
  ∀ key ids, index.buckets.get? key = some ids → ids ≠ [] ∧ ids.Nodup

theorem isReduced_empty : empty.IsReduced :=
  fun _ _ found => nomatch found

theorem IsReduced.nodup_bucket (reduced : index.IsReduced) (key : String) :
    (index.bucket key).Nodup := by
  unfold bucket
  cases found : index.buckets.get? key with
  | none => exact List.nodup_nil
  | some ids => exact (reduced key ids found).2

theorem IsReduced.file (reduced : index.IsReduced) (key id : String) :
    (index.file key id).IsReduced := by
  unfold PropertyIndex.file
  split
  · exact reduced
  · next absent =>
      intro other ids found
      rw [SortedMap.get?_insert] at found
      split at found
      · cases found
        refine ⟨by simp, List.nodup_append.2 ⟨reduced.nodup_bucket key, by simp, ?_⟩⟩
        rintro filed member other inside rfl
        rw [List.mem_singleton.1 inside] at member
        exact absent (List.contains_iff_mem.2 member)
      · exact reduced other ids found

theorem IsReduced.add (reduced : index.IsReduced) (node : Node) :
    (index.add label property node).IsReduced := by
  unfold PropertyIndex.add
  split
  · exact reduced.file _ _
  · exact reduced

theorem IsReduced.foldl_add (reduced : index.IsReduced) (nodes : List Node) :
    (nodes.foldl (fun index node => index.add label property node) index).IsReduced := by
  induction nodes generalizing index with
  | nil => exact reduced
  | cons node rest ih => exact ih (reduced.add node)

theorem isReduced_build (nodes : List Node) (label property : String) :
    (build nodes label property).IsReduced :=
  isReduced_empty.foldl_add nodes

/-- A reduced index has no other keys than those under which something is filed. -/
theorem IsReduced.mem_keys_iff (reduced : index.IsReduced) (key : String) :
    key ∈ index.buckets.keys ↔ ∃ id, id ∈ index.bucket key := by
  rw [SortedMap.keys, List.mem_map, bucket]
  constructor
  · rintro ⟨⟨_, ids⟩, member, rfl⟩
    have found := (index.buckets.mem_entries_iff _ ids).1 member
    rw [found, Option.getD_some]
    exact List.exists_mem_of_ne_nil ids (reduced _ ids found).1
  · rintro ⟨id, member⟩
    cases found : index.buckets.get? key with
    | none =>
        rw [found] at member
        cases member
    | some ids => exact ⟨(key, ids), (index.buckets.mem_entries_iff key ids).2 found, rfl⟩

/-- The size of a reduced index counts the keys under which something is filed. -/
theorem IsReduced.size_eq_card (reduced : index.IsReduced) {keys : Finset String}
    (same : ∀ key, (∃ id, id ∈ index.bucket key) ↔ key ∈ keys) : index.size = keys.card := by
  have length : index.size = index.buckets.keys.length := (List.length_map _).symm
  have distinct : index.buckets.keys.Nodup := index.buckets.keys_nodup
  rw [length, ← List.toFinset_card_of_nodup distinct]
  congr 1
  ext key
  rw [List.mem_toFinset, reduced.mem_keys_iff, same]

/-- A built index has as many keys as the indexed nodes have different key texts. -/
theorem size_build (nodes : List Node) (label property : String) :
    (build nodes label property).size =
      ((nodes.filterMap fun node => indexed? node label property).map
        Value.keyText).toFinset.card := by
  refine (isReduced_build nodes label property).size_eq_card fun key => ?_
  rw [List.mem_toFinset]
  simp only [mem_bucket_build, List.mem_map, List.mem_filterMap]
  constructor
  · rintro ⟨_, node, member, value, found, rfl, rfl⟩
    exact ⟨value, ⟨node, member, found⟩, rfl⟩
  · rintro ⟨value, ⟨node, member, found⟩, rfl⟩
    exact ⟨node.id, node, member, value, found, rfl, rfl⟩

/-! ## The JSON form -/

theorem bucket_insert (map : SortedMap (List String)) (key : String) (ids : List String) :
    bucket ⟨map.insert key ids⟩ key = ids := by
  rw [bucket, SortedMap.get?_insert, if_pos rfl, Option.getD_some]

/-- Filing ids that are not there yet adds them to a bucket. -/
theorem foldl_file_insert (map : SortedMap (List String)) (key : String)
    {filed ids : List String} (distinct : (filed ++ ids).Nodup) :
    ids.foldl (fun index id => file index key id) ⟨map.insert key filed⟩ =
      ⟨map.insert key (filed ++ ids)⟩ := by
  induction ids generalizing filed with
  | nil => rw [List.append_nil, List.foldl_nil]
  | cons id rest ih =>
      have absent : id ∉ filed := fun inside =>
        (List.nodup_append.1 distinct).2.2 id inside id List.mem_cons_self rfl
      have next : file ⟨map.insert key filed⟩ key id = ⟨map.insert key (filed ++ [id])⟩ := by
        rw [file, bucket_insert, if_neg (by simpa using absent), SortedMap.insert_insert]
      rw [List.foldl_cons, next, ih (by simpa using distinct), List.append_assoc,
        List.singleton_append]

theorem foldl_file_of_fresh {map : SortedMap (List String)} {key : String} {ids : List String}
    (fresh : map.get? key = none) (some : ids ≠ []) (distinct : ids.Nodup) :
    ids.foldl (fun index id => file index key id) ⟨map⟩ = ⟨map.insert key ids⟩ := by
  cases ids with
  | nil => exact absurd rfl some
  | cons id rest =>
      have first : file ⟨map⟩ key id = ⟨map.insert key [id]⟩ := by
        rw [file, bucket, fresh]
        rfl
      rw [List.foldl_cons, first, foldl_file_insert map key distinct]
      rfl

/-- Read a field of the JSON form of an index. -/
def addField (index : PropertyIndex) (field : String × Json) : PropertyIndex :=
  match field.2 with
  | .array ids => (ids.filterMap Json.asText?).foldl (fun index id => index.file field.1 id) index
  | _ => index

theorem ofFields_eq (fields : List (String × Json)) : ofFields fields = fields.foldl addField empty :=
  rfl

/-- A reduced index is read from its fields. -/
theorem ofFields_toJson (reduced : index.IsReduced) :
    ofFields (index.buckets.entries.map fun entry => (entry.1, .array (entry.2.map .text))) =
      index := by
  suffices general : ∀ (entries : List (String × List String)) (map : SortedMap (List String)),
      (entries.map Prod.fst).Nodup → (∀ entry ∈ entries, map.get? entry.1 = none) →
      (∀ entry ∈ entries, entry.2 ≠ [] ∧ entry.2.Nodup) →
      (entries.map fun entry => (entry.1, Json.array (entry.2.map .text))).foldl addField ⟨map⟩ =
        (⟨entries.foldl (fun map entry => map.insert entry.1 entry.2) map⟩ : PropertyIndex) by
    have whole := general index.buckets.entries .empty index.buckets.keys_nodup (fun _ _ => rfl)
      fun entry member => reduced entry.1 entry.2 ((index.buckets.mem_entries_iff _ _).1 member)
    rw [ofFields_eq]
    refine whole.trans ?_
    have same := index.buckets.ofList_entries
    rw [SortedMap.ofList] at same
    rw [same]
  intro entries
  induction entries with
  | nil => exact fun map _ _ _ => rfl
  | cons entry rest ih =>
      intro map distinct fresh filled
      obtain ⟨first, distinctRest⟩ := List.nodup_cons.1 distinct
      have texts : (entry.2.map Json.text).filterMap Json.asText? = entry.2 := by
        simp [List.filterMap_map, Function.comp_def, Json.asText?]
      have filedFirst := foldl_file_of_fresh (fresh entry List.mem_cons_self)
        (filled entry List.mem_cons_self).1 (filled entry List.mem_cons_self).2
      rw [List.map_cons, List.foldl_cons, List.foldl_cons]
      simp only [addField, texts, filedFirst]
      refine ih _ distinctRest (fun other member => ?_)
        fun other member => filled other (List.mem_cons_of_mem entry member)
      have differs : other.1 ≠ entry.1 :=
        fun same => first (same ▸ List.mem_map_of_mem member)
      rw [SortedMap.get?_insert, if_neg differs]
      exact fresh other (List.mem_cons_of_mem entry member)

theorem doubles_toJson (index : PropertyIndex) : index.toJson.doubles = [] := by
  rw [toJson, Json.doubles_object, List.flatMap_map]
  simp [Json.doubles_texts]

theorem depth_toJson_le (index : PropertyIndex) : index.toJson.depth ≤ 2 := by
  refine Json.depth_object_le fun field member => ?_
  obtain ⟨entry, -, rfl⟩ := List.mem_map.1 member
  refine Json.depth_array_le fun item inside => ?_
  obtain ⟨text, -, rfl⟩ := List.mem_map.1 inside
  exact Nat.le_refl 0

/-- A written index is read as the same document. -/
theorem reread_toJson (index : PropertyIndex) : index.toJson.reread.sorted = index.toJson := by
  simp only [toJson, Json.reread_object, Json.sorted_object, List.map_map, Function.comp_def,
    Json.sorted_reread_texts]
  rw [SortedMap.entries_ofList_map (fun ids : List String => Json.array (ids.map .text)),
    SortedMap.ofList_entries]

end PropertyIndex
end GraphStore
