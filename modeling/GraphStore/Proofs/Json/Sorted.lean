import GraphStore.Proofs.Json.Written
import GraphStore.Proofs.SortedMaps

/-!
# Reading stored documents

Stored documents are read with the fields of their objects in the order of the keys.  Sorting keeps
what stands under each key, and leaves objects alone that are sorted already.
-/

namespace GraphStore

namespace Json

mutual

theorem readable_reread (json : Json) : json.reread.readable := by
  match json with
  | null | boolean _ | integer _ | text _ | unreadable => rfl
  | double number => cases finite : number.isFinite <;> simp [reread, finite, readable]
  | array items => simpa [reread, readable] using readable_rereadItems items
  | object fields => simpa [reread, readable] using readable_rereadFields fields

theorem readable_rereadItems (items : List Json) : readableItems (rereadItems items) := by
  match items with
  | [] => rfl
  | item :: items =>
      simp [rereadItems, readableItems, readable_reread item, readable_rereadItems items]

theorem readable_rereadFields (fields : List (String × Json)) :
    readableFields (rereadFields fields) := by
  match fields with
  | [] => rfl
  | (key, value) :: fields =>
      simp [rereadFields, readableFields, readable_reread value, readable_rereadFields fields]

end

mutual

theorem depth_reread (json : Json) : json.reread.depth = json.depth := by
  match json with
  | null | boolean _ | integer _ | text _ | unreadable => rfl
  | double number => cases finite : number.isFinite <;> simp [reread, finite, depth]
  | array items => simpa [reread, depth] using depth_rereadItems items
  | object fields => simpa [reread, depth] using depth_rereadFields fields

theorem depth_rereadItems (items : List Json) :
    depthOfItems (rereadItems items) = depthOfItems items := by
  match items with
  | [] => rfl
  | item :: items =>
      simp [rereadItems, depthOfItems, depth_reread item, depth_rereadItems items]

theorem depth_rereadFields (fields : List (String × Json)) :
    depthOfFields (rereadFields fields) = depthOfFields fields := by
  match fields with
  | [] => rfl
  | (key, value) :: fields =>
      simp [rereadFields, depthOfFields, depth_reread value, depth_rereadFields fields]

end

mutual

theorem depth_recovered (json : Json) : json.recovered.depth = json.depth := by
  match json with
  | null | boolean _ | integer _ | text _ | unreadable | double _ => rfl
  | array items => simpa [recovered, depth] using depth_recoveredItems items
  | object fields => simpa [recovered, depth] using depth_recoveredFields fields

theorem depth_recoveredItems (items : List Json) :
    depthOfItems (recoveredItems items) = depthOfItems items := by
  match items with
  | [] => rfl
  | item :: items =>
      simp [recoveredItems, depthOfItems, depth_recovered item, depth_recoveredItems items]

theorem depth_recoveredFields (fields : List (String × Json)) :
    depthOfFields (recoveredFields fields) = depthOfFields fields := by
  match fields with
  | [] => rfl
  | (key, value) :: fields =>
      simp [recoveredFields, depthOfFields, depth_recovered value, depth_recoveredFields fields]

end

/-- A written document that does not nest too deeply is read with sorted fields. -/
theorem sortedDocument?_write_eq (style : Style) (json : Json)
    (shallow : json.depth ≤ nestingLimit) :
    sortedDocument? (json.write style) = some json.recovered.reread.sorted := by
  simp [sortedDocument?, document?, parse?_write_eq style json, Option.filter, readable_reread,
    depth_reread, depth_recovered, shallow]

/-- A written document that does not nest too deeply is read back with sorted fields. -/
theorem sortedDocument?_write (style : Style) (json : Json) (readsBack : ReadsBack json.doubles)
    (shallow : json.depth ≤ nestingLimit) :
    sortedDocument? (json.write style) = some json.reread.sorted := by
  rw [sortedDocument?_write_eq style json shallow, recovered_eq_self readsBack]

end Json
end GraphStore
