import GraphStore.Proofs.Double.Places
import GraphStore.Proofs.Graph.Stored

/-!
# Finite numbers

Every double that is read is finite, since a number beyond the doubles is unreadable.  So every
entity that is loaded is finite.
-/

namespace GraphStore
namespace Json

/-- Every double in a value is finite. -/
def Finite (json : Json) : Prop :=
  ∀ number ∈ json.doubles, number.isFinite

@[simp]
theorem finite_array (items : List Json) :
    (array items).Finite ↔ ∀ item ∈ items, item.Finite := by
  simp only [Finite, doubles_array, List.mem_flatMap]
  constructor
  · exact fun every item member number inItem => every number ⟨item, member, inItem⟩
  · rintro every number ⟨item, member, inItem⟩
    exact every item member number inItem

@[simp]
theorem finite_object (fields : List (String × Json)) :
    (object fields).Finite ↔ ∀ field ∈ fields, field.2.Finite := by
  simp only [Finite, doubles_object, List.mem_flatMap]
  constructor
  · exact fun every field member number inField => every number ⟨field, member, inField⟩
  · rintro every number ⟨field, member, inField⟩
    exact every field member number inField

@[simp]
theorem finite_double (number : Double) : (double number).Finite ↔ number.isFinite := by
  simp [Finite, doubles]

theorem finite_of_doubles_eq_nil {json : Json} (without : json.doubles = []) : json.Finite := by
  simp [Finite, without]

/-! ## Numbers -/

namespace NumberText

theorem finite_value (number : NumberText) : number.value.Finite := by
  rcases number.isNumber_value with ⟨other, same, finite⟩ | ⟨integer, same⟩ | same
  · exact same ▸ (finite_double other).2 finite
  · exact finite_of_doubles_eq_nil (same ▸ rfl)
  · exact finite_of_doubles_eq_nil (same ▸ rfl)

end NumberText

/-! ## Tokens -/

namespace Token

/-- Every double in a token is finite. -/
def Finite : Token → Prop
  | scalar value => value.Finite
  | _ => True

theorem finite_of_scan? {text rest : List Char} {token : Token}
    (scanned : scan? text = some (token, rest)) : token.Finite := by
  unfold scan? at scanned
  split at scanned
  case h_7 =>
    obtain ⟨_, -, same⟩ := Option.map_eq_some_iff.1 scanned
    cases same
    trivial
  case h_8 | h_9 | h_10 =>
    cases scanned
    exact finite_of_doubles_eq_nil rfl
  case h_11 =>
    obtain ⟨⟨number, after⟩, -, same⟩ := Option.map_eq_some_iff.1 scanned
    cases same
    exact number.finite_value
  all_goals
    cases scanned
    trivial

theorem finite_of_ofText? {text : List Char} {tokens : List Token}
    (divided : ofText? text = some tokens) : ∀ token ∈ tokens, token.Finite := by
  induction text using ofText?.induct generalizing tokens with
  | case1 =>
      rw [ofText?] at divided
      cases divided
      simp
  | case2 c tail space ih =>
      rw [ofText?, if_pos space] at divided
      exact ih divided
  | case3 c tail solid failed =>
      have none : ofText? (c :: tail) = none := by
        rw [ofText?, if_neg solid]
        split
        · rfl
        · next found => rw [failed] at found; cases found
      rw [none] at divided
      cases divided
  | case4 c tail solid token rest scanned shorter ih =>
      have next : ofText? (c :: tail) = (ofText? rest).map (token :: ·) := by
        refine ofText?_of_scan? scanned ?_
        simpa using solid
      rw [next] at divided
      obtain ⟨others, dividedRest, rfl⟩ := Option.map_eq_some_iff.1 divided
      intro other member
      rcases List.mem_cons.1 member with rfl | member
      · exact finite_of_scan? scanned
      · exact ih dividedRest other member

end Token

/-! ## The reader -/

/-- Every double in an open array or object is finite. -/
def Frame.Finite : Frame → Prop
  | .array items => ∀ item ∈ items, item.Finite
  | .object fields _ => ∀ field ∈ fields, field.2.Finite

namespace Reader

/-- Every double that was read so far is finite. -/
def Finite : Reader → Prop
  | valueNext stack | itemOrEnd stack | keyOrEnd stack => ∀ frame ∈ stack, frame.Finite
  | afterItem items stack => (∀ item ∈ items, item.Finite) ∧ ∀ frame ∈ stack, frame.Finite
  | keyNext fields stack | colonNext fields _ stack | afterField fields stack =>
    (∀ field ∈ fields, field.2.Finite) ∧ ∀ frame ∈ stack, frame.Finite
  | complete result => result.Finite

theorem finite_deliver {value : Json} {stack : List Frame} (finite : value.Finite)
    (stackFinite : ∀ frame ∈ stack, frame.Finite) : (deliver value stack).Finite := by
  cases stack with
  | nil => exact finite
  | cons frame rest =>
      have frameFinite := stackFinite frame List.mem_cons_self
      have restFinite := fun other member => stackFinite other (List.mem_cons_of_mem frame member)
      cases frame with
      | array items => exact ⟨List.forall_mem_cons.2 ⟨finite, frameFinite⟩, restFinite⟩
      | object fields key => exact ⟨List.forall_mem_cons.2 ⟨finite, frameFinite⟩, restFinite⟩

theorem mem_of_mapM_named {fields : List (Option String × Json)} {named : List (String × Json)}
    (all : fields.mapM (fun field => field.1.map fun key => (key, field.2)) = some named) :
    ∀ field ∈ named, ∃ other ∈ fields, other.2 = field.2 := by
  induction fields generalizing named with
  | nil =>
      cases all
      simp
  | cons field rest ih =>
      rw [List.mapM_cons] at all
      simp only [Option.bind_eq_bind, Option.bind_eq_some_iff, Option.map_eq_some_iff] at all
      obtain ⟨first, ⟨key, -, rfl⟩, others, allRest, same⟩ := all
      cases same
      intro other member
      rcases List.mem_cons.1 member with rfl | member
      · exact ⟨field, List.mem_cons_self, rfl⟩
      · obtain ⟨source, sourceMember, same⟩ := ih allRest other member
        exact ⟨source, List.mem_cons_of_mem field sourceMember, same⟩

theorem finite_objectOf {fields : List (Option String × Json)}
    (finite : ∀ field ∈ fields, field.2.Finite) : (objectOf fields).Finite := by
  unfold objectOf
  split
  · next named all =>
      refine (finite_object named).2 fun field member => ?_
      obtain ⟨source, sourceMember, same⟩ := mem_of_mapM_named all field member
      exact same ▸ finite source (List.mem_reverse.1 sourceMember)
  · exact finite_of_doubles_eq_nil rfl

theorem finite_startValue? {stack : List Frame} {token : Token} {next : Reader}
    (started : startValue? stack token = some next) (tokenFinite : token.Finite)
    (stackFinite : ∀ frame ∈ stack, frame.Finite) : next.Finite := by
  cases token with
  | openArray | openObject =>
      cases started
      exact stackFinite
  | closeArray | closeObject | comma | colon => cases started
  | string value =>
      cases started
      refine finite_deliver ?_ stackFinite
      cases value <;> exact finite_of_doubles_eq_nil rfl
  | scalar value =>
      cases started
      exact finite_deliver tokenFinite stackFinite

theorem finite_next? {reader next : Reader} {token : Token} (finite : reader.Finite)
    (tokenFinite : token.Finite) (read : reader.next? token = some next) : next.Finite := by
  unfold next? at read
  split at read
  · exact finite_startValue? read tokenFinite finite
  · cases read
    exact finite_deliver (finite_of_doubles_eq_nil rfl) finite
  · refine finite_startValue? read tokenFinite (List.forall_mem_cons.2 ⟨?_, finite⟩)
    simp [Frame.Finite]
  · cases read
    exact List.forall_mem_cons.2 finite
  · next items stack =>
      cases read
      refine finite_deliver ((finite_array _).2 fun item member => ?_) finite.2
      exact finite.1 item (List.mem_reverse.1 member)
  · cases read
    exact finite_deliver (finite_of_doubles_eq_nil rfl) finite
  · cases read
    exact ⟨by simp, finite⟩
  · cases read
    exact finite
  · cases read
    exact List.forall_mem_cons.2 finite
  · cases read
    exact finite
  · cases read
    exact finite_deliver (finite_objectOf finite.1) finite.2
  · cases read

theorem finite_run? {tokens : List Token} {reader last : Reader} (finite : reader.Finite)
    (tokensFinite : ∀ token ∈ tokens, token.Finite) (read : reader.run? tokens = some last) :
    last.Finite := by
  induction tokens generalizing reader with
  | nil =>
      cases read
      exact finite
  | cons token rest ih =>
      rw [run?_cons] at read
      obtain ⟨next, first, later⟩ := Option.bind_eq_some_iff.1 read
      refine ih ?_ (fun other member => tokensFinite other (List.mem_cons_of_mem token member)) later
      exact finite_next? finite (tokensFinite token List.mem_cons_self) first

end Reader

/-- Every double in a text is read as a finite one. -/
theorem finite_of_parse? {source : String} {json : Json} (parsed : parse? source = some json) :
    json.Finite := by
  simp only [parse?, Option.bind_eq_bind, Option.bind_eq_some_iff] at parsed
  obtain ⟨tokens, divided, reader, read, finished⟩ := parsed
  have finite : reader.Finite := by
    refine Reader.finite_run? ?_ (Token.finite_of_ofText? divided) read
    simp [Reader.Finite]
  cases reader with
  | complete result =>
      cases finished
      exact finite
  | _ => cases finished

end Json

/-! ## Loaded entities -/

namespace Json

mutual

theorem finite_sorted (json : Json) (finite : json.Finite) : json.sorted.Finite := by
  match json with
  | null | boolean _ | integer _ | double _ | text _ | unreadable => exact finite
  | array items =>
      rw [sorted, finite_array]
      exact finite_sortedItems items ((finite_array items).1 finite)
  | object fields =>
      rw [sorted, finite_object]
      intro field member
      exact finite_sortedFields fields ((finite_object fields).1 finite) field
        (SortedMap.mem_of_mem_ofList member)

theorem finite_sortedItems (items : List Json) (finite : ∀ item ∈ items, item.Finite) :
    ∀ item ∈ sortedItems items, item.Finite := by
  match items with
  | [] => simp [sortedItems]
  | item :: rest =>
      rw [sortedItems]
      exact List.forall_mem_cons.2 ⟨finite_sorted item (finite item List.mem_cons_self),
        finite_sortedItems rest fun other member => finite other (List.mem_cons_of_mem item member)⟩

theorem finite_sortedFields (fields : List (String × Json))
    (finite : ∀ field ∈ fields, field.2.Finite) :
    ∀ field ∈ sortedFields fields, field.2.Finite := by
  match fields with
  | [] => simp [sortedFields]
  | (key, value) :: rest =>
      rw [sortedFields]
      exact List.forall_mem_cons.2 ⟨finite_sorted value (finite (key, value) List.mem_cons_self),
        finite_sortedFields rest fun other member =>
          finite other (List.mem_cons_of_mem (key, value) member)⟩

end

theorem finite_of_sortedDocument? {source : String} {json : Json}
    (loaded : sortedDocument? source = some json) : json.Finite := by
  obtain ⟨document, read, rfl⟩ := Option.map_eq_some_iff.1 loaded
  obtain ⟨parsed, -⟩ := Option.filter_eq_some_iff.1 read
  exact finite_sorted document (finite_of_parse? parsed)

theorem finite_of_record? {names : List String} {json : Json} {fields : List (String × Json)}
    (record : json.record? names = some fields) (finite : json.Finite) :
    ∀ field ∈ fields, field.2.Finite := by
  cases json with
  | object all =>
      simp only [record?, Option.ite_none_right_eq_some, Option.some.injEq] at record
      obtain ⟨-, rfl⟩ := record
      intro field member
      exact (finite_object all).1 finite field (List.mem_filter.1 member).1
  | array items =>
      simp only [record?, Option.ite_none_right_eq_some, Option.some.injEq] at record
      obtain ⟨-, rfl⟩ := record
      intro field member
      exact (finite_array items).1 finite field.2 (List.of_mem_zip member).2
  | _ => cases record

end Json

theorem Properties.mem_entries_insert {properties : Properties} {key : String} {value : Value}
    {entry : String × Value} (member : entry ∈ (properties.insert key value).entries) :
    entry = (key, value) ∨ entry ∈ properties.entries := by
  obtain ⟨entries, distinct⟩ := properties
  simp only [insert] at member ⊢
  clear distinct
  induction entries with
  | nil => exact Or.inl (List.mem_singleton.1 member)
  | cons first rest ih =>
      rw [insertEntry] at member
      split at member
      · rcases List.mem_cons.1 member with same | member
        · exact Or.inl same
        · exact Or.inr (List.mem_cons_of_mem first member)
      · rcases List.mem_cons.1 member with rfl | member
        · exact Or.inr List.mem_cons_self
        · exact (ih member).imp id (List.mem_cons_of_mem first)

theorem Properties.mem_of_mem_ofList {entries : List (String × Value)} {entry : String × Value}
    (member : entry ∈ (ofList entries).entries) : entry ∈ entries := by
  suffices general : ∀ properties : Properties,
      entry ∈ (entries.foldl (fun map entry => map.insert entry.1 entry.2) properties).entries →
        entry ∈ entries ∨ entry ∈ properties.entries by
    rcases general empty member with found | impossible
    · exact found
    · cases impossible
  clear member
  induction entries with
  | nil => exact fun properties member => Or.inr member
  | cons first rest ih =>
      intro properties member
      rcases ih _ member with found | found
      · exact Or.inl (List.mem_cons_of_mem first found)
      · rcases mem_entries_insert found with rfl | found
        · exact Or.inl List.mem_cons_self
        · exact Or.inr found

theorem Properties.isFinite_of_ofJson? {json : Json} {properties : Properties}
    (decoded : ofJson? json = some properties) (finite : json.Finite) : properties.isFinite := by
  cases json with
  | object fields =>
      obtain ⟨entries, values, rfl⟩ := Option.map_eq_some_iff.1 decoded
      have each : ∀ entry ∈ entries, entry.2.isFinite := by
        clear decoded
        rw [Json.finite_object] at finite
        induction fields generalizing entries with
        | nil =>
            cases values
            simp
        | cons field rest ih =>
            rw [List.mapM_cons] at values
            simp only [Option.bind_eq_bind, Option.bind_eq_some_iff,
              Option.map_eq_some_iff] at values
            obtain ⟨_, ⟨value, read, rfl⟩, others, readRest, same⟩ := values
            cases same
            have valueFinite : value.isFinite := by
              have fieldFinite := finite field List.mem_cons_self
              cases shape : field.2 with
              | double number =>
                  rw [shape] at read fieldFinite
                  cases read
                  exact (Json.finite_double number).1 fieldFinite
              | boolean | integer | text =>
                  rw [shape] at read
                  cases read
                  rfl
              | null | array | object | unreadable =>
                  rw [shape] at read
                  cases read
            exact List.forall_mem_cons.2 ⟨valueFinite, ih
              (fun other member => finite other (List.mem_cons_of_mem field member)) others
              readRest⟩
      exact List.all_eq_true.2 fun entry member => each entry (mem_of_mem_ofList member)
  | _ => cases decoded

private theorem isFinite_of_defaulted? {fields : List (String × Json)} {properties : Properties}
    (decoded : Json.defaulted? fields "properties" Properties.ofJson? .empty = some properties)
    (finite : ∀ field ∈ fields, field.2.Finite) : properties.isFinite := by
  unfold Json.defaulted? at decoded
  split at decoded
  · cases decoded
    rfl
  · next value found =>
      obtain ⟨before, after, rfl, -⟩ := List.lookup_eq_some_iff.1 found
      exact Properties.isFinite_of_ofJson? decoded (finite ("properties", value) (by simp))

theorem Node.isFinite_of_ofJson? {json : Json} {node : Node} (decoded : ofJson? json = some node)
    (finite : json.Finite) : node.isFinite := by
  simp only [ofJson?, Option.bind_eq_bind, Option.bind_eq_some_iff] at decoded
  obtain ⟨fields, record, _, -, _, -, properties, read, same⟩ := decoded
  cases same
  exact isFinite_of_defaulted? read (Json.finite_of_record? record finite)

theorem Relationship.isFinite_of_ofJson? {json : Json} {relationship : Relationship}
    (decoded : ofJson? json = some relationship) (finite : json.Finite) :
    relationship.isFinite := by
  simp only [ofJson?, Option.bind_eq_bind, Option.bind_eq_some_iff] at decoded
  obtain ⟨fields, record, _, -, _, -, _, -, _, -, properties, read, same⟩ := decoded
  cases same
  exact isFinite_of_defaulted? read (Json.finite_of_record? record finite)

end GraphStore
