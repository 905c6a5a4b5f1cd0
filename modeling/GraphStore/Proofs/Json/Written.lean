import GraphStore.Json.Reader
import GraphStore.Proofs.Json.Doubles
import GraphStore.Proofs.Json.Strings

/-!
# Reading written JSON

The writer puts no spaces where the reader needs none, so a written value falls apart into the
tokens `Json.tokens`, and the reader makes of them the value `Json.reread`: the written value with
null for every number that is not finite.  The finite ones may come back as their neighbours, as in
`Json.recovered`.  The main statements are `parse?_write_eq`, and `parse?_write` for numbers that
are read back.
-/

namespace GraphStore
namespace Json

/-! ## What is read back -/

mutual

/-- What a written value is read as. -/
def reread : Json → Json
  | double number => if number.isFinite then double number else null
  | array items => array (rereadItems items)
  | object fields => object (rereadFields fields)
  | unreadable => null
  | value => value

/-- What the written items of an array are read as. -/
def rereadItems : List Json → List Json
  | [] => []
  | item :: rest => item.reread :: rereadItems rest

/-- What the written fields of an object are read as. -/
def rereadFields : List (String × Json) → List (String × Json)
  | [] => []
  | (key, value) :: rest => (key, value.reread) :: rereadFields rest

end

mutual

/-- The written value with the doubles as which its finite doubles are read. -/
def recovered : Json → Json
  | double number => double number.recovered
  | array items => array (recoveredItems items)
  | object fields => object (recoveredFields fields)
  | value => value

/-- The written items of an array with the doubles as which theirs are read. -/
def recoveredItems : List Json → List Json
  | [] => []
  | item :: rest => item.recovered :: recoveredItems rest

/-- The written fields of an object with the doubles as which theirs are read. -/
def recoveredFields : List (String × Json) → List (String × Json)
  | [] => []
  | (key, value) :: rest => (key, value.recovered) :: recoveredFields rest

end

mutual

/-- The doubles in a value. -/
def doubles : Json → List Double
  | double number => [number]
  | array items => doublesOfItems items
  | object fields => doublesOfFields fields
  | _ => []

/-- The doubles in the items of an array. -/
def doublesOfItems : List Json → List Double
  | [] => []
  | item :: rest => item.doubles ++ doublesOfItems rest

/-- The doubles in the fields of an object. -/
def doublesOfFields : List (String × Json) → List Double
  | [] => []
  | (_, value) :: rest => value.doubles ++ doublesOfFields rest

end

/-- Every finite double of some is read back from its written form. -/
def ReadsBack (numbers : List Double) : Prop :=
  ∀ number ∈ numbers, number.isFinite → number.isReadBack

theorem readsBack_append {left right : List Double} :
    ReadsBack (left ++ right) ↔ ReadsBack left ∧ ReadsBack right := by
  simp only [ReadsBack, List.mem_append]
  grind

theorem ReadsBack.of_subset {all some : List Double} (readsBack : ReadsBack all)
    (subset : some ⊆ all) : ReadsBack some :=
  fun number member finite => readsBack number (subset member) finite

/-! ## Tokens of written values -/

mutual

/-- The tokens of a written value. -/
def tokens : Json → List Token
  | text value => [.string (some value)]
  | array [] => [.openArray, .closeArray]
  | array (item :: rest) => .openArray :: tokens item ++ tokensOfItems rest ++ [.closeArray]
  | object [] => [.openObject, .closeObject]
  | object ((key, value) :: rest) =>
    .openObject :: .string (some key) :: .colon :: tokens value ++ tokensOfFields rest ++
      [.closeObject]
  | value => [.scalar value.reread]

/-- The tokens of the items after the first. -/
def tokensOfItems : List Json → List Token
  | [] => []
  | item :: rest => .comma :: tokens item ++ tokensOfItems rest

/-- The tokens of the fields after the first. -/
def tokensOfFields : List (String × Json) → List Token
  | [] => []
  | (key, value) :: rest =>
    .comma :: .string (some key) :: .colon :: tokens value ++ tokensOfFields rest

end

namespace Token

theorem ofText?_space {c : Char} (space : isSpace c) (rest : List Char) :
    ofText? (c :: rest) = ofText? rest := by
  rw [ofText?, if_pos space]

theorem ofText?_of_scan? {text rest : List Char} {token : Token}
    (scanned : scan? text = some (token, rest)) (nonspace : ∀ c ∈ text.head?, isSpace c = false) :
    ofText? text = (ofText? rest).map (token :: ·) := by
  cases text with
  | nil => simp [scan?, NumberText.scan?, NumberText.takeMinus, Text.spanDigits] at scanned
  | cons c text =>
      have solid := nonspace c (by simp)
      rw [ofText?, solid]
      simp only [Bool.false_eq_true, if_false]
      split
      · next failed => simp [failed] at scanned
      · next other after found =>
          rw [found] at scanned
          obtain ⟨rfl, rfl⟩ : other = token ∧ after = rest := by simpa using scanned
          rfl

theorem ofText?_spaces (count : Nat) (rest : List Char) :
    ofText? (List.replicate count ' ' ++ rest) = ofText? rest := by
  induction count with
  | zero => rfl
  | succ count ih =>
      rw [List.replicate_succ, List.cons_append, ofText?_space (by decide), ih]

theorem ofText?_lineBreak (style : Style) (level : Nat) (rest : List Char) :
    ofText? (style.lineBreak level ++ rest) = ofText? rest := by
  cases style with
  | compact => rfl
  | indented =>
      rw [Style.lineBreak, List.cons_append, ofText?_space (by decide), ofText?_spaces]

theorem ofText?_mark {mark : Char} {token : Token} {rest : List Char} {tokens : List Token}
    (scanned : ∀ rest, scan? (mark :: rest) = some (token, rest)) (nonspace : isSpace mark = false)
    (readRest : ofText? rest = some tokens) : ofText? (mark :: rest) = some (token :: tokens) := by
  rw [ofText?_of_scan? (scanned rest) (by simpa using nonspace), readRest]
  rfl

theorem ofText?_string (text : String) {rest : List Char} {tokens : List Token}
    (readRest : ofText? rest = some tokens) :
    ofText? (Quoted.write text ++ rest) = some (.string (some text) :: tokens) := by
  rw [ofText?_of_scan? (scan?_string text rest) (by simp [Quoted.write, isSpace]), readRest]
  rfl

theorem ofText?_afterKey (style : Style) {rest : List Char} {tokens : List Token}
    (readRest : ofText? rest = some tokens) :
    ofText? (style.afterKey ++ rest) = some (.colon :: tokens) := by
  cases style with
  | compact => exact ofText?_mark (fun _ => rfl) (by decide) readRest
  | indented =>
      have afterSpace : ofText? (' ' :: rest) = some tokens := by
        rw [ofText?_space (by decide), readRest]
      exact ofText?_mark (fun _ => rfl) (by decide) afterSpace

theorem ofText?_number {text rest : List Char} {number : NumberText} {tokens : List Token}
    (scanned : NumberText.scan? text = some (number, [])) (ends : NumberText.EndsNumber rest)
    (readRest : ofText? rest = some tokens) :
    ofText? (text ++ rest) = some (.scalar number.value :: tokens) := by
  obtain ⟨c, others, rfl, starts⟩ := NumberText.exists_cons_of_scan? scanned
  have whole := NumberText.scan?_append ends scanned
  simp only [List.nil_append] at whole
  have other : scan? (c :: others ++ rest) = some (.scalar number.value, rest) := by
    rw [List.cons_append] at whole ⊢
    unfold scan?
    split <;> simp_all
  have solid : isSpace c = false := by
    rcases starts with rfl | digit
    · rfl
    · cases space : isSpace c with
      | false => rfl
      | true =>
          simp only [isSpace, Bool.or_eq_true, beq_iff_eq] at space
          rcases space with ((rfl | rfl) | rfl) | rfl <;> simp at digit
  rw [ofText?_of_scan? other (by simpa using solid), readRest]
  rfl

theorem ofText?_word {word rest : List Char} {value : Json} {tokens : List Token}
    (isWord : (word, value) ∈ [("null".toList, null), ("true".toList, boolean true),
      ("false".toList, boolean false)])
    (readRest : ofText? rest = some tokens) :
    ofText? (word ++ rest) = some (.scalar value :: tokens) := by
  simp only [List.mem_cons, Prod.mk.injEq, List.not_mem_nil, or_false] at isWord
  have scanned : scan? (word ++ rest) = some (.scalar value, rest) := by
    rcases isWord with ⟨rfl, rfl⟩ | ⟨rfl, rfl⟩ | ⟨rfl, rfl⟩ <;> rfl
  have solid : ∀ c ∈ (word ++ rest).head?, isSpace c = false := by
    rcases isWord with ⟨rfl, rfl⟩ | ⟨rfl, rfl⟩ | ⟨rfl, rfl⟩ <;> simp [isSpace]
  rw [ofText?_of_scan? scanned solid, readRest]
  rfl

end Token

/-- What may follow a written value: nothing of it belongs to a number at the end of the value. -/
theorem endsNumber_lineBreak (style : Style) (level : Nat) {mark : Char}
    (ends : NumberText.continues mark = false) (rest : List Char) :
    NumberText.EndsNumber (style.lineBreak level ++ mark :: rest) := by
  cases style with
  | compact => simpa [Style.lineBreak, NumberText.EndsNumber] using ends
  | indented => simp [Style.lineBreak, NumberText.EndsNumber, NumberText.continues]

theorem endsNumber_writeItems (style : Style) (level : Nat) (items : List Json) {rest : List Char}
    (ends : NumberText.EndsNumber rest) :
    NumberText.EndsNumber (writeItems style level items ++ rest) := by
  cases items with
  | nil => simpa [writeItems] using ends
  | cons => simp [writeItems, NumberText.EndsNumber, NumberText.continues]

theorem endsNumber_writeFields (style : Style) (level : Nat) (fields : List (String × Json))
    {rest : List Char} (ends : NumberText.EndsNumber rest) :
    NumberText.EndsNumber (writeFields style level fields ++ rest) := by
  cases fields with
  | nil => simpa [writeFields] using ends
  | cons => simp [writeFields, NumberText.EndsNumber, NumberText.continues]

private theorem ofText?_double (number : Double) {rest : List Char} {tokens : List Token}
    (ends : NumberText.EndsNumber rest) (readRest : Token.ofText? rest = some tokens) :
    Token.ofText? ((doubleLayout.text number).toList ++ rest) =
      some (.scalar (double number).recovered.reread :: tokens) := by
  cases finite : number.isFinite with
  | true =>
      obtain ⟨text, scanned, value⟩ := Double.exists_scan?_text finite
      rw [Token.ofText?_number scanned ends readRest, value, recovered, reread,
        Double.isFinite_recovered finite]
      rfl
  | false =>
      have isNull : (double number).recovered.reread = null := by
        rw [recovered, Double.recovered_of_not_isFinite finite, reread, finite]
        rfl
      rw [Double.text_of_not_isFinite finite, isNull]
      exact Token.ofText?_word (by simp) readRest

mutual

/-- A written value falls apart into its tokens. -/
theorem ofText?_writeAt (style : Style) (level : Nat) (json : Json) {rest : List Char}
    {tokens : List Token} (ends : NumberText.EndsNumber rest)
    (readRest : Token.ofText? rest = some tokens) :
    Token.ofText? (writeAt style level json ++ rest) = some (json.recovered.tokens ++ tokens) := by
  match json with
  | null | unreadable =>
      simpa [writeAt, recovered, Json.tokens, reread] using
        Token.ofText?_word (by simp : ("null".toList, null) ∈ _) readRest
  | boolean true =>
      simpa [writeAt, recovered, Json.tokens, reread] using
        Token.ofText?_word (by simp : ("true".toList, boolean true) ∈ _) readRest
  | boolean false =>
      simpa [writeAt, recovered, Json.tokens, reread] using
        Token.ofText?_word (by simp : ("false".toList, boolean false) ∈ _) readRest
  | integer number =>
      rw [writeAt, Token.ofText?_number (NumberText.scan?_intText _) ends readRest,
        NumberText.value_ofInt]
      rfl
  | double number => exact ofText?_double number ends readRest
  | text value => exact Token.ofText?_string value readRest
  | array [] =>
      exact Token.ofText?_mark (fun _ => rfl) (by decide)
        (Token.ofText?_mark (fun _ => rfl) (by decide) readRest)
  | array (item :: items) =>
      have close : Token.ofText? (style.lineBreak level ++ ']' :: rest) =
          some (.closeArray :: tokens) := by
        rw [Token.ofText?_lineBreak, Token.ofText?_mark (fun _ => rfl) (by decide) readRest]
      have closeEnds := endsNumber_lineBreak style level
        (by decide : NumberText.continues ']' = false) rest
      have later := ofText?_writeItems style (level + 1) items closeEnds close
      have whole := ofText?_writeAt style (level + 1) item 
        (endsNumber_writeItems style (level + 1) items closeEnds) later
      have opened : Token.ofText? ('[' :: (style.lineBreak (level + 1) ++
          (writeAt style (level + 1) item ++ (writeItems style (level + 1) items ++
            (style.lineBreak level ++ ']' :: rest))))) = some (.openArray :: (item.recovered.tokens ++
              (tokensOfItems (recoveredItems items) ++ .closeArray :: tokens))) := by
        refine Token.ofText?_mark (fun _ => rfl) (by decide) ?_
        rw [Token.ofText?_lineBreak, whole]
      simpa [writeAt, recovered, recoveredItems, recoveredFields, Json.tokens] using opened
  | object [] =>
      exact Token.ofText?_mark (fun _ => rfl) (by decide)
        (Token.ofText?_mark (fun _ => rfl) (by decide) readRest)
  | object ((key, value) :: fields) =>
      have close : Token.ofText? (style.lineBreak level ++ '\x7d' :: rest) =
          some (.closeObject :: tokens) := by
        rw [Token.ofText?_lineBreak, Token.ofText?_mark (fun _ => rfl) (by decide) readRest]
      have closeEnds := endsNumber_lineBreak style level
        (by decide : NumberText.continues '\x7d' = false) rest
      have later := ofText?_writeFields style (level + 1) fields closeEnds close
      have whole := ofText?_writeAt style (level + 1) value 
        (endsNumber_writeFields style (level + 1) fields closeEnds) later
      have opened : Token.ofText? ('\x7b' :: (style.lineBreak (level + 1) ++
          (Quoted.write key ++ (style.afterKey ++ (writeAt style (level + 1) value ++
            (writeFields style (level + 1) fields ++ (style.lineBreak level ++ '\x7d' :: rest))))))) =
          some (.openObject :: .string (some key) :: .colon :: (value.recovered.tokens ++
            (tokensOfFields (recoveredFields fields) ++ .closeObject :: tokens))) := by
        refine Token.ofText?_mark (fun _ => rfl) (by decide) ?_
        rw [Token.ofText?_lineBreak,
          Token.ofText?_string key (Token.ofText?_afterKey style whole)]
      simpa [writeAt, recovered, recoveredItems, recoveredFields, Json.tokens] using opened

/-- The written items after the first fall apart into their tokens. -/
theorem ofText?_writeItems (style : Style) (level : Nat) (items : List Json) {rest : List Char}
    {tokens : List Token}
    (ends : NumberText.EndsNumber rest) (readRest : Token.ofText? rest = some tokens) :
    Token.ofText? (writeItems style level items ++ rest) =
      some (tokensOfItems (recoveredItems items) ++ tokens) := by
  match items with
  | [] => simpa [writeItems, recoveredItems, tokensOfItems] using readRest
  | item :: items =>
      have later := ofText?_writeItems style level items ends readRest
      have whole := ofText?_writeAt style level item 
        (endsNumber_writeItems style level items ends) later
      have opened : Token.ofText? (',' :: (style.lineBreak level ++
          (writeAt style level item ++ (writeItems style level items ++ rest)))) =
          some (.comma :: (item.recovered.tokens ++ (tokensOfItems (recoveredItems items) ++ tokens))) := by
        refine Token.ofText?_mark (fun _ => rfl) (by decide) ?_
        rw [Token.ofText?_lineBreak, whole]
      simpa [writeItems, recoveredItems, tokensOfItems] using opened

/-- The written fields after the first fall apart into their tokens. -/
theorem ofText?_writeFields (style : Style) (level : Nat) (fields : List (String × Json))
    {rest : List Char} {tokens : List Token}
    (ends : NumberText.EndsNumber rest) (readRest : Token.ofText? rest = some tokens) :
    Token.ofText? (writeFields style level fields ++ rest) =
      some (tokensOfFields (recoveredFields fields) ++ tokens) := by
  match fields with
  | [] => simpa [writeFields, recoveredFields, tokensOfFields] using readRest
  | (key, value) :: fields =>
      have later := ofText?_writeFields style level fields ends readRest
      have whole := ofText?_writeAt style level value 
        (endsNumber_writeFields style level fields ends) later
      have opened : Token.ofText? (',' :: (style.lineBreak level ++ (Quoted.write key ++
          (style.afterKey ++ (writeAt style level value ++
            (writeFields style level fields ++ rest)))))) =
          some (.comma :: .string (some key) :: .colon :: (value.recovered.tokens ++
            (tokensOfFields (recoveredFields fields) ++ tokens))) := by
        refine Token.ofText?_mark (fun _ => rfl) (by decide) ?_
        rw [Token.ofText?_lineBreak,
          Token.ofText?_string key (Token.ofText?_afterKey style whole)]
      simpa [writeFields, recoveredFields, tokensOfFields] using opened

end

/-! ## Reading tokens -/

namespace Reader

theorem run?_cons (reader : Reader) (token : Token) (tokens : List Token) :
    reader.run? (token :: tokens) = (reader.next? token).bind fun next => next.run? tokens := rfl

/-- The first token of a value does not end an array. -/
theorem itemOrEnd_run? (stack : List Frame) (json : Json) (rest : List Token) :
    (itemOrEnd stack).run? (json.tokens ++ rest) =
      (valueNext (.array [] :: stack)).run? (json.tokens ++ rest) := by
  unfold Json.tokens
  split <;> rfl

theorem objectOf_reverse (fields : List (String × Json)) :
    objectOf (fields.map fun field => (some field.1, field.2)).reverse = object fields := by
  have named : (fields.map fun field => (some field.1, field.2)).mapM
      (fun field => field.1.map fun key => (key, field.2)) = some fields := by
    induction fields with
    | nil => rfl
    | cons field fields ih => simp [List.mapM_cons, ih]
  simp [objectOf, named]

mutual

/-- The tokens of a value are read as what is read back of it. -/
theorem run?_tokens (json : Json) (stack : List Frame) (rest : List Token) :
    (valueNext stack).run? (json.tokens ++ rest) = (deliver json.reread stack).run? rest := by
  match json with
  | null | boolean _ | integer _ | double _ | text _ | unreadable => rfl
  | array [] => rfl
  | array (item :: items) =>
      have first : (valueNext stack).run? ((array (item :: items)).tokens ++ rest) =
          (itemOrEnd stack).run? (item.tokens ++ (tokensOfItems items ++ .closeArray :: rest)) := by
        simp [Json.tokens, run?_cons, next?, startValue?]
      rw [first, itemOrEnd_run?, run?_tokens item]
      have others := run?_tokensOfItems items [item.reread] stack (.closeArray :: rest)
      rw [deliver, others, run?_cons]
      simp [next?, reread, rereadItems]
  | object [] => rfl
  | object ((key, value) :: fields) =>
      have first : (valueNext stack).run? ((object ((key, value) :: fields)).tokens ++ rest) =
          (valueNext (.object [] (some key) :: stack)).run?
            (value.tokens ++ (tokensOfFields fields ++ .closeObject :: rest)) := by
        simp [Json.tokens, run?_cons, next?, startValue?]
      rw [first, run?_tokens value]
      have others := run?_tokensOfFields fields [(some key, value.reread)] stack
        (.closeObject :: rest)
      have whole := objectOf_reverse ((key, value.reread) :: rereadFields fields)
      rw [deliver, others, run?_cons]
      simp only [List.map_cons, List.reverse_cons] at whole
      simp [next?, reread, rereadFields, whole]

/-- The tokens of further items are read as what is read back of them. -/
theorem run?_tokensOfItems (items done : List Json) (stack : List Frame) (rest : List Token) :
    (afterItem done stack).run? (tokensOfItems items ++ rest) =
      (afterItem ((rereadItems items).reverse ++ done) stack).run? rest := by
  match items with
  | [] => rfl
  | item :: items =>
      have first : (afterItem done stack).run? (tokensOfItems (item :: items) ++ rest) =
          (valueNext (.array done :: stack)).run? (item.tokens ++ (tokensOfItems items ++ rest)) := by
        simp [tokensOfItems, run?_cons, next?]
      rw [first, run?_tokens item, deliver, run?_tokensOfItems items]
      simp [rereadItems]

/-- The tokens of further fields are read as what is read back of them. -/
theorem run?_tokensOfFields (fields : List (String × Json)) (done : List (Option String × Json))
    (stack : List Frame) (rest : List Token) :
    (afterField done stack).run? (tokensOfFields fields ++ rest) =
      (afterField (((rereadFields fields).map fun field => (some field.1, field.2)).reverse ++ done)
        stack).run? rest := by
  match fields with
  | [] => rfl
  | (key, value) :: fields =>
      have first : (afterField done stack).run? (tokensOfFields ((key, value) :: fields) ++ rest) =
          (valueNext (.object done (some key) :: stack)).run?
            (value.tokens ++ (tokensOfFields fields ++ rest)) := by
        simp [tokensOfFields, run?_cons, next?]
      rw [first, run?_tokens value, deliver, run?_tokensOfFields fields]
      simp [rereadFields]

end

end Reader

/-- A written value is read as the value with null for every number that is not finite, and with
what the finite ones are read as. -/
theorem parse?_write_eq (style : Style) (json : Json) :
    parse? (json.write style) = some json.recovered.reread := by
  have tokens := ofText?_writeAt style 0 json (by simp [NumberText.EndsNumber])
    (by rw [Token.ofText?] : Token.ofText? [] = some [])
  simp only [List.append_nil] at tokens
  have read := Reader.run?_tokens json.recovered [] []
  simp only [List.append_nil, Reader.deliver] at read
  simp only [parse?, write, String.toList_ofList, tokens, Option.bind_eq_bind, Option.bind_some,
    read]
  rfl

mutual

theorem recovered_eq_self {json : Json} (readsBack : ReadsBack json.doubles) :
    json.recovered = json := by
  match json with
  | null | boolean _ | integer _ | text _ | unreadable => rfl
  | double number =>
      cases finite : number.isFinite with
      | true =>
          rw [recovered, Double.recovered_of_isReadBack (readsBack number (by simp [doubles]) finite)]
      | false => rw [recovered, Double.recovered_of_not_isFinite finite]
  | array items => rw [recovered, recoveredItems_eq_self readsBack]
  | object fields => rw [recovered, recoveredFields_eq_self readsBack]

theorem recoveredItems_eq_self {items : List Json} (readsBack : ReadsBack (doublesOfItems items)) :
    recoveredItems items = items := by
  match items with
  | [] => rfl
  | item :: items =>
      obtain ⟨itemBack, itemsBack⟩ := readsBack_append.1 readsBack
      rw [recoveredItems, recovered_eq_self itemBack, recoveredItems_eq_self itemsBack]

theorem recoveredFields_eq_self {fields : List (String × Json)}
    (readsBack : ReadsBack (doublesOfFields fields)) : recoveredFields fields = fields := by
  match fields with
  | [] => rfl
  | (key, value) :: fields =>
      obtain ⟨valueBack, fieldsBack⟩ := readsBack_append.1 readsBack
      rw [recoveredFields, recovered_eq_self valueBack, recoveredFields_eq_self fieldsBack]

end

/-- A written value is read as the value with null for every number that is not finite, if the
finite ones are read back. -/
theorem parse?_write (style : Style) (json : Json) (readsBack : ReadsBack json.doubles) :
    parse? (json.write style) = some json.reread := by
  rw [parse?_write_eq, recovered_eq_self readsBack]

end Json
end GraphStore
