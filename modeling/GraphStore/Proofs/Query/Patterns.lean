import GraphStore.Proofs.Query.Written

/-!
# Reading of patterns

Every part of a written pattern is read as what it asks for: keys and values, properties in braces,
nodes, and the three kinds of arrows.
-/

namespace GraphStore

namespace Text

theorem strip_append_left {drop : Char → Bool} {blank : List Char} (text : List Char)
    (dropped : ∀ c ∈ blank, drop c) : strip drop (blank ++ text) = strip drop text := by
  rw [strip, strip, List.dropWhile_append_of_pos dropped]

theorem strip_append_right {drop : Char → Bool} {blank : List Char} (text : List Char)
    (dropped : ∀ c ∈ blank, drop c) : strip drop (text ++ blank) = strip drop text := by
  have reversed : ∀ c ∈ blank.reverse, drop c :=
    fun c member => dropped c (List.mem_reverse.1 member)
  rw [strip, strip, List.dropWhile_append]
  split
  · next empty =>
      rw [List.isEmpty_iff.1 empty, Query.dropWhile_eq_nil_of_all dropped]
  · rw [List.reverse_append, List.dropWhile_append_of_pos reversed]

theorem eq_false_of_mem_head?_dropWhile {drop : Char → Bool} {text : List Char} {c : Char}
    (first : c ∈ (text.dropWhile drop).head?) : drop c = false := by
  have kept := List.head?_dropWhile_not drop text
  rw [Option.mem_def.1 first] at kept
  exact kept

/-- What is stripped has nothing more to be stripped. -/
theorem strip_strip (drop : Char → Bool) (text : List Char) :
    strip drop (strip drop text) = strip drop text := by
  refine strip_eq_self drop _ (fun c first => ?_) fun c last => ?_
  · -- The beginning is stripped first, and what is left of the text still starts as it did then.
    obtain ⟨rest, whole⟩ : strip drop text <+: text.dropWhile drop :=
      List.reverse_suffix.1 (by rw [strip, List.reverse_reverse]; exact List.dropWhile_suffix drop)
    have same : c ∈ (text.dropWhile drop).head? := by
      rw [← whole, List.head?_append, Option.mem_def.1 first]
      rfl
    exact eq_false_of_mem_head?_dropWhile same
  · rw [strip, List.getLast?_reverse] at last
    exact eq_false_of_mem_head?_dropWhile last

end Text

namespace Query

open Scanner

variable {α β : Type}

/-! ## Lists with commas -/

theorem reads_commaSeparated {scanner : Scanner α} {stops : Char → Bool}
    {tokensOf : β → List Token} {valueOf : β → α}
    (reads : ∀ item, Reads scanner (tokensOf item) (valueOf item) stops)
    (comma : stops ',' = false) (first : β) (others : List β) :
    Reads (commaSeparated scanner) (separatedTokens tokensOf (first :: others))
      ((first :: others).map valueOf) (isOpen (· == ',') stops) := by
  have further := (reads_many reads comma others).thenPure fun rest => valueOf first :: rest
  refine (reads first).bind further fun rest begins c head => ?_
  cases others with
  | nil =>
      have closed := begins c head
      simp only [isOpen, Bool.or_eq_false_iff] at closed
      exact closed.2
  | cons next others =>
      obtain rfl : ',' = c := Option.some.inj head
      exact comma

/-! ## Quoted texts and properties -/

theorem quotedBy_append {quote : Char} {content : List Char} (closed : quote ∉ content)
    (after : List Char) :
    quotedBy quote (quote :: content ++ [quote] ++ after) = some (content, after) := by
  have opened : exactly [quote] (quote :: content ++ [quote] ++ after) =
      some ((), content ++ ([quote] ++ after)) := by
    rw [List.cons_append, List.cons_append, List.append_assoc]
    exact exactly_append [quote] _
  have inside : span (· != quote) (content ++ ([quote] ++ after)) =
      some (content, [quote] ++ after) := by
    refine span_append (fun c member => ?_) fun c head => ?_
    · exact bne_iff_ne.2 fun same => closed (same ▸ member)
    · obtain rfl : quote = c := Option.some.inj head
      exact bne_self_eq_false quote
  rw [quotedBy, bind_of_some opened, bind_of_some inside, bind_of_some (exactly_append _ after)]
  rfl

theorem quotedBy_eq_none {quote : Char} {text : List Char}
    (begins : ∀ c ∈ text.head?, (c == quote) = false) : quotedBy quote text = none := by
  rw [quotedBy, bind_of_none (exactly_eq_none begins)]

/-- The class of the two quotes. -/
def isQuote (c : Char) : Bool :=
  c == '"' || c == '\''

theorem quoted_append (written : Quoted) (after : List Char) :
    quoted (written.text ++ after) = some (written.text, after) := by
  obtain ⟨quote, content, rfl | rfl, closed⟩ := written
  · rw [quoted, orElse_apply, Quoted.text, bind_of_some (quotedBy_append closed after)]
    rfl
  · have other : quotedBy '"' ('\'' :: content ++ ['\''] ++ after) = none :=
      quotedBy_eq_none fun c head => Option.some.inj head ▸ rfl
    rw [quoted, orElse_apply, Quoted.text, bind_of_none other,
      bind_of_some (quotedBy_append closed after)]
    rfl

theorem quoted_eq_none {text : List Char} (begins : ∀ c ∈ text.head?, isQuote c = false) :
    quoted text = none := by
  have neither : ∀ c ∈ text.head?, (c == '"') = false ∧ (c == '\'') = false :=
    fun c head => Bool.or_eq_false_iff.1 (begins c head)
  rw [quoted, orElse_apply, bind_of_none (quotedBy_eq_none fun c head => (neither c head).1),
    bind_of_none (quotedBy_eq_none fun c head => (neither c head).2)]
  rfl

theorem Quoted.isSpace_quote (written : Quoted) : isSpace written.quote = false := by
  rcases written.isQuote with same | same <;> rw [same] <;> rfl

theorem starts_quotedKey (quote : Char) :
    Starts (token do pure (String.ofList (← quotedBy quote))) (· == quote) := by
  refine starts_token fun text begins => ?_
  rw [bind_of_none (quotedBy_eq_none begins)]

theorem reads_quotedKey (written : Quoted) :
    Reads (token do pure (String.ofList (← quotedBy written.quote))) [.quoted written]
      (String.ofList written.content) never := by
  refine reads_token (fun c head => ?_) fun _ after _ _ _ => ?_
  · obtain rfl : written.quote = c := Option.some.inj head
    exact written.isSpace_quote
  · change (quotedBy written.quote >>= _) (written.text ++ after) = _
    rw [Quoted.text, bind_of_some (quotedBy_append written.not_mem_content after)]
    rfl

/-- The class of what a property key can begin with. -/
def isKeyStart (c : Char) : Bool :=
  c == '"' || (c == '\'' || isNameStart c)

theorem starts_propertyKey : Starts propertyKey isKeyStart :=
  (starts_quotedKey '"').orElse ((starts_quotedKey '\'').orElse starts_name)

theorem reads_propertyKey (key : Key) : Reads propertyKey [key.token] key.text never := by
  cases key with
  | quoted written =>
      obtain ⟨quote, content, rfl | rfl, closed⟩ := written
      · exact (reads_quotedKey ⟨'"', content, .inl rfl, closed⟩).orElse_left _
      · refine .orElse_of_starts (starts_quotedKey '"') (fun rest c head => ?_)
          ((reads_quotedKey ⟨'\'', content, .inr rfl, closed⟩).orElse_left _)
        exact Option.some.inj head ▸ ⟨rfl, rfl⟩
  | name written =>
      have visible : ∀ quote, isNameStart quote = false → ∀ rest,
          ∀ c ∈ firstOf ([Token.name written] ++ rest),
            isSpace c = false ∧ (c == quote) = false := by
        intro quote notName rest c head
        obtain rfl : written.first = c := Option.some.inj head
        have start := written.isNameStart_first
        refine ⟨isSpace_eq_false_of_isNameChar (isNameChar_of_isNameStart start), ?_⟩
        refine beq_eq_false_iff_ne.2 fun same => ?_
        rw [same, notName] at start
        exact absurd start (by decide)
      exact .orElse_of_starts (starts_quotedKey '"') (visible '"' rfl)
        (.orElse_of_starts (starts_quotedKey '\'') (visible '\'' rfl) (reads_name written))

/-- The class of what cannot follow a property value. -/
def isInsideValue (c : Char) : Bool :=
  c != ',' && c != '\x7d'

theorem eq_of_not_isInsideValue {c : Char} (outside : isInsideValue c = false) :
    c = ',' ∨ c = '\x7d' := by
  simp only [isInsideValue, Bool.and_eq_false_iff, bne_eq_false_iff_eq] at outside
  exact outside

theorem endsValue_of_spaced {rest : List Token} {after : List Char}
    (begins : ∀ c ∈ firstOf rest, isInsideValue c = false) (spaced : Spaced rest after) :
    endsValue after := by
  have visible : ∀ c ∈ firstOf rest, isSpace c = false := by
    intro c head
    rcases eq_of_not_isInsideValue (begins c head) with rfl | rfl <;> rfl
  rw [endsValue, spaced.head?_dropWhile visible]
  cases first : firstOf rest with
  | none => rfl
  | some c => rcases eq_of_not_isInsideValue (begins c first) with rfl | rfl <;> rfl

theorem reads_quotedValue (written : Quoted) :
    Reads propertyValue [.quoted written] written.text isInsideValue := by
  refine reads_token (fun c head => ?_) fun rest after begins spaced _ => ?_
  · obtain rfl : written.quote = c := Option.some.inj head
    exact written.isSpace_quote
  · change ((do let text ← quoted; ahead endsValue; pure text : Scanner (List Char)) <|> _)
      (written.text ++ after) = _
    rw [orElse_apply, bind_of_some (quoted_append written after),
      bind_of_some (ahead_of (endsValue_of_spaced begins spaced))]
    rfl

/-- The first character of a bare value that is not a blank. -/
theorem exists_first_visible {text : List Char} (visible : ∃ c ∈ text, isSpace c = false) :
    ∃ front first others, text = front ++ first :: others ∧ (∀ c ∈ front, isSpace c) ∧
      isSpace first = false := by
  induction text with
  | nil =>
      obtain ⟨c, member, -⟩ := visible
      exact absurd member List.not_mem_nil
  | cons first others ih =>
      by_cases space : isSpace first
      · obtain ⟨c, member, notSpace⟩ := visible
        have behind : c ∈ others := by
          rcases List.mem_cons.1 member with rfl | behind
          · rw [space] at notSpace
            exact absurd notSpace (by decide)
          · exact behind
        obtain ⟨front, shown, rest, rfl, blank, notSpace⟩ := ih ⟨c, behind, notSpace⟩
        exact ⟨first :: front, shown, rest, rfl, List.forall_mem_cons.2 ⟨space, blank⟩, notSpace⟩
      · exact ⟨[], first, others, rfl, by simp, Bool.eq_false_iff.2 space⟩

theorem reads_bareValue (written : Bare) :
    Reads (Value.ofLiteral <$> propertyValue) [.bare written] (Value.ofLiteral written.text)
      isInsideValue := by
  intro rest text begins spaced
  obtain ⟨gap, after, rfl, blank, -, spaced⟩ := spaced.parts
  obtain ⟨space, uncovered, rfl, blankSpace, spaced, head⟩ := spaced.exists_uncovered
  obtain ⟨front, first, others, shape, blankFront, notSpace⟩ :=
    exists_first_visible written.not_blank
  have plain : ∀ c ∈ first :: others, isQuote c = false ∧ isInsideValue c := by
    intro c member
    have excluded := written.isPlain c (shape ▸ List.mem_append_right front member)
    simp only [List.mem_cons, List.not_mem_nil, or_false, not_or] at excluded
    simp [isQuote, isInsideValue, excluded]
  -- The blanks behind a bare value belong to it when it is scanned.
  have inside : ∀ c ∈ first :: others ++ space, isInsideValue c := by
    intro c member
    rcases List.mem_append.1 member with member | member
    · exact (plain c member).2
    · have known := blankSpace c member
      simp only [isSpace, Bool.or_eq_true, beq_iff_eq] at known
      rcases known with ((rfl | rfl) | rfl) | rfl <;> rfl
  have dropped : (gap ++ ((Token.bare written).text ++ (space ++ uncovered))).dropWhile isSpace =
      first :: others ++ space ++ uncovered := by
    have joined : gap ++ ((Token.bare written).text ++ (space ++ uncovered)) =
        (gap ++ front) ++ (first :: others ++ space ++ uncovered) := by
      simp [Token.text, shape]
    rw [joined]
    refine dropWhile_append_of_all (fun c member => ?_) fun c head => ?_
    · rcases List.mem_append.1 member with member | member
      · exact blank c member
      · exact blankFront c member
    · exact Option.some.inj head ▸ notSpace
  have taken : propertyValue (gap ++ ((Token.bare written).text ++ (space ++ uncovered))) =
      some (first :: others ++ space, uncovered) := by
    have noQuote : quoted (first :: others ++ space ++ uncovered) = none := by
      refine quoted_eq_none fun c head => ?_
      obtain rfl : first = c := Option.some.inj head
      exact (plain first List.mem_cons_self).1
    change ((do let text ← quoted; ahead endsValue; pure text : Scanner (List Char)) <|>
      span1 isInsideValue) _ = _
    rw [dropped, orElse_apply, bind_of_none noQuote, Option.none_or]
    exact span1_append (List.cons_ne_nil _ _) inside (head ▸ begins)
  have same : Value.ofLiteral (first :: others ++ space) = Value.ofLiteral written.text := by
    have blanks : ∀ chars : List Char, (∀ c ∈ chars, isSpace c) → ∀ c ∈ chars, Text.isBlank c :=
      fun chars all c member => isBlank_of_isSpace (all c member)
    have trimmed : Text.trim (first :: others ++ space) = Text.trim written.text := by
      rw [shape, Text.trim, Text.trim, Text.strip_append_right _ (blanks space blankSpace),
        Text.strip_append_left _ (blanks front blankFront)]
    rw [Value.ofLiteral, Value.ofLiteral, trimmed]
  refine ⟨uncovered, ?_, ?_, spaced⟩
  · rw [map_apply, taken, ← same]
    rfl
  · have nonempty := List.length_pos_iff.2 (Token.bare written).text_ne_nil
    simp only [List.length_append, List.length_singleton]
    omega

theorem reads_fieldValue (value : FieldValue) :
    Reads (Value.ofLiteral <$> propertyValue) [value.token] (Value.ofLiteral value.token.text)
      isInsideValue := by
  cases value with
  | quoted written => exact (reads_quotedValue written).map Value.ofLiteral
  | bare written => exact reads_bareValue written

theorem reads_property (field : Field) :
    Reads property field.tokens field.entry isInsideValue := by
  have value := (reads_fieldValue field.value).of_map fun value => (field.key.text, value)
  exact (reads_propertyKey field.key).andThen ((reads_mark .colon).andThen value)

/-! ## Properties in braces -/

theorem reads_propertyList (fields : List Field) :
    Reads propertyList (separatedTokens Field.tokens fields) (.ofWritten (fields.map Field.entry))
      (isOpen isKeyStart (isOpen (· == ',') isInsideValue)) := by
  have starts : Starts (commaSeparated property) isKeyStart := starts_propertyKey.bind.bind
  have optionalList := reads_optional starts fun (fields : Field × List Field) =>
    reads_commaSeparated reads_property rfl fields.1 fields.2
  rw [← Properties.ofList_eq_ofWritten]
  cases fields with
  | nil => exact (optionalList none).thenPure fun entries => Properties.ofList (entries.getD [])
  | cons first others =>
      exact (optionalList (some (first, others))).thenPure fun entries =>
        Properties.ofList (entries.getD [])

theorem reads_propertyBlock (fields : List Field) :
    Reads propertyBlock (blockTokens fields) (.ofWritten (fields.map Field.entry)) never := by
  have close := (reads_mark .rightBrace).thenPure fun _ =>
    Properties.ofWritten (fields.map Field.entry)
  refine (reads_mark .leftBrace).andThen ((reads_propertyList fields).bind close ?_)
  intro rest _ c head
  exact Option.some.inj head ▸ rfl

/-! ## Nodes and arrows -/

theorem reads_afterColon (written : Name) :
    Reads afterColon [.mark .colon, .name written] written.text never :=
  (reads_mark .colon).andThen (reads_name written)

theorem starts_afterColon : Starts afterColon (isFirstOf Mark.colon.text) :=
  (starts_mark .colon).bind

theorem starts_propertyBlock : Starts propertyBlock (isFirstOf Mark.leftBrace.text) :=
  (starts_mark .leftBrace).bind

/-- The class of what a part of an entity can begin with, and of blanks. -/
def isEntityPart (c : Char) : Bool :=
  isSpace c || isNameStart c || isFirstOf Mark.colon.text c || isFirstOf Mark.leftBrace.text c

theorem Entity.getD_properties (entity : Entity) :
    (entity.block.map fun fields => Properties.ofWritten (fields.map Field.entry)).getD .empty =
      entity.properties := by
  unfold Entity.properties
  cases entity.block <;> rfl

/-- The parts of an entity are read in turn, whatever is made of them. -/
theorem reads_entity (entity : Entity) (left right : Mark)
    (closes : ∀ c ∈ right.text.toList.head?, isEntityPart c = false)
    (make : Option String → Option String → Properties → α) :
    Reads
      (do
        mark left.text
        let variableName ← optional name
        let kind ← optional afterColon
        let properties ← optional propertyBlock
        mark right.text
        pure (make variableName kind (properties.getD .empty)))
      (entity.tokens left right)
      (make (entity.variableName.map Name.text) (entity.kind.map Name.text) entity.properties)
      never := by
  have atRight : ∀ c ∈ right.text.toList.head?,
      ((isSpace c = false ∧ isNameStart c = false) ∧ isFirstOf Mark.colon.text c = false) ∧
        isFirstOf Mark.leftBrace.text c = false := by
    intro c head
    simpa only [isEntityPart, Bool.or_eq_false_iff] using closes c head
  have closed : ∀ {initial : Char → Bool} {c : Char}, isSpace c = false → initial c = false →
      isOpen initial never c = false := by
    intro initial c notSpace notInitial
    rw [isOpen, notSpace, notInitial]
    rfl
  have afterKind : ∀ rest,
      ∀ c ∈ firstOf ((optionTokens blockTokens entity.block ++ [.mark right]) ++ rest),
        c = '\x7b' ∨ c ∈ right.text.toList.head? := by
    intro rest c head
    cases shape : entity.block with
    | none => exact .inr (by rwa [shape] at head)
    | some fields =>
        rw [shape] at head
        exact .inl (Option.some.inj head).symm
  have afterVariable : ∀ rest,
      ∀ c ∈ firstOf ((optionTokens (fun written => [.mark .colon, .name written]) entity.kind ++
          (optionTokens blockTokens entity.block ++ [.mark right])) ++ rest),
        c = ':' ∨ c = '\x7b' ∨ c ∈ right.text.toList.head? := by
    intro rest c head
    cases shape : entity.kind with
    | none => exact .inr (afterKind rest c (by rwa [shape] at head))
    | some written =>
        rw [shape] at head
        exact .inl (Option.some.inj head).symm
  rw [← entity.getD_properties]
  refine (reads_mark left).andThen ((reads_optional starts_name reads_name entity.variableName).bind
    ((reads_optional starts_afterColon reads_afterColon entity.kind).bind
      ((reads_optional starts_propertyBlock reads_propertyBlock entity.block).bind
        ((reads_mark right).thenPure fun _ => _) ?_) ?_) ?_)
  · intro rest _ c head
    have known := atRight c head
    exact closed known.1.1.1 known.2
  · intro rest _ c head
    rcases afterKind rest c head with rfl | head
    · decide
    · have known := atRight c head
      exact closed known.1.1.1 known.1.2
  · intro rest _ c head
    rcases afterVariable rest c head with rfl | rfl | head
    · decide
    · decide
    · have known := atRight c head
      exact closed known.1.1.1 known.1.1.2

theorem reads_nodePattern (entity : Entity) :
    Reads nodePattern entity.nodeTokens entity.node never := by
  have closes : ∀ c ∈ Mark.rightParenthesis.text.toList.head?, isEntityPart c = false := by
    intro c head
    obtain rfl : ')' = c := Option.some.inj head
    rfl
  exact reads_entity entity .leftParenthesis .rightParenthesis closes NodePattern.mk

theorem reads_detail (entity : Entity) :
    Reads detail (entity.tokens .leftBracket .rightBracket)
      ⟨entity.variableName.map Name.text, entity.kind.map Name.text, entity.properties⟩ never := by
  have closes : ∀ c ∈ Mark.rightBracket.text.toList.head?, isEntityPart c = false := by
    intro c head
    obtain rfl : ']' = c := Option.some.inj head
    rfl
  exact reads_entity entity .leftBracket .rightBracket closes Detail.mk

theorem starts_detail : Starts detail (isFirstOf Mark.leftBracket.text) :=
  (starts_mark .leftBracket).bind

/-- An arrow is read by the scanner of its own direction. -/
theorem reads_arrow (link : Link) :
    Reads (arrow link.direction (Link.left link.direction).text (Link.right link.direction).text)
      link.tokens link.relationship never := by
  obtain ⟨direction, inside⟩ := link
  have same : Link.relationship ⟨direction, inside⟩ =
      (fun found : Detail => ⟨found.variableName, found.type, found.properties, direction⟩)
        ((inside.map fun entity : Entity => (⟨entity.variableName.map Name.text,
          entity.kind.map Name.text, entity.properties⟩ : Detail)).getD {}) := by
    cases inside <;> rfl
  rw [same]
  refine (reads_mark (Link.left direction)).andThen
    ((reads_optional starts_detail reads_detail inside).bind
      ((reads_mark (Link.right direction)).thenPure fun _ => _) fun rest _ c head => ?_)
  change (Link.right direction).text.toList.head? = some c at head
  have dash : c = '-' := by
    cases direction <;> exact (Option.some.inj head).symm
  rw [dash]
  rfl

theorem starts_arrow (direction : Direction) (left : Mark) (right : String) :
    Starts (arrow direction left.text right) (isFirstOf left.text) :=
  (starts_mark left).bind

/-- A dash that no angle bracket follows is not the right end of an arrow to the right. -/
theorem mark_rightArrow_eq_none {rest : List Token} {text : List Char}
    (begins : ∀ c ∈ firstOf rest, (c == '>') = false)
    (spaced : Spaced (.mark .dash :: rest) text) : mark "->" text = none := by
  obtain ⟨gap, after, rfl, blank, -, spaced⟩ := spaced.parts
  have behind : ∀ c ∈ after.head?, (c == '>') = false := by
    intro c head
    rcases spaced.head?_cases head with space | first
    · refine beq_eq_false_iff_ne.2 fun same => ?_
      rw [same] at space
      exact absurd space (by decide)
    · exact begins c first
  have dropped : (gap ++ '-' :: after).dropWhile isSpace = '-' :: after := by
    refine dropWhile_append_of_all blank fun c head => ?_
    obtain rfl : '-' = c := Option.some.inj head
    rfl
  change exactly ['-', '>'] ((gap ++ '-' :: after).dropWhile isSpace) = none
  rw [dropped]
  cases after with
  | nil => rfl
  | cons c others =>
      have different : ('>' == c) = false := by
        rw [beq_eq_false_iff_ne]
        exact Ne.symm (beq_eq_false_iff_ne.1 (behind c rfl))
      simp [exactly, List.isPrefixOf, different]

/-- Of the three arrows that share their marks, the one that is written is read. -/
theorem reads_relationshipPattern (link : Link) :
    Reads relationshipPattern link.tokens link.relationship (· == '>') := by
  have read := (reads_arrow link).mono fun c (_ : (c == '>') = false) => rfl
  obtain ⟨direction, inside⟩ := link
  cases direction with
  | outgoing => exact read.orElse_left _
  | incoming =>
      refine .orElse_of_starts (starts_arrow .outgoing .dash "->") (fun rest c head => ?_)
        (read.orElse_left _)
      obtain rfl : '<' = c := by
        simpa [Link.tokens, Link.left, firstOf_cons, Token.text, Mark.text] using head
      exact ⟨rfl, rfl⟩
  | undirected =>
      refine .orElse_right (fun rest text begins spaced => ?_)
        (.orElse_of_starts (starts_arrow .incoming .leftArrow "-") (fun rest c head => ?_) read)
      · -- The dash and the brackets are read as those of an arrow to the right, whose end fails.
        have split : Link.tokens ⟨.undirected, inside⟩ ++ rest = [.mark .dash] ++
            (optionTokens (fun entity => entity.tokens .leftBracket .rightBracket) inside ++
              (.mark .dash :: rest)) := by
          simp [Link.tokens, Link.left, Link.right]
        rw [split] at spaced
        obtain ⟨inner, takenDash, -, spaced⟩ := reads_mark .dash (fun _ _ => rfl) spaced
        have closed : ∀ c ∈ firstOf (.mark .dash :: rest),
            isOpen (isFirstOf Mark.leftBracket.text) never c = false := by
          intro c head
          change Mark.dash.text.toList.head? = some c at head
          obtain rfl : '-' = c := Option.some.inj head
          rfl
        obtain ⟨ending, takenInside, -, spaced⟩ :=
          reads_optional starts_detail reads_detail inside closed spaced
        change (mark Mark.dash.text >>= fun _ => optional detail >>= fun _ => mark "->" >>= _)
          text = none
        rw [bind_of_some takenDash, bind_of_some takenInside,
          bind_of_none (mark_rightArrow_eq_none begins spaced)]
      · obtain rfl : '-' = c := by
          simpa [Link.tokens, Link.left, firstOf_cons, Token.text, Mark.text] using head
        exact ⟨rfl, rfl⟩

/-- The class of what an arrow can begin with. -/
def isArrowStart (c : Char) : Bool :=
  isFirstOf Mark.dash.text c || (isFirstOf Mark.leftArrow.text c || isFirstOf Mark.dash.text c)

theorem starts_segment : Starts segment isArrowStart :=
  ((starts_arrow .outgoing .dash "->").orElse
    ((starts_arrow .incoming .leftArrow "-").orElse (starts_arrow .undirected .dash "-"))).bind

theorem reads_segment (link : Link) (target : Entity) :
    Reads segment (link.tokens ++ target.nodeTokens) ⟨link.relationship, target.node⟩ never := by
  refine (reads_relationshipPattern link).bind ((reads_nodePattern target).thenPure fun _ => _) ?_
  intro rest _ c head
  change Mark.leftParenthesis.text.toList.head? = some c at head
  obtain rfl : '(' = c := Option.some.inj head
  rfl

theorem reads_pathPattern (start : Entity) (segment : Option (Link × Entity)) :
    Reads pathPattern
      (start.nodeTokens ++
        optionTokens (fun (link, target) => link.tokens ++ target.nodeTokens) segment)
      ⟨start.node, segment.map fun (link, target) => ⟨link.relationship, target.node⟩⟩
      (isOpen isArrowStart never) := by
  refine (reads_nodePattern start).andThen (Reads.thenPure ?_ fun _ => _)
  exact reads_optional starts_segment (fun (link, target) => reads_segment link target) segment

end Query
end GraphStore
