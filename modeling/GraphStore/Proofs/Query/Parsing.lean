import GraphStore.Proofs.Query.Patterns

/-!
# Parsing of written statements

A written statement is parsed as what it asks for, however its tokens are set apart.
-/

namespace GraphStore
namespace Query

open Scanner

variable {α β : Type}

/-! ## Literals -/

/-- The class of what could go on after the digits of a number. -/
def isNumberPart (c : Char) : Bool :=
  c.isDigit || c == '.'

theorem isNumberPart_eq_false_of_isSpace {c : Char} (space : isSpace c) :
    isNumberPart c = false := by
  simp only [isSpace, Bool.or_eq_true, beq_iff_eq] at space
  rcases space with ((rfl | rfl) | rfl) | rfl <;> rfl

theorem ne_of_isDigit {c other : Char} (digit : c.isDigit) (no : other.isDigit = false) :
    c ≠ other := by
  intro same
  rw [same, no] at digit
  exact absurd digit (by decide)

/-- The digits after the point, with the point. -/
def Number.fractionText (written : Number) : List Char :=
  match written.fraction with
  | some digits => '.' :: digits
  | none => []

theorem Number.scan_fraction (written : Number) {after : List Char}
    (ends : ∀ c ∈ after.head?, isNumberPart c = false) :
    (optional do exactly ['.']; span1 Char.isDigit) (written.fractionText ++ after) =
      some (written.fraction, after) := by
  have noPart : ∀ c ∈ after.head?, c.isDigit = false ∧ (c == '.') = false :=
    fun c head => Bool.or_eq_false_iff.1 (ends c head)
  unfold Number.fractionText
  cases shape : written.fraction with
  | none =>
      have fails : exactly ['.'] after = none := exactly_eq_none fun c head => (noPart c head).2
      rw [List.nil_append, optional_apply, bind_of_none fails]
  | some digits =>
      have point : exactly ['.'] ('.' :: digits ++ after) = some ((), digits ++ after) :=
        exactly_append ['.'] _
      have taken : span1 Char.isDigit (digits ++ after) = some (digits, after) :=
        span1_append (written.fraction_ne_nil digits shape) (written.isDigit_fraction digits shape)
          fun c head => (noPart c head).1
      rw [optional_apply, bind_of_some point, taken]

theorem Number.scan (written : Number) {after : List Char}
    (ends : ∀ c ∈ after.head?, isNumberPart c = false) :
    number (written.text ++ after) = some (written.text, after) := by
  have fraction := written.scan_fraction ends
  have whole : span1 Char.isDigit (written.whole ++ (written.fractionText ++ after)) =
      some (written.whole, written.fractionText ++ after) := by
    refine span1_append written.whole_ne_nil written.isDigit_whole fun c head => ?_
    unfold Number.fractionText at head
    cases shape : written.fraction with
    | none =>
        rw [shape] at head
        exact (Bool.or_eq_false_iff.1 (ends c head)).1
    | some digits =>
        rw [shape] at head
        obtain rfl : '.' = c := Option.some.inj head
        rfl
  have split : written.text ++ after = (if written.isNegative then ['-'] else []) ++
      (written.whole ++ (written.fractionText ++ after)) := by
    rw [Number.text, List.append_assoc, List.append_assoc]
    rfl
  have minus : (optional (exactly ['-'])) (written.text ++ after) =
      some (if written.isNegative then some () else none,
        written.whole ++ (written.fractionText ++ after)) := by
    rw [split, optional_apply]
    cases written.isNegative with
    | true => rw [if_pos rfl, exactly_append]; rfl
    | false =>
        have fails : exactly ['-'] (written.whole ++ (written.fractionText ++ after)) = none := by
          refine exactly_eq_none fun c head => beq_eq_false_iff_ne.2 ?_
          cases shape : written.whole with
          | nil => exact absurd shape written.whole_ne_nil
          | cons first others =>
              rw [shape] at head
              obtain rfl : first = c := Option.some.inj head
              exact ne_of_isDigit (written.isDigit_whole first (shape ▸ List.mem_cons_self)) rfl
        simp only [Bool.false_eq_true, if_false, List.nil_append, fails]
  rw [number, bind_of_some minus, bind_of_some whole, bind_of_some fraction, Number.text]
  cases written.isNegative <;> rfl

theorem number_eq_none {text : List Char}
    (begins : ∀ c ∈ text.head?, c.isDigit = false ∧ c ≠ '-') : number text = none := by
  have minus : (optional (exactly ['-'])) text = some (none, text) := by
    have fails : exactly ['-'] text = none :=
      exactly_eq_none fun c head => beq_eq_false_iff_ne.2 (begins c head).2
    rw [optional_apply, fails]
  have digits : span1 Char.isDigit text = none := by
    cases text with
    | nil => rfl
    | cons c rest => rw [span1, List.takeWhile_cons_of_neg (by simp [(begins c rfl).1])]
  rw [number, bind_of_some minus, bind_of_none digits]

/-- Of several words, none of which begins like another, the one that is written is taken. -/
theorem firstWord_append {texts : List String} {text : String} {after : List Char}
    (member : text ∈ texts) (apart : ∀ c ∈ after.head?, isNameChar c = false)
    (distinct : ∀ other ∈ texts, other ≠ text →
      exactly other.toList (text.toList ++ after) = none) :
    (texts.foldr (fun text others => (do word text; pure text.toList) <|> others) failure :
      Scanner (List Char)) (text.toList ++ after) = some (text.toList, after) := by
  induction texts with
  | nil => exact absurd member List.not_mem_nil
  | cons first others ih =>
      rw [List.foldr_cons, orElse_apply]
      by_cases same : first = text
      · rw [same, bind_of_some (word_append text apart)]
        rfl
      · have fails : word first (text.toList ++ after) = none := by
          rw [word, bind_of_none (distinct first List.mem_cons_self same)]
        have behind : text ∈ others := (List.mem_cons.1 member).resolve_left (Ne.symm same)
        rw [bind_of_none fails, Option.none_or]
        exact ih behind fun other found => distinct other (List.mem_cons_of_mem first found)

theorem Truth.scan (written : Truth) {after : List Char}
    (apart : ∀ c ∈ after.head?, isNameChar c = false) :
    truthValue (written.text.toList ++ after) = some (written.text.toList, after) := by
  refine firstWord_append ?_ apart ?_
  · cases written with | _ value => cases value <;> decide
  · intro other member different
    simp only [List.mem_cons, List.not_mem_nil, or_false] at member
    cases written with | _ value =>
      cases value <;> rcases member with rfl | rfl | rfl | rfl | rfl | rfl <;>
        first | exact absurd rfl different | rfl

theorem Number.first_cases (written : Number) {c : Char} (head : written.text.head? = some c) :
    c = '-' ∨ c.isDigit := by
  have first : ∀ digits, (written.whole ++ digits).head? = some c → c.isDigit := by
    intro digits head
    rw [List.head?_append_of_ne_nil _ written.whole_ne_nil] at head
    exact written.isDigit_whole c (List.mem_of_mem_head? head)
  rw [Number.text, List.append_assoc] at head
  cases sign : written.isNegative with
  | true =>
      rw [sign] at head
      exact .inl (Option.some.inj head).symm
  | false =>
      rw [sign] at head
      exact .inr (first _ head)

theorem isNameChar_of_isDigit {c : Char} (digit : c.isDigit) : isNameChar c := by
  simp [isNameChar, Char.isAlphanum, digit]

/-- A literal begins with a quote, a minus, or a letter or digit. -/
theorem Literal.first_cases (written : Literal) {c : Char}
    (head : written.token.text.head? = some c) : isQuote c ∨ c = '-' ∨ isNameChar c := by
  cases written with
  | quoted written =>
      obtain rfl : written.quote = c := Option.some.inj head
      rcases written.isQuote with same | same <;> exact .inl (same ▸ rfl)
  | number written =>
      rcases written.first_cases head with minus | digit
      · exact .inr (.inl minus)
      · exact .inr (.inr (isNameChar_of_isDigit digit))
  | truth written =>
      refine .inr (.inr ?_)
      cases written with
      | _ value => cases value <;> exact Option.some.inj head ▸ rfl

theorem Literal.isSpace_first (written : Literal) :
    ∀ c ∈ written.token.text.head?, isSpace c = false := by
  intro c head
  rcases written.first_cases head with quote | rfl | char
  · rcases Bool.or_eq_true_iff.1 quote with same | same <;> exact beq_iff_eq.1 same ▸ rfl
  · rfl
  · exact isSpace_eq_false_of_isNameChar char

theorem Literal.isOperatorChar_first (written : Literal) :
    ∀ c ∈ written.token.text.head?, isOperatorChar c = false := by
  intro c head
  rcases written.first_cases head with quote | rfl | char
  · rcases Bool.or_eq_true_iff.1 quote with same | same <;> exact beq_iff_eq.1 same ▸ rfl
  · rfl
  · refine Bool.eq_false_iff.2 fun symbol => ?_
    simp only [isOperatorChar, Bool.or_eq_true, beq_iff_eq] at symbol
    rcases symbol with (((rfl | rfl) | rfl) | rfl) | rfl <;> exact absurd char (by decide)

theorem reads_literal (written : Literal) :
    Reads literal [written.token] written.token.text isNumberPart := by
  refine reads_token written.isSpace_first fun rest after begins spaced apart => ?_
  rw [orElse_apply, orElse_apply]
  cases written with
  | quoted written => rw [Literal.token, Token.text, quoted_append, Option.some_or]
  | number written =>
      have ends : ∀ c ∈ after.head?, isNumberPart c = false := by
        intro c head
        rcases spaced.head?_cases head with space | first
        · exact isNumberPart_eq_false_of_isSpace space
        · exact begins c first
      have noQuote : quoted (written.text ++ after) = none := by
        refine quoted_eq_none fun c head => ?_
        rw [show (written.text ++ after).head? = written.text.head? from
          (Token.number written).head?_text_append after] at head
        rcases written.first_cases head with rfl | digit
        · rfl
        · exact Bool.or_eq_false_iff.2 ⟨beq_eq_false_iff_ne.2 (ne_of_isDigit digit rfl),
            beq_eq_false_iff_ne.2 (ne_of_isDigit digit rfl)⟩
      rw [Literal.token, Token.text, noQuote, written.scan ends]
      rfl
  | truth written =>
      have noQuote : quoted (written.text.toList ++ after) = none := by
        refine quoted_eq_none fun c head => ?_
        cases written with | _ value => cases value <;> exact Option.some.inj head ▸ rfl
      have noNumber : number (written.text.toList ++ after) = none := by
        refine number_eq_none fun c head => ?_
        cases written with
        | _ value => cases value <;> exact Option.some.inj head ▸ ⟨rfl, by decide⟩
      rw [Literal.token, Token.text, noQuote, noNumber, written.scan (apart rfl)]
      rfl

/-! ## Clauses -/

theorem reads_operator (operation : Operator) :
    Reads (token (span1 isOperatorChar)) [.operator operation] operation.symbol.toList
      isOperatorChar := by
  refine reads_token (fun c head => ?_) fun rest after begins spaced _ => ?_
  · cases operation <;> exact Option.some.inj head ▸ rfl
  · refine span1_append (Token.operator operation).text_ne_nil ?_ fun c head => ?_
    · cases operation <;> simp [Token.text, Operator.symbol, isOperatorChar]
    · rcases spaced.head?_cases head with space | first
      · simp only [isSpace, Bool.or_eq_true, beq_iff_eq] at space
        rcases space with ((rfl | rfl) | rfl) | rfl <;> rfl
      · exact begins c first

/-- The condition that is scanned for a written one. -/
def Condition.raw (condition : Condition) : RawComparison :=
  ⟨condition.variableName.text, condition.property.text, condition.operator.symbol,
    Value.ofLiteral condition.literal.token.text⟩

theorem starts_whereClause : Starts whereClause (isFirstOf Keyword.condition.text) :=
  (starts_keyword .condition).bind

theorem reads_whereClause (condition : Condition) :
    Reads whereClause condition.tokens condition.raw isNumberPart := by
  have same : condition.raw = ⟨condition.variableName.text, condition.property.text,
      String.ofList condition.operator.symbol.toList,
      Value.ofLiteral condition.literal.token.text⟩ := by
    rw [String.ofList_toList]
    rfl
  have literal := (reads_literal condition.literal).thenPure fun text =>
    (⟨condition.variableName.text, condition.property.text,
      String.ofList condition.operator.symbol.toList, Value.ofLiteral text⟩ : RawComparison)
  rw [same]
  refine (reads_keyword .condition).andThen ((reads_name condition.variableName).andThen
    ((reads_mark .point).andThen ((reads_name condition.property).andThen
      ((reads_operator condition.operator).bind literal fun rest _ c head => ?_))))
  exact condition.literal.isOperatorChar_first c head

theorem reads_returnClause (first : Name) (others : List Name) :
    Reads returnClause
      (.keyword .returned :: separatedTokens (fun returned => [.name returned]) (first :: others))
      ((first :: others).map Name.text) (isOpen (· == ',') never) :=
  (reads_keyword .returned).andThen (reads_commaSeparated reads_name rfl first others)

theorem statementEnd_of_spaced {isThere : Bool} {text : List Char}
    (spaced : Spaced (semicolonTokens isThere) text) : statementEnd text = some ((), []) := by
  have finished : ∀ {gap : List Char}, Spaced [] gap → token finish gap = some ((), []) := by
    intro gap spaced
    have dropped : (gap.dropWhile isSpace).head? = none :=
      spaced.head?_dropWhile fun c head => nomatch head
    change finish (gap.dropWhile isSpace) = _
    rw [List.head?_eq_none_iff.1 dropped]
    rfl
  cases isThere with
  | true =>
      have begins : ∀ c ∈ firstOf [], never c = false := nofun
      obtain ⟨after, taken, -, spaced⟩ := reads_mark .semicolon begins spaced
      have optionTaken : (optional (mark ";")) text = some (some (), after) := by
        rw [optional_apply, show mark ";" text = _ from taken]
      rw [statementEnd, bind_of_some optionTaken, finished spaced]
  | false =>
      have fails : mark ";" text = none := by
        refine starts_mark .semicolon text fun c head => ?_
        rw [spaced.head?_dropWhile fun c head => nomatch head] at head
        exact nomatch head
      have optionTaken : (optional (mark ";")) text = some (none, text) := by
        rw [optional_apply, fails]
      rw [statementEnd, bind_of_some optionTaken, finished spaced]

/-- The last part of a statement is read up to the end of the text. -/
theorem Reads.toEnd {scanner : Scanner α} {tokens : List Token} {value : α} {stops : Char → Bool}
    {isThere : Bool} {text : List Char} (reads : Reads scanner tokens value stops)
    (semicolon : stops ';' = false) (spaced : Spaced (tokens ++ semicolonTokens isThere) text)
    (finish : α → β) :
    (do let found ← scanner; statementEnd; pure (finish found)) text = some (finish value, []) := by
  have begins : ∀ c ∈ firstOf (semicolonTokens isThere), stops c = false := by
    intro c head
    cases isThere with
    | true =>
        obtain rfl : ';' = c := Option.some.inj head
        exact semicolon
    | false => exact nomatch head
  obtain ⟨after, taken, -, spaced⟩ := reads begins spaced
  rw [bind_of_some taken, bind_of_some (statementEnd_of_spaced spaced)]
  rfl

/-! ## Statements -/

/-- Nodes that are to be created are not read as a path, because no arrow follows the first. -/
theorem reads_createdNodes (first : CreatedNode) (others : List CreatedNode) :
    Reads
      ((do
        let start ← nodePattern
        let segment ← segment
        pure (Creation.path start segment)) <|> Creation.nodes <$> commaSeparated nodePattern)
      (separatedTokens (fun node => node.entity.nodeTokens) (first :: others))
      (.nodes ((first :: others).map fun node => node.entity.node))
      (isOpen (· == ',') isArrowStart) := by
  have list := (reads_commaSeparated (fun node : CreatedNode => reads_nodePattern node.entity) rfl
    first others).map Creation.nodes
  refine .orElse_right (fun rest text begins spaced => ?_) (list.mono fun c closed => ?_)
  · rw [separatedTokens, List.append_assoc] at spaced
    obtain ⟨middle, taken, -, spaced⟩ := reads_nodePattern first.entity (fun _ _ => rfl) spaced
    have noArrow : ∀ c ∈ firstOf (furtherTokens (fun node : CreatedNode => node.entity.nodeTokens)
        others ++ rest), isSpace c = false ∧ isArrowStart c = false := by
      intro c head
      cases others with
      | nil =>
          have closed := begins c head
          simp only [isOpen, Bool.or_eq_false_iff] at closed
          exact ⟨closed.1.1, closed.2⟩
      | cons next others =>
          obtain rfl : ',' = c := Option.some.inj head
          exact ⟨rfl, rfl⟩
    have fails : segment middle = none := by
      refine starts_segment middle fun c head => ?_
      rw [spaced.head?_dropWhile fun c head => (noArrow c head).1] at head
      exact (noArrow c head).2
    rw [bind_of_some taken, bind_of_none fails]
  · simp only [isOpen, Bool.or_eq_false_iff] at closed ⊢
    exact ⟨closed.1, rfl⟩

theorem reads_createdPath (path : CreatedPath) :
    Reads
      ((do
        let start ← nodePattern
        let segment ← segment
        pure (Creation.path start segment)) <|> Creation.nodes <$> commaSeparated nodePattern)
      path.tokens
      (.path path.left.entity.node ⟨path.link.relationship, path.right.entity.node⟩) never :=
  ((reads_nodePattern path.left.entity).andThen
    ((reads_segment path.link path.right.entity).thenPure fun _ => _)).orElse_left _

theorem statement_createdNodes (nodes : List CreatedNode) :
    (Creation.nodes (nodes.map fun node => node.entity.node)).statement =
      .ok (.createNodes (nodes.map CreatedNode.node)) := by
  have created : (nodes.map fun node => node.entity.node).mapM NodePattern.newNode? =
      some (nodes.map CreatedNode.node) := by
    induction nodes with
    | nil => rfl
    | cons first others ih =>
        rw [List.map_cons, List.mapM_cons, ih]
        rfl
  rw [Creation.statement, created]

theorem statement_createdPath (path : CreatedPath) :
    (Creation.path path.left.entity.node
      ⟨path.link.relationship, path.right.entity.node⟩).statement = .ok path.statement := by
  obtain ⟨left, right, pointsLeft, variableName, type, block⟩ := path
  cases pointsLeft <;> rfl

theorem reads_indexOn (label property : Name) :
    Reads indexOn
      [.keyword .on, .mark .colon, .name label, .mark .leftParenthesis, .name property,
        .mark .rightParenthesis]
      ⟨label.text, property.text, none⟩ never :=
  (reads_keyword .on).andThen ((reads_afterColon label).andThen
    ((reads_mark .leftParenthesis).andThen ((reads_name property).andThen
      ((reads_mark .rightParenthesis).thenPure fun _ => _))))

theorem reads_indexFor (variableName label property : Name) :
    Reads indexFor
      [.keyword .forEach, .mark .leftParenthesis, .name variableName, .mark .colon, .name label,
        .mark .rightParenthesis, .keyword .on, .mark .leftParenthesis, .name variableName,
        .mark .point, .name property, .mark .rightParenthesis]
      ⟨label.text, property.text, some (variableName.text, variableName.text)⟩ never :=
  (reads_keyword .forEach).andThen ((reads_mark .leftParenthesis).andThen
    ((reads_name variableName).andThen ((reads_afterColon label).andThen
      ((reads_mark .rightParenthesis).andThen ((reads_keyword .on).andThen
        ((reads_mark .leftParenthesis).andThen ((reads_name variableName).andThen
          ((reads_mark .point).andThen ((reads_name property).andThen
            ((reads_mark .rightParenthesis).thenPure fun _ => _))))))))))

/-- The form with variables is read although the short form is tried first. -/
theorem reads_indexFor_second (variableName label property : Name) :
    Reads (indexOn <|> indexFor)
      [.keyword .forEach, .mark .leftParenthesis, .name variableName, .mark .colon, .name label,
        .mark .rightParenthesis, .keyword .on, .mark .leftParenthesis, .name variableName,
        .mark .point, .name property, .mark .rightParenthesis]
      ⟨label.text, property.text, some (variableName.text, variableName.text)⟩ never := by
  have starts : Starts indexOn (isFirstOf Keyword.on.text) := (starts_keyword .on).bind
  refine .orElse_of_starts starts (fun rest c head => ?_)
    (reads_indexFor variableName label property)
  obtain rfl : 'F' = c := Option.some.inj head
  exact ⟨rfl, rfl⟩

theorem matchStatement_of_spaced {written : WrittenMatch} {isThere : Bool} {text : List Char}
    (spaced : Spaced (written.tokens ++ semicolonTokens isThere) text) :
    matchStatement.run? text = some ⟨written.query.pattern, written.condition.map Condition.raw,
      written.query.returned⟩ := by
  have grouped : written.tokens ++ semicolonTokens isThere =
      [.keyword .matching] ++ ((written.start.nodeTokens ++
        optionTokens (fun step => step.1.tokens ++ step.2.nodeTokens) written.segment) ++
          (optionTokens Condition.tokens written.condition ++
            ((.keyword .returned :: separatedTokens (fun returned => [.name returned])
              (written.first :: written.others)) ++ semicolonTokens isThere))) := by
    simp [WrittenMatch.tokens]
  rw [grouped] at spaced
  obtain ⟨middle, takenKeyword, -, spaced⟩ := reads_keyword .matching (fun _ _ => rfl) spaced
  have takenMatch : keyword "MATCH" text = some ((), middle) := takenKeyword
  have noArrow : ∀ c ∈ firstOf (optionTokens Condition.tokens written.condition ++
      ((.keyword .returned :: separatedTokens (fun returned => [.name returned])
        (written.first :: written.others)) ++ semicolonTokens isThere)),
      isOpen isArrowStart never c = false := by
    intro c head
    cases shape : written.condition with
    | none =>
        rw [shape] at head
        obtain rfl : 'R' = c := Option.some.inj head
        rfl
    | some condition =>
        rw [shape] at head
        obtain rfl : 'W' = c := Option.some.inj head
        rfl
  obtain ⟨_, takenPattern, -, spaced⟩ :=
    reads_pathPattern written.start written.segment noArrow spaced
  have noCondition : ∀ c ∈ firstOf ((.keyword .returned :: separatedTokens
      (fun returned => [.name returned]) (written.first :: written.others)) ++
        semicolonTokens isThere),
      isOpen (isFirstOf Keyword.condition.text) isNumberPart c = false := by
    intro c head
    obtain rfl : 'R' = c := Option.some.inj head
    rfl
  obtain ⟨_, takenCondition, -, spaced⟩ :=
    reads_optional starts_whereClause reads_whereClause written.condition noCondition spaced
  have ended := (reads_returnClause written.first written.others).toEnd rfl spaced fun returned =>
    (⟨written.query.pattern, written.condition.map Condition.raw, returned⟩ : RawMatch)
  rw [run?, matchStatement, bind_of_some takenMatch, bind_of_some takenPattern,
    bind_of_some takenCondition]
  exact congrArg (Option.map Prod.fst) ended

theorem statement_matching (written : WrittenMatch) :
    (RawMatch.mk written.query.pattern (written.condition.map Condition.raw)
      written.query.returned).statement = .ok (.matching written.query) := by
  unfold RawMatch.statement WrittenMatch.query
  cases written.condition with
  | none => rfl
  | some condition =>
      simp only [Option.map_some, Condition.raw, Operator.ofSymbol?_symbol]
      rfl

/-! ## Ends of statements -/

/-- Tokens end with something visible. -/
def EndsVisibly (tokens : List Token) : Prop :=
  ∃ c, lastOf tokens = some c ∧ Text.isBlank c = false

theorem EndsVisibly.append (tokens : List Token) {others : List Token}
    (ends : EndsVisibly others) : EndsVisibly (tokens ++ others) := by
  obtain ⟨c, last, visible⟩ := ends
  refine ⟨c, ?_, visible⟩
  have nonempty : others ≠ [] := by
    rintro rfl
    exact nomatch last
  rw [lastOf, List.getLast?_append, Option.or_of_isSome (List.getLast?_isSome.2 nonempty)]
  exact last

theorem endsVisibly_mark (punctuation : Mark) : EndsVisibly [.mark punctuation] := by
  cases punctuation <;> exact ⟨_, rfl, rfl⟩

theorem isBlank_eq_false_of_isNameChar {c : Char} (char : isNameChar c) :
    Text.isBlank c = false := by
  have codes : (48 ≤ c.toNat ∧ c.toNat ≤ 57) ∨ (65 ≤ c.toNat ∧ c.toNat ≤ 122) := by
    simp only [isNameChar, Char.isAlphanum, Char.isAlpha, Char.isUpper, Char.isLower, Char.isDigit,
      Bool.or_eq_true, Bool.and_eq_true, decide_eq_true_eq, ge_iff_le, UInt32.le_iff_toNat_le,
      beq_iff_eq] at char
    rcases char with ((⟨low, high⟩ | ⟨low, high⟩) | ⟨low, high⟩) | rfl
    · exact .inr ⟨low, Nat.le_trans high (by decide)⟩
    · exact .inr ⟨Nat.le_trans (by decide) low, high⟩
    · exact .inl ⟨low, high⟩
    · decide
  simp only [Text.isBlank, Bool.or_eq_false_iff, Bool.and_eq_false_iff, decide_eq_false_iff_not,
    beq_eq_false_iff_ne]
  omega

theorem endsVisibly_name (written : Name) : EndsVisibly [.name written] := by
  have last := List.getLast?_eq_some_getLast (List.cons_ne_nil written.first written.others)
  exact ⟨_, last, isBlank_eq_false_of_isNameChar (Name.isNameChar_of_mem
    (List.getLast_mem (List.cons_ne_nil written.first written.others)))⟩

theorem endsVisibly_nodeTokens (entity : Entity) : EndsVisibly entity.nodeTokens :=
  ((((endsVisibly_mark .rightParenthesis).append _).append _).append _).append
    [.mark .leftParenthesis]

theorem endsVisibly_separatedTokens {tokensOf : β → List Token}
    (ends : ∀ item, EndsVisibly (tokensOf item)) (first : β) (others : List β) :
    EndsVisibly (separatedTokens tokensOf (first :: others)) := by
  induction others generalizing first with
  | nil =>
      rw [separatedTokens, furtherTokens, List.flatMap_nil, List.append_nil]
      exact ends first
  | cons next others ih =>
      have shape : separatedTokens tokensOf (first :: next :: others) =
          (tokensOf first ++ [.mark .comma]) ++ separatedTokens tokensOf (next :: others) := by
        simp [separatedTokens, furtherTokens]
      rw [shape]
      exact (ih next).append _

theorem Written.endsVisibly (written : Written) : EndsVisibly written.tokens := by
  cases written with
  | nodes first others =>
      have list := endsVisibly_separatedTokens
        (fun node : CreatedNode => endsVisibly_nodeTokens node.entity) first others
      exact list.append [.keyword .create]
  | path written =>
      have right := endsVisibly_nodeTokens written.right.entity
      exact ((right.append written.link.tokens).append written.left.entity.nodeTokens).append
        [.keyword .create]
  | indexOn label property =>
      exact (endsVisibly_mark .rightParenthesis).append [.keyword .create, .keyword .index,
        .keyword .on, .mark .colon, .name label, .mark .leftParenthesis, .name property]
  | indexFor variableName label property =>
      exact (endsVisibly_mark .rightParenthesis).append [.keyword .create, .keyword .index,
        .keyword .forEach, .mark .leftParenthesis, .name variableName, .mark .colon, .name label,
        .mark .rightParenthesis, .keyword .on, .mark .leftParenthesis, .name variableName,
        .mark .point, .name property]
  | matching written =>
      have list := endsVisibly_separatedTokens endsVisibly_name written.first written.others
      have clause := list.append [.keyword .returned]
      have behind := clause.append (optionTokens Condition.tokens written.condition)
      have pattern := (behind.append (optionTokens
        (fun step => step.1.tokens ++ step.2.nodeTokens) written.segment)).append
          written.start.nodeTokens
      exact pattern.append [.keyword .matching]

theorem Written.endsVisibly_semicolon (written : Written) (isThere : Bool) :
    EndsVisibly (written.tokens ++ semicolonTokens isThere) := by
  cases isThere with
  | true => exact (endsVisibly_mark .semicolon).append _
  | false =>
      rw [semicolonTokens, if_neg Bool.false_ne_true, List.append_nil]
      exact written.endsVisibly

/-! ## Parsing -/

/-- The kind of a statement is found behind its first keyword. -/
theorem dropWhile_isBlank_of_spaced {token : Token} {tokens : List Token} {text : List Char}
    (visible : ∀ c ∈ token.text.head?, Text.isBlank c = false)
    (spaced : Spaced (token :: tokens) text) :
    ∃ after, text.dropWhile Text.isBlank = token.text ++ after := by
  obtain ⟨gap, after, rfl, blank, -, -⟩ := spaced.parts
  refine ⟨after, dropWhile_append_of_all (fun c member => isBlank_of_isSpace (blank c member)) ?_⟩
  rwa [Token.head?_text_append]

theorem startsWith_append (start after : List Char) : Text.startsWith start (start ++ after) := by
  simp [Text.startsWith]

theorem Keyword.isBlank_first (word : Keyword) :
    ∀ c ∈ (Token.keyword word).text.head?, Text.isBlank c = false := by
  intro c head
  cases word <;> exact Option.some.inj head ▸ rfl

/-- A statement is trimmed without loss, and then begins with its keyword. -/
theorem Spaced.trim_statement {word : Keyword} {tokens : List Token} {text : List Char}
    (ends : EndsVisibly (.keyword word :: tokens))
    (spaced : Spaced (.keyword word :: tokens) text) :
    ∃ middle, Text.trim text = word.text.toList ++ middle ∧ Spaced tokens middle ∧
      Spaced (.keyword word :: tokens) (Text.trim text) := by
  obtain ⟨last, ending, visible⟩ := ends
  have final : ∀ c ∈ lastOf (.keyword word :: tokens), Text.isBlank c = false := by
    intro c found
    obtain rfl := Option.some.inj (ending.symm.trans found)
    exact visible
  obtain ⟨middle, trimmed, apart, rest⟩ := spaced.trim word.isBlank_first final
  exact ⟨middle, trimmed, rest, trimmed ▸ .token [] (.keyword word) nofun apart rest⟩

theorem parse_eq_parseCreate {source : String} {middle : List Char} {token : Token}
    {tokens : List Token} (trimmed : Text.trim source.toList = "CREATE".toList ++ middle)
    (visible : ∀ c ∈ token.text.head?, Text.isBlank c = false)
    (spaced : Spaced (token :: tokens) middle)
    (noIndex : ∀ after, Text.startsWith "INDEX".toList (token.text ++ after) = false) :
    parse source = parseCreate (Text.trim source.toList) := by
  obtain ⟨after, dropped⟩ := dropWhile_isBlank_of_spaced visible spaced
  have behind : ((Text.trim source.toList).drop 6).dropWhile Text.isBlank =
      token.text ++ after := by
    rw [trimmed, ← dropped]
    rfl
  have starts : Text.startsWith "CREATE".toList (Text.trim source.toList) := by
    rw [trimmed]
    exact startsWith_append _ _
  simp only [parse, starts, behind, noIndex, if_true, Bool.false_eq_true, if_false]

theorem parse_eq_parseCreateIndex {source : String} {middle : List Char} {tokens : List Token}
    (trimmed : Text.trim source.toList = "CREATE".toList ++ middle)
    (spaced : Spaced (.keyword .index :: tokens) middle) :
    parse source = parseCreateIndex (Text.trim source.toList) := by
  obtain ⟨after, dropped⟩ := dropWhile_isBlank_of_spaced (Keyword.isBlank_first .index) spaced
  have behind : ((Text.trim source.toList).drop 6).dropWhile Text.isBlank =
      "INDEX".toList ++ after := by
    rw [trimmed]
    exact dropped
  have starts : Text.startsWith "CREATE".toList (Text.trim source.toList) := by
    rw [trimmed]
    exact startsWith_append _ _
  simp only [parse, starts, behind, startsWith_append, if_true]

theorem parse_eq_parseMatch {source : String} {middle : List Char}
    (trimmed : Text.trim source.toList = "MATCH".toList ++ middle) :
    parse source = parseMatch (Text.trim source.toList) := by
  have noCreate : Text.startsWith "CREATE".toList ("MATCH".toList ++ middle) = false := rfl
  simp only [parse, trimmed, noCreate, startsWith_append, if_true, Bool.false_eq_true, if_false]

/-- A creation of nodes or of a path is parsed by the scanner that reads what stands behind its
keyword. -/
theorem parse_creation {created : Creation} {tokens : List Token} {stops : Char → Bool}
    {isThere : Bool} {source : String}
    (reads : Reads
      ((do
        let start ← nodePattern
        let segment ← segment
        pure (Creation.path start segment)) <|> Creation.nodes <$> commaSeparated nodePattern)
      (.mark .leftParenthesis :: tokens) created stops)
    (semicolon : stops ';' = false)
    (ends : EndsVisibly (.keyword .create :: .mark .leftParenthesis :: tokens ++
      semicolonTokens isThere))
    (spaced : Spaced (.keyword .create :: .mark .leftParenthesis :: tokens ++
      semicolonTokens isThere) source.toList) :
    parse source = created.statement := by
  obtain ⟨middle, trimmed, rest, whole⟩ := spaced.trim_statement ends
  have visible : ∀ c ∈ (Token.mark .leftParenthesis).text.head?, Text.isBlank c = false :=
    fun c head => Option.some.inj head ▸ rfl
  obtain ⟨after, takenKeyword, -, behind⟩ := reads_keyword .create (fun _ _ => rfl) whole
  have scanned : creation.run? (Text.trim source.toList) = some created := by
    have takenCreate : keyword "CREATE" (Text.trim source.toList) = some ((), after) := takenKeyword
    rw [run?, creation, bind_of_some takenCreate]
    exact congrArg (Option.map Prod.fst) (reads.toEnd semicolon behind id)
  rw [parse_eq_parseCreate trimmed visible rest fun _ => rfl, parseCreate, scanned]

/-- The creation of an index is parsed by the scanner that reads what stands behind its keywords. -/
theorem parse_indexCreation {definition : IndexDefinition} {tokens : List Token} {isThere : Bool}
    {source : String} (reads : Reads (indexOn <|> indexFor) tokens definition never)
    (ends : EndsVisibly (.keyword .create :: .keyword .index :: tokens ++ semicolonTokens isThere))
    (spaced : Spaced (.keyword .create :: .keyword .index :: tokens ++ semicolonTokens isThere)
      source.toList) :
    parse source = definition.statement := by
  obtain ⟨middle, trimmed, rest, whole⟩ := spaced.trim_statement ends
  obtain ⟨after, takenCreate, -, behind⟩ := reads_keyword .create (fun _ _ => rfl) whole
  obtain ⟨final, takenIndex, -, behind⟩ := reads_keyword .index (fun _ _ => rfl) behind
  have scanned : indexCreation.run? (Text.trim source.toList) = some definition := by
    have takenFirst : keyword "CREATE" (Text.trim source.toList) = some ((), after) := takenCreate
    have takenSecond : keyword "INDEX" after = some ((), final) := takenIndex
    rw [run?, indexCreation, bind_of_some takenFirst, bind_of_some takenSecond]
    exact congrArg (Option.map Prod.fst) (reads.toEnd rfl behind id)
  rw [parse_eq_parseCreateIndex trimmed rest, parseCreateIndex, scanned]

theorem parse_matching (written : WrittenMatch) (isThere : Bool) {source : String}
    (spaced : Spaced (written.tokens ++ semicolonTokens isThere) source.toList) :
    parse source = .ok (.matching written.query) := by
  have ends := (Written.matching written).endsVisibly_semicolon isThere
  obtain ⟨middle, trimmed, -, whole⟩ := spaced.trim_statement ends
  rw [parse_eq_parseMatch trimmed, parseMatch, matchStatement_of_spaced whole]
  exact statement_matching written

/-- A written statement is parsed as what it asks for, however its tokens are set apart and with or
without a semicolon. -/
theorem parse_written (written : Written) (isThere : Bool) {source : String}
    (spaced : Spaced (written.tokens ++ semicolonTokens isThere) source.toList) :
    parse source = .ok written.statement := by
  have ends := written.endsVisibly_semicolon isThere
  cases written with
  | nodes first others =>
      rw [parse_creation (reads_createdNodes first others) rfl ends spaced]
      exact statement_createdNodes (first :: others)
  | path written =>
      rw [parse_creation (reads_createdPath written) rfl ends spaced]
      exact statement_createdPath written
  | indexOn label property =>
      rw [parse_indexCreation ((reads_indexOn label property).orElse_left _) ends spaced]
      rfl
  | indexFor variableName label property =>
      rw [parse_indexCreation (reads_indexFor_second variableName label property) ends spaced,
        IndexDefinition.statement]
      exact if_pos rfl
  | matching written => exact parse_matching written isThere spaced

/-- A path that points to the left, with one key written twice, a comma and a brace in quotes, and
blanks only where they are part of a value. -/
theorem parse_written_of_repeated_key :
    let single (first : Char) (start : isNameStart first) : Name := ⟨first, [], start, nofun⟩
    let quoted : Quoted := ⟨'"', "x,\x7d".toList, .inl rfl, by decide⟩
    let bare : Bare := ⟨"b c".toList, ⟨'b', by decide⟩, by simp⟩
    let left : CreatedNode := ⟨none, single 'A' rfl,
      some [⟨.name (single 'n' rfl), .quoted quoted⟩, ⟨.name (single 'n' rfl), .bare bare⟩]⟩
    let right : CreatedNode := ⟨some (single 'b' rfl), single 'B' rfl, some []⟩
    let written : Written := .path ⟨left, right, true, none, single 'T' rfl, none⟩
    let source := "CREATE(:A\x7bn:\"x,\x7d\",n: b c \x7d)<-\n[:T]-(b :B\x7b\x7d);"
    Spaced (written.tokens ++ semicolonTokens true) source.toList ∧
      parse source = .ok (.createRelationship ⟨"B", .empty⟩ "T" .empty
        ⟨"A", ⟨[("n", .text "b c")], by decide⟩⟩) := by
  intro single quoted bare left right written source
  have spaced : Spaced (written.tokens ++ semicolonTokens true) source.toList := by
    decide +kernel
  refine ⟨spaced, (parse_written written true spaced).trans ?_⟩
  decide +kernel

end Query
end GraphStore
