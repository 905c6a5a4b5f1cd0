import GraphStore.Proofs.Query.Parsing

/-!
# Embedded property lists

A property list ends at the end of its text or at the brace that closes its block.  Its scanner does
not look beyond that brace: what follows can neither lengthen a value without quotes nor close a
quote that the list has left open.  So a list that is read on its own is read with the same
properties in a statement.
-/

namespace GraphStore
namespace Scanner

variable {α β : Type}

/-- A scanner overlooks a tail: with the tail behind a text it takes the same off the text and
leaves the tail, or fails as it does without. -/
def Overlooks (scanner : Scanner α) (tail : List Char) : Prop :=
  ∀ text, scanner (text ++ tail) = (scanner text).map fun (value, rest) => (value, rest ++ tail)

variable {scanner : Scanner α} {tail : List Char} {keep : Char → Bool}

theorem overlooks_pure (value : α) (tail : List Char) : Overlooks (pure value) tail :=
  fun _ => rfl

theorem Overlooks.bind {next : α → Scanner β} (overlooks : Overlooks scanner tail)
    (later : ∀ value, Overlooks (next value) tail) : Overlooks (scanner >>= next) tail := by
  intro text
  rw [bind_apply, bind_apply, overlooks text]
  cases scanner text with
  | none => rfl
  | some taken => exact later taken.1 taken.2

theorem Overlooks.orElse {other : Scanner α} (overlooks : Overlooks scanner tail)
    (otherwise : Overlooks other tail) : Overlooks (scanner <|> other) tail := by
  intro text
  rw [orElse_apply, orElse_apply, overlooks text, otherwise text]
  cases scanner text <;> rfl

theorem Overlooks.optional (overlooks : Overlooks scanner tail) :
    Overlooks (optional scanner) tail := by
  intro text
  rw [optional_apply, optional_apply, overlooks text]
  cases scanner text <;> rfl

theorem Overlooks.many (overlooks : Overlooks scanner tail) : Overlooks (many scanner) tail := by
  intro text
  induction length : text.length using Nat.strongRecOn generalizing text with
  | ind size ih =>
      rw [Scanner.many, Scanner.many, overlooks text]
      cases scanner text with
      | none => rfl
      | some taken =>
          obtain ⟨value, rest⟩ := taken
          simp only [Option.map_some, List.length_append, Nat.add_lt_add_iff_right]
          split
          · next shorter =>
              rw [ih rest.length (length ▸ shorter) rest rfl]
              cases Scanner.many scanner rest <;> rfl
          · rfl

theorem takeWhile_append_of_ends (ends : ∀ c ∈ tail.head?, keep c = false) (text : List Char) :
    (text ++ tail).takeWhile keep = text.takeWhile keep := by
  have stop : tail.takeWhile keep = [] := by
    cases tail with
    | nil => rfl
    | cons c rest => exact List.takeWhile_cons_of_neg (by simp [ends c rfl])
  rw [List.takeWhile_append, stop, List.append_nil]
  split
  · next whole => exact (List.takeWhile_prefix keep).eq_of_length whole |>.symm
  · rfl

theorem dropWhile_append_of_ends (ends : ∀ c ∈ tail.head?, keep c = false) (text : List Char) :
    (text ++ tail).dropWhile keep = text.dropWhile keep ++ tail := by
  apply @List.append_cancel_left _ (text.takeWhile keep)
  rw [← List.append_assoc, List.takeWhile_append_dropWhile, ← takeWhile_append_of_ends ends,
    List.takeWhile_append_dropWhile]

/-- A run ends where the tail begins. -/
theorem overlooks_span (ends : ∀ c ∈ tail.head?, keep c = false) : Overlooks (span keep) tail := by
  intro text
  rw [span, takeWhile_append_of_ends ends, dropWhile_append_of_ends ends]
  rfl

theorem overlooks_span1 (ends : ∀ c ∈ tail.head?, keep c = false) :
    Overlooks (span1 keep) tail := by
  intro text
  rw [span1, span1, takeWhile_append_of_ends ends, dropWhile_append_of_ends ends]
  cases text.takeWhile keep <;> rfl

theorem overlooks_exactly {expected : Char} (differs : ∀ c ∈ tail.head?, (c == expected) = false) :
    Overlooks (exactly [expected]) tail := by
  intro text
  cases text with
  | nil => exact Query.exactly_eq_none differs
  | cons c rest =>
      rw [List.cons_append, exactly, exactly, List.isPrefixOf_cons_cons, List.isPrefixOf_cons_cons]
      cases expected == c <;> rfl

theorem overlooks_ahead {condition : List Char → Bool}
    (same : ∀ text, condition (text ++ tail) = condition text) :
    Overlooks (ahead condition) tail := by
  intro text
  rw [ahead, ahead, same]
  split <;> rfl

end Scanner

namespace Query

open Scanner

variable {α : Type}

/-! ## The brace behind a list -/

variable {tail : List Char} {scanner : Scanner α}

/-- A quote that a text opens is not closed in a tail without that quote. -/
theorem overlooks_quotedBy {quote : Char} (absent : quote ∉ tail) :
    Overlooks (quotedBy quote) tail := by
  have differs : ∀ c ∈ tail.head?, (c == quote) = false := fun c head =>
    beq_eq_false_iff_ne.2 fun same => absent (same ▸ List.mem_of_mem_head? head)
  refine (overlooks_exactly differs).bind fun _ => fun text => ?_
  by_cases closed : quote ∈ text
  · obtain ⟨content, after, rfl, inside⟩ := List.eq_append_cons_of_mem closed
    have run (after : List Char) : span (· != quote) (content ++ quote :: after) =
        some (content, quote :: after) := by
      refine span_append (fun c member => bne_iff_ne.2 fun same => inside (same ▸ member)) ?_
      intro c head
      exact Option.some.inj head ▸ bne_self_eq_false quote
    have close (after : List Char) : exactly [quote] (quote :: after) = some ((), after) :=
      exactly_append [quote] after
    rw [List.append_assoc, List.cons_append, bind_of_some (run _), bind_of_some (run _),
      bind_of_some (close _), bind_of_some (close _)]
    rfl
  · have open_ {text : List Char} (absent : quote ∉ text) :
        (do let content ← span (· != quote); exactly [quote]; pure content :
          Scanner (List Char)) text = none := by
      have run : span (· != quote) text = some (text, []) := by
        have spanned := @span_append (· != quote) text []
          (fun c member => bne_iff_ne.2 fun same => absent (same ▸ member)) (by simp)
        rwa [List.append_nil] at spanned
      rw [bind_of_some run]
      rfl
    rw [open_ closed, open_ fun member => (List.mem_append.1 member).elim closed absent]
    rfl

/-- What can follow a property list in a statement: the closing brace, and then no quote. -/
structure ClosesBlock (tail : List Char) : Prop where
  brace : tail.head? = some '\x7d'
  unquoted : '"' ∉ tail ∧ '\'' ∉ tail

namespace ClosesBlock

theorem ends (closes : ClosesBlock tail) {keep : Char → Bool} (stops : keep '\x7d' = false) :
    ∀ c ∈ tail.head?, keep c = false := by
  intro c head
  rw [closes.brace] at head
  exact Option.some.inj head ▸ stops

theorem token (closes : ClosesBlock tail) (overlooks : Overlooks scanner tail) :
    Overlooks (token scanner) tail :=
  (overlooks_span (closes.ends rfl)).bind fun _ => overlooks

theorem name (closes : ClosesBlock tail) : Overlooks name tail := by
  refine closes.token (Overlooks.bind (overlooks_ahead fun text => ?_) fun _ =>
    (overlooks_span1 (closes.ends rfl)).bind fun _ => overlooks_pure _ _)
  cases text with
  | nil =>
      rw [List.nil_append, closes.brace]
      rfl
  | cons c rest => rfl

theorem quoted (closes : ClosesBlock tail) : Overlooks quoted tail :=
  ((overlooks_quotedBy closes.unquoted.1).bind fun _ => overlooks_pure _ _).orElse
    ((overlooks_quotedBy closes.unquoted.2).bind fun _ => overlooks_pure _ _)

theorem propertyKey (closes : ClosesBlock tail) : Overlooks propertyKey tail :=
  (closes.token ((overlooks_quotedBy closes.unquoted.1).bind fun _ => overlooks_pure _ _)).orElse
    ((closes.token ((overlooks_quotedBy closes.unquoted.2).bind fun _ => overlooks_pure _ _)).orElse
      closes.name)

/-- The brace ends a quoted value just as the end of the text does. -/
theorem endsValue_append (closes : ClosesBlock tail) (text : List Char) :
    endsValue (text ++ tail) = endsValue text := by
  rw [endsValue, endsValue, dropWhile_append_of_ends (closes.ends rfl)]
  cases text.dropWhile isSpace with
  | nil =>
      rw [List.nil_append, closes.brace]
      rfl
  | cons c rest => rfl

theorem propertyValue (closes : ClosesBlock tail) : Overlooks propertyValue tail :=
  closes.token ((closes.quoted.bind fun _ =>
    (overlooks_ahead closes.endsValue_append).bind fun _ => overlooks_pure _ _).orElse
      (overlooks_span1 (closes.ends rfl)))

theorem property (closes : ClosesBlock tail) : Overlooks property tail :=
  closes.propertyKey.bind fun _ =>
    (closes.token (overlooks_exactly (closes.ends rfl))).bind fun _ =>
      closes.propertyValue.bind fun _ => overlooks_pure _ _

theorem commaSeparated (closes : ClosesBlock tail) (overlooks : Overlooks scanner tail) :
    Overlooks (commaSeparated scanner) tail :=
  overlooks.bind fun _ => (Overlooks.many ((closes.token (overlooks_exactly (closes.ends rfl))).bind
    fun _ => overlooks)).bind fun _ => overlooks_pure _ _

/-- The scanner of property lists does not look beyond the closing brace. -/
theorem propertyList (closes : ClosesBlock tail) : Overlooks propertyList tail :=
  (closes.commaSeparated closes.property).optional.bind fun _ => overlooks_pure _ _

end ClosesBlock

/-! ## Blocks in statements -/

variable {text after rest : List Char} {properties : Properties}

/-- Behind a list that is a whole text there are only blanks. -/
theorem exists_blank_of_run? (read : wholePropertyList.run? text = some properties) :
    ∃ rest, propertyList text = some (properties, rest) ∧ ∀ c ∈ rest, isSpace c := by
  obtain ⟨whole, taken, rfl⟩ := Option.map_eq_some_iff.1 read
  obtain ⟨⟨found, rest⟩, list, finished⟩ := Option.bind_eq_some_iff.1 taken
  obtain ⟨⟨_, _⟩, ended, same⟩ := Option.bind_eq_some_iff.1 finished
  cases same
  refine ⟨rest, list, List.dropWhile_eq_nil_iff.1 ?_⟩
  change finish (rest.dropWhile isSpace) = _ at ended
  cases left : rest.dropWhile isSpace with
  | nil => rfl
  | cons c others =>
      rw [left] at ended
      cases ended

/-- A list that is a whole text is what stands between the braces of a block. -/
theorem propertyBlock_append (after : List Char)
    (read : wholePropertyList.run? text = some properties)
    (unquoted : '"' ∉ after ∧ '\'' ∉ after) :
    propertyBlock (' ' :: '\x7b' :: (text ++ '\x7d' :: after)) = some (properties, after) := by
  obtain ⟨rest, list, blank⟩ := exists_blank_of_run? read
  have closes : ClosesBlock ('\x7d' :: after) := ⟨rfl, by simp [unquoted]⟩
  have opened : mark "\x7b" (' ' :: '\x7b' :: (text ++ '\x7d' :: after)) =
      some ((), text ++ '\x7d' :: after) :=
    mark_append .leftBrace [' '] (by simp [isSpace]) _
  have embedded : propertyList (text ++ '\x7d' :: after) =
      some (properties, rest ++ '\x7d' :: after) := by
    rw [closes.propertyList text, list, Option.map_some]
  have closed : mark "\x7d" (rest ++ '\x7d' :: after) = some ((), after) :=
    mark_append .rightBrace _ blank after
  rw [propertyBlock, bind_of_some opened, bind_of_some embedded, bind_of_some closed]
  rfl

variable (variableName label : Name)

/-- The text of a node with a variable, a label and a property list. -/
def nodeText (list : List Char) : List Char :=
  '(' :: (variableName.chars ++ ':' :: (label.chars ++ ' ' :: '\x7b' :: (list ++ ['\x7d', ')'])))

theorem nodePattern_append (after : List Char)
    (read : wholePropertyList.run? text = some properties) (unquoted : '"' ∉ after ∧ '\'' ∉ after) :
    nodePattern (' ' :: (nodeText variableName label text ++ after)) =
      some (⟨some variableName.text, some label.text, properties⟩, after) := by
  have block := propertyBlock_append (')' :: after) read (by simp [unquoted])
  have opened (after : List Char) : mark "(" ([' '] ++ ("(".toList ++ after)) = some ((), after) :=
    mark_append .leftParenthesis _ (by simp [isSpace]) after
  have close : mark ")" (')' :: after) = some ((), after) :=
    mark_append .rightParenthesis [] (List.forall_mem_nil _) after
  have colon (after : List Char) : mark ":" (':' :: after) = some ((), after) :=
    mark_append .colon [] (List.forall_mem_nil _) after
  generalize inside : ' ' :: '\x7b' :: (text ++ '\x7d' :: ')' :: after) = tail at block
  have shape : ' ' :: (nodeText variableName label text ++ after) =
      [' '] ++ ("(".toList ++ (variableName.chars ++ ':' :: (label.chars ++ tail))) := by
    simp [nodeText, ← inside]
  have named : name (variableName.chars ++ ':' :: (label.chars ++ tail)) = _ :=
    name_append variableName [] (List.forall_mem_nil _) fun c head =>
      Option.some.inj head ▸ rfl
  have labelled : afterColon (':' :: (label.chars ++ tail)) = some (label.text, tail) := by
    rw [afterColon, bind_of_some (colon _)]
    refine name_append label [] (List.forall_mem_nil _) fun c head => ?_
    rw [← inside] at head
    exact Option.some.inj head ▸ rfl
  have some_of {α : Type} {scanner : Scanner α} {text rest : List Char} {value : α}
      (taken : scanner text = some (value, rest)) :
      (optional scanner) text = some (some value, rest) := by
    rw [optional_apply, taken]
  rw [shape, nodePattern, bind_of_some (opened _), bind_of_some (some_of named),
    bind_of_some (some_of labelled), bind_of_some (some_of block), bind_of_some close]
  rfl

/-! ## Statements around a property list -/

theorem creation_nodeText (read : wholePropertyList.run? text = some properties) :
    creation.run? ("CREATE".toList ++ ' ' :: nodeText variableName label text) =
      some (.nodes [⟨some variableName.text, some label.text, properties⟩]) := by
  have begun : keyword "CREATE" ("CREATE".toList ++ ' ' :: nodeText variableName label text) =
      some ((), ' ' :: nodeText variableName label text) :=
    keyword_append .create [] (List.forall_mem_nil _) fun c head => Option.some.inj head ▸ rfl
  have node := nodePattern_append variableName label [] read (by simp)
  rw [List.append_nil] at node
  have noPath : segment [] = none := starts_segment [] (by simp)
  have noMore : many (do mark ","; nodePattern) [] = some ([], []) := many_of_none rfl
  have listed : commaSeparated nodePattern (' ' :: nodeText variableName label text) =
      some ([⟨some variableName.text, some label.text, properties⟩], []) := by
    rw [commaSeparated, bind_of_some node, bind_of_some noMore]
    rfl
  have ended : statementEnd [] = some ((), []) :=
    @statementEnd_of_spaced false _ (.done [] (List.forall_mem_nil _))
  have created : ((do
      let start ← nodePattern
      let segment ← segment
      pure (Creation.path start segment)) <|> Creation.nodes <$> commaSeparated nodePattern :
        Scanner Creation) (' ' :: nodeText variableName label text) =
      some (.nodes [⟨some variableName.text, some label.text, properties⟩], []) := by
    rw [orElse_apply, bind_of_some node, bind_of_none noPath, map_apply, listed]
    rfl
  rw [run?, creation, bind_of_some begun, bind_of_some created, bind_of_some ended]
  rfl

/-- What is returned is written without quotes. -/
theorem Name.unquoted (written : Name) : '"' ∉ written.chars ∧ '\'' ∉ written.chars := by
  constructor <;> exact fun member => absurd (Name.isNameChar_of_mem member) (by decide)

theorem spaced_returned (returned : Name) :
    Spaced ([.keyword .returned, .name returned] ++ semicolonTokens false)
      (" RETURN ".toList ++ returned.chars) := by
  have space : ∀ c ∈ [' '], isSpace c := by simp [isSpace]
  have last : Spaced [.name returned] ([' '] ++ (returned.chars ++ [])) :=
    .token [' '] (.name returned) space (by simp) (.done [] (List.forall_mem_nil _))
  rw [List.append_nil] at last
  refine .token [' '] (.keyword .returned) space (fun _ c head => ?_) last
  exact Option.some.inj head ▸ rfl

theorem matchStatement_nodeText (returned : Name)
    (read : wholePropertyList.run? text = some properties) :
    matchStatement.run? ("MATCH".toList ++ ' ' :: (nodeText variableName label text ++
        (" RETURN ".toList ++ returned.chars))) =
      some ⟨⟨⟨some variableName.text, some label.text, properties⟩, none⟩, none,
        [returned.text]⟩ := by
  have clause := spaced_returned returned
  have visible : ∀ c ∈ ((" RETURN ".toList ++ returned.chars).dropWhile isSpace).head?, c = 'R' :=
    fun c head => (Option.some.inj head).symm
  have unquoted : '"' ∉ " RETURN ".toList ++ returned.chars ∧
      '\'' ∉ " RETURN ".toList ++ returned.chars := by
    simp [returned.unquoted]
  generalize " RETURN ".toList ++ returned.chars = after at clause visible unquoted ⊢
  have begun : keyword "MATCH"
      ("MATCH".toList ++ ' ' :: (nodeText variableName label text ++ after)) =
      some ((), ' ' :: (nodeText variableName label text ++ after)) :=
    keyword_append .matching [] (List.forall_mem_nil _) fun c head =>
      Option.some.inj head ▸ rfl
  have node := nodePattern_append variableName label after read unquoted
  have noSegment : (optional segment) after = some (none, after) := by
    rw [optional_apply, starts_segment after fun c head => visible c head ▸ rfl]
  have noCondition : (optional whereClause) after = some (none, after) := by
    rw [optional_apply, starts_whereClause after fun c head => visible c head ▸ rfl]
  have ended := (reads_returnClause returned []).toEnd rfl clause fun names =>
    (⟨⟨⟨some variableName.text, some label.text, properties⟩, none⟩, none, names⟩ : RawMatch)
  have path : pathPattern (' ' :: (nodeText variableName label text ++ after)) =
      some (⟨⟨some variableName.text, some label.text, properties⟩, none⟩, after) := by
    rw [pathPattern, bind_of_some node, bind_of_some noSegment]
    rfl
  rw [run?, matchStatement, bind_of_some begun, bind_of_some path, bind_of_some noCondition]
  exact congrArg (Option.map Prod.fst) ended

/-- Whether the part of a statement in front of its variable and the part behind its list leave
nothing to trim. -/
theorem trim_nodeText (front back list : List Char)
    (first : ∀ c ∈ front.head?, Text.isBlank c = false) (nonempty : front ≠ [])
    (last : ∀ c ∈ back.getLast?, Text.isBlank c = false) :
    Text.trim (front ++ ' ' :: (nodeText variableName label list ++ back)) =
      front ++ ' ' :: (nodeText variableName label list ++ back) := by
  apply Text.strip_eq_self
  · rwa [List.head?_append_of_ne_nil _ nonempty]
  · intro c ends
    have shape : front ++ ' ' :: (nodeText variableName label list ++ back) =
        (front ++ ' ' :: '(' :: (variableName.chars ++ ':' :: (label.chars ++ ' ' :: '\x7b' ::
          (list ++ ['\x7d'])))) ++ ([')'] ++ back) := by
      simp [nodeText]
    rw [shape, List.getLast?_append, List.getLast?_append, Option.mem_def] at ends
    cases final : back.getLast? with
    | none =>
        rw [final] at ends
        exact Option.some.inj ends ▸ rfl
    | some other =>
        rw [final] at ends
        exact last c (final.trans ends)

/-- A text that is read as a property list of its own is read with the same properties, in the same
order, between the braces of a created and of a matched node. -/
theorem parse_around_properties {text : String} {properties : Properties}
    (read : parseProperties text = .ok properties) :
    parse ("CREATE (" ++ variableName.text ++ ":" ++ label.text ++ " \x7b" ++ text ++ "\x7d)") =
      .ok (.createNodes [⟨label.text, properties⟩]) ∧
    parse ("MATCH (" ++ variableName.text ++ ":" ++ label.text ++ " \x7b" ++ text ++
        "\x7d) RETURN " ++ variableName.text) =
      .ok (.matching ⟨⟨⟨some variableName.text, some label.text, properties⟩, none⟩, none,
        [variableName.text]⟩) := by
  have list : wholePropertyList.run? text.toList = some properties := by
    unfold parseProperties at read
    split at read
    · next found =>
        cases read
        exact found
    · cases read
  have chars (name : Name) : name.text.toList = name.chars := String.toList_ofList
  constructor
  · generalize shape : "CREATE (" ++ variableName.text ++ ":" ++ label.text ++ " \x7b" ++ text ++
        "\x7d)" = source
    have written : source.toList =
        "CREATE".toList ++ ' ' :: (nodeText variableName label text.toList ++ []) := by
      simp [← shape, nodeText, chars]
    have trimmed : Text.trim source.toList =
        "CREATE".toList ++ ' ' :: nodeText variableName label text.toList := by
      have kept := trim_nodeText variableName label "CREATE".toList [] text.toList
        (fun c head => Option.some.inj head ▸ rfl) (by decide) (by simp)
      rw [written, kept, List.append_nil]
    have starts := startsWith_append "CREATE".toList
      (' ' :: nodeText variableName label text.toList)
    have noIndex : Text.startsWith "INDEX".toList ((("CREATE".toList ++ ' ' ::
        nodeText variableName label text.toList).drop 6).dropWhile Text.isBlank) = false := rfl
    simp only [parse, trimmed, starts, noIndex, if_true, Bool.false_eq_true, if_false, parseCreate,
      creation_nodeText variableName label list]
    rfl
  · generalize shape : "MATCH (" ++ variableName.text ++ ":" ++ label.text ++ " \x7b" ++ text ++
        "\x7d) RETURN " ++ variableName.text = source
    have written : source.toList = "MATCH".toList ++ ' ' ::
        (nodeText variableName label text.toList ++ (" RETURN ".toList ++ variableName.chars)) := by
      simp [← shape, nodeText, chars]
    have visible : ∀ c ∈ (" RETURN ".toList ++ variableName.chars).getLast?,
        Text.isBlank c = false := by
      intro c ends
      have last : c ∈ variableName.chars.getLast? := by
        simpa [Name.chars, List.getLast?_append] using ends
      exact isBlank_eq_false_of_isNameChar
        (Name.isNameChar_of_mem (List.mem_of_mem_getLast? last))
    have trimmed : Text.trim source.toList = "MATCH".toList ++ ' ' ::
        (nodeText variableName label text.toList ++ (" RETURN ".toList ++ variableName.chars)) := by
      rw [written]
      exact trim_nodeText variableName label _ _ _ (fun c head => Option.some.inj head ▸ rfl)
        (by decide) visible
    rw [parse_eq_parseMatch trimmed, parseMatch, trimmed,
      matchStatement_nodeText variableName label variableName list]
    rfl

/-- A list with a comma, a brace and an apostrophe inside quotes, a quoted key, and at its end an
apostrophe that opens a quote and is never followed by another. -/
theorem parse_around_unclosed_quote :
    let text := "'a b' : \"x's, \x7dy\" ,\tc:'it:d "
    let properties := Properties.ofList [("a b", .text "x's, \x7dy"), ("c", .text "it:d")]
    parseProperties text = .ok properties ∧
      parse ("CREATE (n:L \x7b" ++ text ++ "\x7d)") = .ok (.createNodes [⟨"L", properties⟩]) ∧
      parse ("MATCH (n:L \x7b" ++ text ++ "\x7d) RETURN n") =
        .ok (.matching ⟨⟨⟨some "n", some "L", properties⟩, none⟩, none, ["n"]⟩) := by
  intro text properties
  have read : parseProperties text = .ok properties := by decide +kernel
  exact ⟨read, parse_around_properties ⟨'n', [], rfl, List.forall_mem_nil _⟩
    ⟨'L', [], rfl, List.forall_mem_nil _⟩ read⟩

end Query
end GraphStore
