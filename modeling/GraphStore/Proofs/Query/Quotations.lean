import GraphStore.Proofs.Query.Additions
import GraphStore.Proofs.Query.Comparisons

/-!
# Quoted texts

Quotes are removed before a literal is typed.  So a quoted text is kept if it writes neither a truth
value nor a number, and what it writes otherwise has its own key text.  A node that was created for a
quoted text has the key text of the quotation, so it does not stand for another one.
-/

namespace GraphStore

namespace Text

variable {text : List Char}

theorem mem_of_mem_strip {drop : Char → Bool} {c : Char} (member : c ∈ strip drop text) :
    c ∈ text := by
  have first := (List.dropWhile_sublist drop).mem (List.mem_reverse.1 member)
  exact (List.dropWhile_sublist drop).mem (List.mem_reverse.1 first)

/-- Whether a text writes neither a truth value, in any case, nor, trimmed, a double with a point or
an integer of 64 bits without one. -/
def isPlain (text : List Char) : Bool :=
  !equalsIgnoringCase text "true".toList && !equalsIgnoringCase text "false".toList &&
    if '.' ∈ trim text then (Double.ofText? (trim text)).isNone else (int64? (trim text)).isNone

end Text

namespace Value

variable {text : List Char} {value : Value}

/-- A plain text is itself, and every other one a truth value, a number with a point among its
characters, or an integer. -/
theorem ofBare_cases (text : List Char) :
    (Text.isPlain text ∧ ofBare text = .text (String.ofList text)) ∨
      (¬Text.isPlain text ∧ ((∃ truth, ofBare text = boolean truth) ∨
        (∃ number, ofBare text = integer number) ∨
          ∃ number, ofBare text = double number ∧ '.' ∈ text)) := by
  unfold Text.isPlain ofBare
  cases Text.equalsIgnoringCase text "true".toList
  · cases Text.equalsIgnoringCase text "false".toList
    · by_cases point : '.' ∈ Text.trim text
      · cases Double.ofText? (Text.trim text) with
        | none => simp [point]
        | some number => simp [point, Text.mem_of_mem_strip point]
      · cases Text.int64? (Text.trim text) <;> simp [point]
    · simp
  · simp

theorem ofBare_of_isPlain (plain : Text.isPlain text) :
    ofBare text = .text (String.ofList text) := by
  rcases ofBare_cases text with ⟨-, read⟩ | ⟨other, -⟩
  · exact read
  · exact absurd plain other

theorem ofBare_ne_text (other : ¬Text.isPlain text) (written : String) :
    ofBare text ≠ .text written := by
  rcases ofBare_cases text with ⟨plain, -⟩ | ⟨-, ⟨_, read⟩ | ⟨_, read⟩ | ⟨_, read, -⟩⟩
  · exact absurd plain other
  all_goals exact read ▸ nofun

/-- The key texts with a point are those of finite doubles that are not vast. -/
theorem point_not_mem_keyText {number : Double} (special : ¬number.isFinite ∨ number.isVast) :
    '.' ∉ (double number).keyText.toList := by
  cases number with
  | nan => decide
  | signed negative place =>
      by_cases finite : place.val < Double.infinityPlace
      · rcases special with infinite | vast
        · exact absurd (decide_eq_true finite) infinite
        · rw [Double.point_mem_keyText_iff negative finite, not_lt]
          exact (Double.isVast_signed_iff negative finite).1 vast
      · rw [keyText, Layout.text, if_neg finite]
        cases negative <;> decide

/-- The key text of what a text writes is the text itself if the text is plain or the key text of a
truth value, an integer or a double with a point in its key text. -/
theorem keyText_ofBare_iff (text : List Char) : (ofBare text).keyText = String.ofList text ↔
    Text.isPlain text ∨
      ∃ value : Value, value.isTyped ∧ ¬value.isVast ∧ value.keyText = String.ofList text := by
  constructor
  · intro same
    rcases ofBare_cases text with
      ⟨plain, -⟩ | ⟨-, ⟨truth, read⟩ | ⟨number, read⟩ | ⟨number, read, point⟩⟩
    · exact .inl plain
    · exact .inr ⟨_, read ▸ rfl, read ▸ Bool.false_ne_true, same⟩
    · exact .inr ⟨_, read ▸ rfl, read ▸ Bool.false_ne_true, same⟩
    · have kept := @point_not_mem_keyText number
      rw [read] at same
      rw [same, String.toList_ofList] at kept
      have ordinary := mt kept (not_not_intro point)
      simp only [not_or, not_not] at ordinary
      exact .inr ⟨double number, ordinary.1, ordinary.2, same⟩
  · rintro (plain | ⟨value, typed, small, same⟩)
    · rw [ofBare_of_isPlain plain]
      rfl
    · have read := (ofBare_keyText_iff typed).2 small
      rw [same, String.toList_ofList] at read
      rw [read, same]

/-- Only doubles that have no point in their key texts share a plain key text with it. -/
theorem eq_text_or_double_of_plain (plain : Text.isPlain text)
    (same : value.keyText = String.ofList text) : value = .text (String.ofList text) ∨
      ∃ number, value = double number ∧ (¬number.isFinite ∨ number.isVast) := by
  have ordinary (typed : value.isTyped) (small : ¬value.isVast) :
      value = .text (String.ofList text) := by
    have own := (ofBare_keyText_iff typed).2 small
    rw [same, String.toList_ofList, ofBare_of_isPlain plain] at own
    exact own.symm
  cases value with
  | boolean | integer => exact .inl (ordinary rfl Bool.false_ne_true)
  | double number =>
      by_cases special : ¬number.isFinite ∨ number.isVast
      · exact .inr ⟨number, rfl, special⟩
      · rw [not_or, not_not] at special
        exact .inl (ordinary special.1 special.2)
  | text written => exact .inl (congrArg Value.text same)

end Value

namespace Query

/-! ## Quotations -/

/-- A text that is put in double quotes. -/
structure Quotation where
  /-- The text. -/
  content : List Char
  not_mem_content : '"' ∉ content

namespace Quotation

variable (quotation : Quotation)

/-- The text as a string. -/
def text : String :=
  String.ofList quotation.content

/-- The text with its quotes. -/
def quoted : Quoted :=
  ⟨'"', quotation.content, .inl rfl, quotation.not_mem_content⟩

/-- The literal that a quotation is. -/
def literal : Literal :=
  .quoted quotation.quoted

/-- Whether the text has no apostrophe at either end, where it would be removed with the quotes. -/
def isBounded : Prop :=
  '\'' ∉ quotation.content.head? ∧ '\'' ∉ quotation.content.getLast?

/-- Whether the text writes neither a truth value nor a number. -/
def isPlain : Bool :=
  Text.isPlain quotation.content

/-- The two quotes are removed and nothing else. -/
theorem value_literal (bounded : quotation.isBounded) :
    quotation.literal.value = Value.ofBare quotation.content := by
  have quote : ∀ c ∈ ['"'], (c == '"') = true := by simp
  have inside : ∀ c ∈ quotation.content, (c == '"') = false := fun c member =>
    beq_eq_false_iff_ne.2 fun same => quotation.not_mem_content (same ▸ member)
  have trimmed : Text.trim ('"' :: (quotation.content ++ ['"'])) =
      '"' :: (quotation.content ++ ['"']) := by
    apply Text.strip_eq_self
    · exact fun c head => Option.some.inj head ▸ rfl
    · intro c last
      rw [← List.cons_append, List.getLast?_concat] at last
      exact Option.some.inj last ▸ rfl
  have bare : Text.strip (· == '"') ('"' :: (quotation.content ++ ['"'])) = quotation.content := by
    have left := Text.strip_append_left (quotation.content ++ ['"']) quote
    rw [List.singleton_append] at left
    rw [left, Text.strip_append_right _ quote]
    apply Text.strip_eq_self
    · exact fun c head => inside c (List.mem_of_mem_head? head)
    · exact fun c last => inside c (List.mem_of_mem_getLast? last)
  have kept : Text.strip (· == '\'') quotation.content = quotation.content := by
    apply Text.strip_eq_self
    · exact fun c head => beq_eq_false_iff_ne.2 fun same => bounded.1 (same ▸ head)
    · exact fun c last => beq_eq_false_iff_ne.2 fun same => bounded.2 (same ▸ last)
  change Value.ofLiteral ('"' :: (quotation.content ++ ['"'])) = _
  rw [Value.ofLiteral_eq_ofBare, trimmed, bare, kept]

/-- The node that is asked for by a label and a quoted property. -/
def newNode (label property : Name) : NewNode :=
  ⟨label.text, .ofWritten [(property.text, quotation.literal.value)]⟩

/-- The creation of such a node. -/
def creation (variableName label property : Name) : Written :=
  .nodes ⟨some variableName, label, some [⟨.name property, .quoted quotation.quoted⟩]⟩ []

theorem get?_newNode (label property : Name) :
    (quotation.newNode label property).properties.get? property.text =
      some quotation.literal.value := by
  simp [newNode, Properties.ofWritten, Properties.get?]

end Quotation

namespace Executor

/-- Whether no node stands for both of two new ones, whatever nodes are stored. -/
def StandApart (first second : NewNode) : Prop :=
  ∀ ⦃nodes others node added more number otherNumber⦄, Stands nodes first number node added →
    ¬Stands others second otherNumber node more

theorem standApart_of_keyText_ne {first second : NewNode} {key : String} {value other : Value}
    (asks : first.properties.get? key = some value)
    (asksOther : second.properties.get? key = some other) (differ : value.keyText ≠ other.keyText) :
    StandApart first second := by
  intro nodes others node added more number otherNumber stands standsOther
  obtain ⟨actual, found, same⟩ := stands.exists_get? asks
  obtain ⟨again, foundAgain, sameOther⟩ := standsOther.exists_get? asksOther
  cases found.symm.trans foundAgain
  exact differ ((beq_iff_eq.1 same).symm.trans (beq_iff_eq.1 sameOther))

/-- A creation of one node that succeeds answers with it if it was added. -/
theorem stands_of_createNodes {executor : Executor} {store after : Store} {nodes : List Node}
    (nodesLoad : store.nodes executor.directory = .ok nodes) {pattern : NewNode} {answer : Answer}
    (succeeds : (executor.createNodes [pattern]).runWith Store.perform store =
      (.ok answer, after)) :
    ∃ node added, Stands nodes pattern store.nextNumber node added ∧
      answer = ⟨"Node(s) created", added, []⟩ := by
  rcases executor.runWith_createNodes store [pattern] with
    ⟨loaded, added, loads, grows, ran⟩ | ⟨-, error, other, ran, -⟩
  · cases nodesLoad.symm.trans loads
    cases grows with
    | @cons _ first others _ _ _ node stands grows =>
        cases grows
        rw [List.append_nil] at ran
        refine ⟨node, first, stands, ?_⟩
        exact Except.ok.inj (Prod.mk.inj (succeeds.symm.trans ran)).1
  · cases succeeds.symm.trans ran

/-- A text in double quotes, without apostrophes at its ends, is the key text of its literal exactly
if it writes neither a truth value nor a number or is the key text of one.  A plain text is then the
value itself, which shares its key text only with doubles that have no point in theirs.  New nodes
that quote texts with different key texts for one property are never the same node.  In statements, a
created node has the key text of the quotation, and a match without index finds the nodes that have
it and no others. -/
theorem quotation_keeps_text (quotation : Quotation) (executor : Executor) {world : World}
    {place : List String} (leads : world.disk.LeadsTo executor.directory place) {nodes : List Node}
    (nodesLoad : world.nodes executor.directory = .ok nodes) {variableName label property : Name}
    {creationSource matchSource : String} {first second : Bool}
    (writesCreation : Spaced ((quotation.creation variableName label property).tokens ++
      semicolonTokens first) creationSource.toList)
    (writesMatch : Spaced ((WrittenMatch.byProperty variableName label property
      quotation.literal).tokens ++ semicolonTokens second) matchSource.toList) (useIndex : Bool) :
    (quotation.isBounded →
      (quotation.literal.value.keyText = quotation.text ↔ quotation.isPlain ∨
        ∃ value : Value, value.isTyped ∧ ¬value.isVast ∧ value.keyText = quotation.text) ∧
      (quotation.isPlain → quotation.literal.value = .text quotation.text ∧
        ∀ value : Value, value.looselyEquals quotation.literal.value →
          value = .text quotation.text ∨
            ∃ number, value = .double number ∧ (¬number.isFinite ∨ number.isVast)) ∧
      (¬quotation.isPlain → ∀ written, quotation.literal.value ≠ .text written)) ∧
    (∀ (other : Quotation) (asked otherAsked : NewNode) (key : String),
      asked.properties.get? key = some quotation.literal.value →
      otherAsked.properties.get? key = some other.literal.value →
      quotation.literal.value.keyText ≠ other.literal.value.keyText →
      StandApart asked otherAsked) ∧
    (∀ answer after, world.run (executor.execute creationSource useIndex).run =
        (.ok answer, after) →
      ∃ node added, Stands nodes (quotation.newNode label property) world.nextNumber node added ∧
        answer = ⟨"Node(s) created", added, []⟩ ∧
        ∃ actual, node.properties.get? property.text = some actual ∧
          actual.keyText = quotation.literal.value.keyText) ∧
    ∃ answer, (world.run (executor.execute matchSource false).run).1 = .ok answer ∧
      answer.nodes = nodes.filter fun node => node.hasLabel label.text &&
        (node.properties.get? property.text).any fun actual =>
          actual.keyText == quotation.literal.value.keyText := by
  refine ⟨?_, ?_, ?_, ?_⟩
  · intro bounded
    have value := quotation.value_literal bounded
    refine ⟨?_, fun plain => ?_, fun other written => ?_⟩
    · rw [value]
      exact Value.keyText_ofBare_iff quotation.content
    · have read := value.trans (Value.ofBare_of_isPlain plain)
      refine ⟨read, fun actual same => ?_⟩
      rw [read] at same
      exact Value.eq_text_or_double_of_plain plain (beq_iff_eq.1 same)
    · rw [value]
      exact Value.ofBare_ne_text other written
  · intro other asked otherAsked key asks asksOther differ
    exact standApart_of_keyText_ne asks asksOther differ
  · intro answer after succeeds
    have holds := World.holds_storeAt leads
    rw [holds.nodes_eq] at nodesLoad
    have sameAnswer := (holds.run (uses_execute creationSource useIndex)).1
    have parsed := parse_written (quotation.creation variableName label property) first
      writesCreation
    have statement : (quotation.creation variableName label property).statement =
        .createNodes [quotation.newNode label property] :=
      rfl
    rw [succeeds] at sameAnswer
    simp only [execute, parsed, statement, executeStatement, Task.runWith_run,
      Task.runWith_mapError] at sameAnswer
    obtain ⟨node, added, stands, same⟩ := stands_of_createNodes nodesLoad
      (Prod.ext (eq_ok_of_mapError sameAnswer.symm) rfl)
    obtain ⟨actual, found, equal⟩ := stands.exists_get? (quotation.get?_newNode label property)
    exact ⟨node, added, stands, same, actual, found, beq_iff_eq.1 equal⟩
  · rw [World.nodes_eq_storeAt] at nodesLoad
    rw [run_execute_matching (parse_matching _ second writesMatch), runWith_byProperty, nodesLoad]
    exact ⟨_, rfl, rfl⟩

/-- A plain text with blanks and an apostrophe inside, which a stored node already has. -/
theorem quotation_keeps_apostrophe :
    let name (first : Char) (start : isNameStart first) : Name := ⟨first, [], start, nofun⟩
    let quotation : Quotation := ⟨" it's 030 ".toList, by decide⟩
    let stored : Node := ⟨"x", ["L"], .ofList [("p", .text " it's 030 ")]⟩
    let world : World := { disk := .directory [("db", .directory [("nodes.json", .file (.text
      "[[\"x\",[\"L\"],\x7b\"p\":\" it's 030 \"\x7d]]"))])] }
    let executor : Executor := ⟨Path.ofText "db", "db", .indented, true⟩
    let creationSource := "CREATE (n:L \x7bp: \" it's 030 \"\x7d)"
    let matchSource := "MATCH (n:L \x7bp: \" it's 030 \"\x7d) RETURN n"
    Spaced ((quotation.creation (name 'n' rfl) (name 'L' rfl) (name 'p' rfl)).tokens ++
        semicolonTokens false) creationSource.toList ∧
      Spaced ((WrittenMatch.byProperty (name 'n' rfl) (name 'L' rfl) (name 'p' rfl)
        quotation.literal).tokens ++ semicolonTokens false) matchSource.toList ∧
      quotation.literal.value = .text " it's 030 " ∧
      (∃ node actual, Stands [stored] (quotation.newNode (name 'L' rfl) (name 'p' rfl)) 0 node [] ∧
        node.properties.get? "p" = some actual ∧ actual.keyText = " it's 030 ") ∧
      ∃ answer, (world.run (executor.execute matchSource false).run).1 = .ok answer ∧
        answer.nodes = [stored] := by
  intro name quotation stored world executor creationSource matchSource
  have writesCreation : Spaced ((quotation.creation (name 'n' rfl) (name 'L' rfl)
      (name 'p' rfl)).tokens ++ semicolonTokens false) creationSource.toList := by
    decide +kernel
  have writesMatch : Spaced ((WrittenMatch.byProperty (name 'n' rfl) (name 'L' rfl) (name 'p' rfl)
      quotation.literal).tokens ++ semicolonTokens false) matchSource.toList := by
    decide +kernel
  have leads : world.disk.LeadsTo executor.directory ["db"] := ⟨by decide +kernel, _, rfl⟩
  have nodesLoad : world.nodes executor.directory = .ok [stored] := by decide +kernel
  have bounded : quotation.isBounded := by constructor <;> decide
  obtain ⟨keeps, -, created, answer, ran, answers⟩ := quotation_keeps_text quotation executor leads
    nodesLoad writesCreation writesMatch false
  obtain ⟨kept, -⟩ := (keeps bounded).2.1 (by decide +kernel)
  refine ⟨writesCreation, writesMatch, kept, ?_, answer, ran, ?_⟩
  · obtain ⟨node, added, stands, same, actual, found, key⟩ :=
      created ⟨"Node(s) created", [], []⟩ _ (Prod.ext (by decide +kernel) rfl)
    obtain rfl : [] = added := congrArg Answer.nodes same
    rw [kept] at key
    exact ⟨node, actual, stands, found, key⟩
  · rw [answers]
    decide +kernel

/-- A text of digits with a zero in front is typed as an integer, so it is taken for the text
without the zero. -/
theorem quotation_loses_zero :
    let world : World := { disk := .directory [("db", .directory [])] }
    let executor : Executor := ⟨Path.ofText "db", "db", .indented, true⟩
    let first := world.run (executor.execute "CREATE (n:L \x7bp: \"030\"\x7d)" false).run
    Value.ofLiteral "\"030\"".toList = .integer 30 ∧
      (Value.ofLiteral "\"030\"".toList).keyText = "30" ∧
      first.1 = .ok ⟨"Node(s) created",
        [⟨Identifier.ofNumber 0, ["L"], .ofList [("p", .integer 30)]⟩], []⟩ ∧
      (first.2.run (executor.execute "CREATE (n:L \x7bp: \"30\"\x7d)" false).run).1 =
        .ok ⟨"Node(s) created", [], []⟩ := by
  decide +kernel

end Executor
end Query
end GraphStore
