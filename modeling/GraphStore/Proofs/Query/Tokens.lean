import GraphStore.Query.Parser

/-!
# Tokens

The tokens of which statements are written, and how they are set apart.  Blanks may stand before
every token and at the end.  They are needed only where the next character would otherwise be read
as part of a word.
-/

namespace GraphStore
namespace Query

/-- A punctuation mark. -/
inductive Mark where
  | leftParenthesis
  | rightParenthesis
  | leftBracket
  | rightBracket
  | leftBrace
  | rightBrace
  | colon
  | comma
  | point
  | semicolon
  | dash
  | leftArrow
  | rightArrow

/-- The written form of a mark. -/
def Mark.text : Mark → String
  | leftParenthesis => "("
  | rightParenthesis => ")"
  | leftBracket => "["
  | rightBracket => "]"
  | leftBrace => "\x7b"
  | rightBrace => "\x7d"
  | colon => ":"
  | comma => ","
  | point => "."
  | semicolon => ";"
  | dash => "-"
  | leftArrow => "<-"
  | rightArrow => "->"

/-- A keyword. -/
inductive Keyword where
  | create
  | index
  | on
  | forEach
  | matching
  | condition
  | returned

/-- The written form of a keyword. -/
def Keyword.text : Keyword → String
  | create => "CREATE"
  | index => "INDEX"
  | on => "ON"
  | forEach => "FOR"
  | matching => "MATCH"
  | condition => "WHERE"
  | returned => "RETURN"

/-- A name: a letter or an underscore, and then letters, digits and underscores of ASCII. -/
structure Name where
  /-- The first character. -/
  first : Char
  /-- The other characters. -/
  others : List Char
  isNameStart_first : isNameStart first
  isNameChar_others : ∀ c ∈ others, isNameChar c

namespace Name

/-- The characters of a name. -/
def chars (name : Name) : List Char :=
  name.first :: name.others

/-- A name as a string. -/
def text (name : Name) : String :=
  String.ofList name.chars

end Name

/-- A text between two quotes of one kind. -/
structure Quoted where
  /-- The kind of the quotes. -/
  quote : Char
  /-- What stands between the quotes. -/
  content : List Char
  isQuote : quote = '"' ∨ quote = '\''
  not_mem_content : quote ∉ content

/-- A quoted text with its quotes. -/
def Quoted.text (quoted : Quoted) : List Char :=
  quoted.quote :: quoted.content ++ [quoted.quote]

/-- A property value without quotes: any text that is not blank and that holds no quote, no comma
and no closing brace. -/
structure Bare where
  /-- The text. -/
  text : List Char
  not_blank : ∃ c ∈ text, isSpace c = false
  isPlain : ∀ c ∈ text, c ∉ ['"', '\'', ',', '\x7d']

/-- A number: digits with an optional minus before and an optional fraction after them. -/
structure Number where
  /-- Whether there is a minus. -/
  isNegative : Bool
  /-- The digits before the point. -/
  whole : List Char
  /-- The digits after the point, if there is one. -/
  fraction : Option (List Char)
  whole_ne_nil : whole ≠ []
  isDigit_whole : ∀ c ∈ whole, c.isDigit
  fraction_ne_nil : ∀ digits ∈ fraction, digits ≠ []
  isDigit_fraction : ∀ digits ∈ fraction, ∀ c ∈ digits, c.isDigit

/-- The written form of a number. -/
def Number.text (number : Number) : List Char :=
  (if number.isNegative then ['-'] else []) ++ number.whole ++
    (match number.fraction with | some digits => '.' :: digits | none => [])

/-- A truth value in one of its three spellings. -/
inductive Truth where
  | lower (value : Bool)
  | upper (value : Bool)
  | capital (value : Bool)

/-- The written form of a truth value. -/
def Truth.text : Truth → String
  | lower value => if value then "true" else "false"
  | upper value => if value then "TRUE" else "FALSE"
  | capital value => if value then "True" else "False"

/-- A token of a statement. -/
inductive Token where
  | mark (punctuation : Mark)
  | keyword (word : Keyword)
  | name (written : Name)
  | quoted (written : Quoted)
  | bare (written : Bare)
  | operator (operation : Operator)
  | number (written : Number)
  | truth (written : Truth)

namespace Token

/-- The written form of a token. -/
def text : Token → List Char
  | .mark punctuation => punctuation.text.toList
  | .keyword word => word.text.toList
  | .name written => written.chars
  | .quoted written => written.text
  | .bare written => written.text
  | .operator operation => operation.symbol.toList
  | .number written => written.text
  | .truth written => written.text.toList

/-- Whether a letter, a digit or an underscore that follows a token would belong to it. -/
def isWord : Token → Bool
  | .keyword _ | .name _ | .truth _ => true
  | .mark _ | .quoted _ | .bare _ | .operator _ | .number _ => false

theorem text_ne_nil (token : Token) : token.text ≠ [] := by
  cases token with
  | mark punctuation => cases punctuation <;> decide
  | keyword word => cases word <;> decide
  | name written => exact List.cons_ne_nil _ _
  | quoted written => exact List.cons_ne_nil _ _
  | bare written =>
      obtain ⟨c, member, -⟩ := written.not_blank
      exact List.ne_nil_of_mem member
  | operator operation => cases operation <;> decide
  | number written => simp [text, Number.text, written.whole_ne_nil]
  | truth written => cases written with | _ value => cases value <;> decide

theorem head?_text_append (token : Token) (after : List Char) :
    (token.text ++ after).head? = token.text.head? := by
  cases shape : token.text with
  | nil => exact absurd shape token.text_ne_nil
  | cons first others => rfl

theorem getLast?_append_text (token : Token) (before : List Char) :
    (before ++ token.text).getLast? = token.text.getLast? := by
  rw [List.getLast?_append, Option.or_of_isSome]
  exact List.getLast?_isSome.2 token.text_ne_nil

end Token

/-- The character with which a list of tokens begins. -/
def firstOf (tokens : List Token) : Option Char :=
  tokens.head?.bind fun token => token.text.head?

/-- The character with which a list of tokens ends. -/
def lastOf (tokens : List Token) : Option Char :=
  tokens.getLast?.bind fun token => token.text.getLast?

/-- A text writes tokens: one after the other, with blanks before each and at the end, and so that
no word runs on into what follows it. -/
inductive Spaced : List Token → List Char → Prop where
  | done (gap : List Char) : (∀ c ∈ gap, isSpace c) → Spaced [] gap
  | token (gap : List Char) (token : Token) {tokens : List Token} {text : List Char} :
      (∀ c ∈ gap, isSpace c) → (token.isWord → ∀ c ∈ text.head?, isNameChar c = false) →
      Spaced tokens text → Spaced (token :: tokens) (gap ++ (token.text ++ text))

/-- Whether a text is blanks, a token and then something with a property. -/
def writesToken (token : Token) (goesOn : List Char → Bool) : List Char → Bool
  | [] => false
  | c :: rest =>
    (token.text.isPrefixOf (c :: rest) &&
        !(token.isWord && (((c :: rest).drop token.text.length).head?.any isNameChar)) &&
        goesOn ((c :: rest).drop token.text.length)) ||
      (isSpace c && writesToken token goesOn rest)

/-- Whether a text writes tokens. -/
def isSpaced : List Token → List Char → Bool
  | [], text => text.all isSpace
  | token :: tokens, text => writesToken token (isSpaced tokens) text

theorem isBlank_of_isSpace {c : Char} (space : isSpace c) : Text.isBlank c := by
  simp only [isSpace, Bool.or_eq_true, beq_iff_eq] at space
  rcases space with ((rfl | rfl) | rfl) | rfl <;> decide

theorem isSpace_eq_false_of_isNameChar {c : Char} (char : isNameChar c) : isSpace c = false := by
  refine Bool.eq_false_iff.2 fun space => ?_
  simp only [isSpace, Bool.or_eq_true, beq_iff_eq] at space
  rcases space with ((rfl | rfl) | rfl) | rfl <;> exact absurd char (by decide)

theorem isNameChar_of_isNameStart {c : Char} (start : isNameStart c) : isNameChar c := by
  simp only [isNameStart, isNameChar, Char.isAlphanum, Bool.or_eq_true] at start ⊢
  rcases start with letter | underscore
  · exact .inl (.inl letter)
  · exact .inr underscore

theorem Name.isNameChar_of_mem {name : Name} {c : Char} (member : c ∈ name.chars) :
    isNameChar c := by
  rcases List.mem_cons.1 member with rfl | member
  · exact isNameChar_of_isNameStart name.isNameStart_first
  · exact name.isNameChar_others c member

theorem firstOf_cons (token : Token) (tokens : List Token) :
    firstOf (token :: tokens) = token.text.head? :=
  rfl

theorem dropWhile_append_of_all {drop : Char → Bool} {gap text : List Char}
    (blank : ∀ c ∈ gap, drop c) (kept : ∀ c ∈ text.head?, drop c = false) :
    (gap ++ text).dropWhile drop = text := by
  rw [List.dropWhile_append_of_pos blank]
  cases text with
  | nil => rfl
  | cons c rest => exact List.dropWhile_cons_of_neg (by simp [kept c rfl])

theorem dropWhile_eq_nil_of_all {drop : Char → Bool} {text : List Char}
    (blank : ∀ c ∈ text, drop c) : text.dropWhile drop = [] := by
  have dropped : (text ++ []).dropWhile drop = [] := dropWhile_append_of_all blank (by simp)
  rwa [List.append_nil] at dropped

namespace Spaced

variable {tokens : List Token} {text : List Char}

/-- The parts of a text that begins with a token. -/
theorem parts {token : Token} (spaced : Spaced (token :: tokens) text) :
    ∃ gap after, text = gap ++ (token.text ++ after) ∧ (∀ c ∈ gap, isSpace c) ∧
      (token.isWord → ∀ c ∈ after.head?, isNameChar c = false) ∧ Spaced tokens after := by
  cases spaced with
  | token gap _ blank apart rest => exact ⟨gap, _, rfl, blank, apart, rest⟩

/-- A text begins with a blank or with the first character of its tokens. -/
theorem head?_cases (spaced : Spaced tokens text) {c : Char} (head : text.head? = some c) :
    isSpace c ∨ firstOf tokens = some c := by
  cases spaced with
  | done gap blank => exact .inl (blank c (List.mem_of_mem_head? head))
  | token gap token blank apart rest =>
      cases gap with
      | nil =>
          rw [List.nil_append, Token.head?_text_append] at head
          exact .inr head
      | cons first others =>
          obtain rfl : first = c := by simpa using head
          exact .inl (blank first List.mem_cons_self)

/-- Without the blanks in front, a text begins like its tokens. -/
theorem head?_dropWhile (spaced : Spaced tokens text)
    (visible : ∀ c ∈ firstOf tokens, isSpace c = false) :
    (text.dropWhile isSpace).head? = firstOf tokens := by
  cases spaced with
  | done gap blank =>
      rw [dropWhile_eq_nil_of_all blank]
      rfl
  | token gap token blank apart rest =>
      have first := token.head?_text_append
      rw [dropWhile_append_of_all blank (by rwa [first]), first]
      rfl

/-- The blanks in front of a text can be cut off. -/
theorem exists_uncovered (spaced : Spaced tokens text) :
    ∃ gap after, text = gap ++ after ∧ (∀ c ∈ gap, isSpace c) ∧ Spaced tokens after ∧
      after.head? = firstOf tokens := by
  cases spaced with
  | done gap blank =>
      exact ⟨text, [], (List.append_nil text).symm, blank, .done [] (by simp), rfl⟩
  | token gap token blank apart rest =>
      exact ⟨gap, _, rfl, blank, .token [] token (by simp) apart rest, token.head?_text_append _⟩

/-- The blanks at the end of a text can be cut off. -/
theorem exists_core (spaced : Spaced tokens text) :
    ∃ core gap, text = core ++ gap ∧ (∀ c ∈ gap, isSpace c) ∧ Spaced tokens core ∧
      core.getLast? = lastOf tokens := by
  induction spaced with
  | done gap blank => exact ⟨[], gap, rfl, blank, .done [] (by simp), rfl⟩
  | @token gap token tokens text blank apart rest ih =>
      obtain ⟨core, final, rfl, blankFinal, spaced, ends⟩ := ih
      have apartCore : token.isWord → ∀ c ∈ core.head?, isNameChar c = false := by
        intro word c head
        exact apart word c (by rw [List.head?_append, head]; rfl)
      refine ⟨gap ++ (token.text ++ core), final, by simp, blankFinal,
        .token gap token blank apartCore spaced, ?_⟩
      cases tokens with
      | nil =>
          obtain rfl : core = [] := List.getLast?_eq_none_iff.1 ends
          rw [List.append_nil, Token.getLast?_append_text]
          rfl
      | cons next others =>
          have nonempty : (lastOf (next :: others)).isSome := by
            rw [lastOf, List.getLast?_eq_some_getLast (List.cons_ne_nil next others)]
            exact List.getLast?_isSome.2 (Token.text_ne_nil _)
          rw [← List.append_assoc, List.getLast?_append, ends, Option.or_of_isSome nonempty]
          rfl

/-- A text that begins and ends with something visible is still written by its tokens when it is
trimmed, and then begins with the first of them. -/
theorem trim {token : Token} (spaced : Spaced (token :: tokens) text)
    (first : ∀ c ∈ token.text.head?, Text.isBlank c = false)
    (final : ∀ c ∈ lastOf (token :: tokens), Text.isBlank c = false) :
    ∃ after, Text.trim text = token.text ++ after ∧
      (token.isWord → ∀ c ∈ after.head?, isNameChar c = false) ∧ Spaced tokens after := by
  obtain ⟨core, last, rfl, blankLast, spaced, ends⟩ := spaced.exists_core
  obtain ⟨gap, after, rfl, blank, apart, rest⟩ := spaced.parts
  have visible : ∀ suffix, ∀ c ∈ (token.text ++ suffix).head?, Text.isBlank c = false := by
    intro suffix
    rwa [Token.head?_text_append]
  have reversed : (token.text ++ after).reverse.head? = lastOf (token :: tokens) := by
    have nonempty := List.append_ne_nil_of_left_ne_nil token.text_ne_nil after
    have behind : (gap ++ (token.text ++ after)).getLast? = (token.text ++ after).getLast? := by
      rw [List.getLast?_append, Option.or_of_isSome (List.getLast?_isSome.2 nonempty)]
    rw [List.head?_reverse, ← ends, behind]
  have left : (gap ++ (token.text ++ after) ++ last).dropWhile Text.isBlank =
      token.text ++ after ++ last := by
    rw [List.append_assoc, List.append_assoc]
    exact dropWhile_append_of_all (fun c member => isBlank_of_isSpace (blank c member)) (visible _)
  have right : (last.reverse ++ (token.text ++ after).reverse).dropWhile Text.isBlank =
      (token.text ++ after).reverse :=
    dropWhile_append_of_all
      (fun c member => isBlank_of_isSpace (blankLast c (List.mem_reverse.1 member)))
      (by rwa [reversed])
  refine ⟨after, ?_, apart, rest⟩
  rw [Text.trim, Text.strip, left, List.reverse_append, right, List.reverse_reverse]

theorem blank_cons {token : Token} {c : Char} (space : isSpace c)
    (spaced : Spaced (token :: tokens) text) : Spaced (token :: tokens) (c :: text) := by
  obtain ⟨gap, after, rfl, blank, apart, rest⟩ := spaced.parts
  exact .token (c :: gap) token (List.forall_mem_cons.2 ⟨space, blank⟩) apart rest

theorem of_writesToken {token : Token} {goesOn : List Char → Bool}
    (spaced : ∀ {after}, goesOn after → Spaced tokens after)
    (writes : writesToken token goesOn text) :
    Spaced (token :: tokens) text := by
  induction text with
  | nil => exact absurd writes (by simp [writesToken])
  | cons c rest ih =>
      rw [writesToken, Bool.or_eq_true, Bool.and_eq_true, Bool.and_eq_true, Bool.and_eq_true]
        at writes
      rcases writes with ⟨⟨starts, apart⟩, more⟩ | ⟨space, more⟩
      · obtain ⟨after, shape⟩ := List.isPrefixOf_iff_prefix.1 starts
        rw [← shape, List.drop_left] at apart more
        rw [← shape]
        refine .token [] token nofun (fun word c head => ?_) (spaced more)
        rw [word, Option.mem_def.1 head] at apart
        simpa using apart
      · exact (ih more).blank_cons space

theorem writesToken_of_parts {token : Token} {goesOn : List Char → Bool} {gap after : List Char}
    (blank : ∀ c ∈ gap, isSpace c)
    (apart : token.isWord → ∀ c ∈ after.head?, isNameChar c = false) (more : goesOn after) :
    writesToken token goesOn (gap ++ (token.text ++ after)) := by
  induction gap with
  | nil =>
      have separate : (!(token.isWord && after.head?.any isNameChar)) = true := by
        cases word : token.isWord with
        | false => rfl
        | true =>
            cases head : after.head? with
            | none => rfl
            | some c => simp [apart word c head]
      cases shape : token.text with
      | nil => exact absurd shape token.text_ne_nil
      | cons first others => simp [writesToken, shape, separate, more]
  | cons c gap ih =>
      rw [List.cons_append, writesToken, blank c List.mem_cons_self,
        ih fun other member => blank other (List.mem_cons_of_mem c member)]
      exact Bool.or_true _

theorem isSpaced_iff : ∀ {tokens : List Token} {text : List Char},
    isSpaced tokens text ↔ Spaced tokens text
  | [], text => by
      refine ⟨fun blank => .done text (List.all_eq_true.1 blank), fun spaced => ?_⟩
      cases spaced with
      | done gap blank => exact List.all_eq_true.2 blank
  | first :: tokens, text => by
      refine ⟨of_writesToken fun more => isSpaced_iff.1 more, fun spaced => ?_⟩
      obtain ⟨gap, after, rfl, blank, apart, rest⟩ := spaced.parts
      exact writesToken_of_parts blank apart (isSpaced_iff.2 rest)

instance (tokens : List Token) (text : List Char) : Decidable (Spaced tokens text) :=
  decidable_of_iff _ isSpaced_iff

end Spaced
end Query
end GraphStore
