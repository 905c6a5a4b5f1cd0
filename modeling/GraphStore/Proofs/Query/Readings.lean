import GraphStore.Proofs.Query.Tokens

/-!
# Reading of tokens

What a scanner reads off texts that begin with given tokens.  An optional part or a further item of
a list is tried wherever it could stand, so that a reading also says which characters must not begin
the tokens after it.
-/

namespace GraphStore
namespace Scanner

variable {α β : Type}

theorem bind_apply (first : Scanner α) (next : α → Scanner β) (text : List Char) :
    (first >>= next) text = (first text).bind fun (value, rest) => next value rest :=
  rfl

theorem bind_of_some {first : Scanner α} {next : α → Scanner β} {text rest : List Char} {value : α}
    (taken : first text = some (value, rest)) : (first >>= next) text = next value rest := by
  rw [bind_apply, taken, Option.bind_some]

theorem bind_of_none {first : Scanner α} {next : α → Scanner β} {text : List Char}
    (fails : first text = none) : (first >>= next) text = none := by
  rw [bind_apply, fails, Option.bind_none]

theorem map_apply (map : α → β) (scanner : Scanner α) (text : List Char) :
    (map <$> scanner) text = (scanner text).map fun (value, rest) => (map value, rest) := by
  change (scanner text).bind _ = _
  cases scanner text <;> rfl

theorem orElse_apply (left right : Scanner α) (text : List Char) :
    (left <|> right) text = (left text).or (right text) := by
  change (left text <|> right text) = _
  cases left text <;> rfl

theorem optional_apply (scanner : Scanner α) (text : List Char) :
    (optional scanner) text =
      some (match scanner text with
        | some (value, rest) => (some value, rest)
        | none => (none, text)) := by
  change ((some <$> scanner) text <|> some (none, text)) = _
  rw [map_apply]
  cases scanner text <;> rfl

theorem span_append {keep : Char → Bool} {run after : List Char} (kept : ∀ c ∈ run, keep c)
    (ends : ∀ c ∈ after.head?, keep c = false) : span keep (run ++ after) = some (run, after) := by
  have taken : (run ++ after).takeWhile keep = run := by
    rw [List.takeWhile_append_of_pos kept]
    cases after with
    | nil => exact List.append_nil run
    | cons c rest => rw [List.takeWhile_cons_of_neg (by simp [ends c rfl]), List.append_nil]
  rw [span, taken, Query.dropWhile_append_of_all kept ends]

theorem span1_append {keep : Char → Bool} {run after : List Char} (nonempty : run ≠ [])
    (kept : ∀ c ∈ run, keep c) (ends : ∀ c ∈ after.head?, keep c = false) :
    span1 keep (run ++ after) = some (run, after) := by
  have spanned := Option.some.inj (span_append kept ends)
  obtain ⟨taken, left⟩ := Prod.mk.inj spanned
  rw [span1, taken, left]
  cases run with
  | nil => exact absurd rfl nonempty
  | cons c rest => rfl

theorem exactly_append (expected after : List Char) :
    exactly expected (expected ++ after) = some ((), after) := by
  simp [exactly]

theorem ahead_of {condition : List Char → Bool} {text : List Char} (holds : condition text) :
    ahead condition text = some ((), text) := by
  rw [ahead, if_pos holds]

theorem many_of_none {item : Scanner α} {text : List Char} (fails : item text = none) :
    many item text = some ([], text) := by
  rw [many, fails]

theorem many_of_some {item : Scanner α} {text rest after : List Char} {value : α}
    {values : List α} (taken : item text = some (value, rest)) (shorter : rest.length < text.length)
    (more : many item rest = some (values, after)) :
    many item text = some (value :: values, after) := by
  rw [many, taken]
  simp only [shorter, if_true, more, Option.map_some]

end Scanner

namespace Query

open Scanner

variable {α β γ : Type}

/-! ## Where a scanner can start -/

/-- A scanner starts with characters of a class: it fails on every text that, without the blanks in
front, begins with no such character. -/
def Starts (scanner : Scanner α) (initial : Char → Bool) : Prop :=
  ∀ text, (∀ c ∈ (text.dropWhile isSpace).head?, initial c = false) → scanner text = none

theorem Starts.bind {first : Scanner α} {next : α → Scanner β} {initial : Char → Bool}
    (starts : Starts first initial) : Starts (first >>= next) initial := by
  intro text begins
  rw [bind_of_none (starts text begins)]

theorem Starts.map {scanner : Scanner α} {initial : Char → Bool} (starts : Starts scanner initial)
    (map : α → β) : Starts (map <$> scanner) initial := by
  intro text begins
  rw [map_apply, starts text begins]
  rfl

theorem Starts.orElse {left right : Scanner α} {initial other : Char → Bool}
    (startsLeft : Starts left initial) (startsRight : Starts right other) :
    Starts (left <|> right) fun c => initial c || other c := by
  intro text begins
  have both : ∀ c ∈ (text.dropWhile isSpace).head?, initial c = false ∧ other c = false :=
    fun c head => Bool.or_eq_false_iff.1 (begins c head)
  rw [orElse_apply, startsLeft text fun c head => (both c head).1,
    startsRight text fun c head => (both c head).2]
  rfl

theorem starts_token {scanner : Scanner α} {initial : Char → Bool}
    (fails : ∀ text, (∀ c ∈ text.head?, initial c = false) → scanner text = none) :
    Starts (token scanner) initial :=
  fun text begins => fails (text.dropWhile isSpace) begins

theorem exactly_eq_none {first : Char} {others text : List Char}
    (begins : ∀ c ∈ text.head?, (c == first) = false) : exactly (first :: others) text = none := by
  cases text with
  | nil => rfl
  | cons c rest =>
      have different : (first == c) = false := by
        rw [beq_eq_false_iff_ne]
        exact Ne.symm (beq_eq_false_iff_ne.1 (begins c rfl))
      rw [exactly, List.isPrefixOf_cons_cons, different]
      rfl

/-- The class of the first character of a text. -/
def isFirstOf (text : String) (c : Char) : Bool :=
  text.toList.head? == some c

theorem exactly_eq_none_of_text {expected : String} {text : List Char}
    (nonempty : expected.toList ≠ []) (begins : ∀ c ∈ text.head?, isFirstOf expected c = false) :
    exactly expected.toList text = none := by
  unfold isFirstOf at begins
  cases shape : expected.toList with
  | nil => exact absurd shape nonempty
  | cons first others =>
      rw [shape] at begins
      refine exactly_eq_none fun c head => ?_
      have different := begins c head
      rw [List.head?_cons, beq_eq_false_iff_ne] at different
      exact beq_eq_false_iff_ne.2 fun same => different (congrArg some same.symm)

theorem starts_mark (punctuation : Mark) :
    Starts (mark punctuation.text) (isFirstOf punctuation.text) :=
  starts_token fun _ begins => exactly_eq_none_of_text (Token.mark punctuation).text_ne_nil begins

theorem starts_keyword (written : Keyword) :
    Starts (keyword written.text) (isFirstOf written.text) := by
  refine starts_token fun text begins => ?_
  rw [word, bind_of_none (exactly_eq_none_of_text (Token.keyword written).text_ne_nil begins)]

theorem starts_name : Starts name isNameStart := by
  refine starts_token fun text begins => ?_
  have refused : ahead (fun rest => (rest.head?.map isNameStart) == some true) text = none := by
    rw [ahead, if_neg]
    cases head : text.head? with
    | none => decide
    | some c => simp [begins c head]
  rw [bind_of_none refused]

/-! ## What a scanner reads -/

/-- A scanner reads tokens as a value: off every text that begins with the tokens it takes them and
no more, unless the tokens after them begin with a character of a class. -/
def Reads (scanner : Scanner α) (tokens : List Token) (value : α) (stops : Char → Bool) : Prop :=
  ∀ ⦃rest text⦄, (∀ c ∈ firstOf rest, stops c = false) → Spaced (tokens ++ rest) text →
    ∃ after, scanner text = some (value, after) ∧
      after.length + tokens.length ≤ text.length ∧ Spaced rest after

/-- The empty class. -/
def never (_ : Char) : Bool :=
  false

/-- What can stand after an optional part that is left out, if the part starts with a class. -/
def isOpen (initial stops : Char → Bool) (c : Char) : Bool :=
  isSpace c || initial c || stops c

namespace Reads

variable {scanner : Scanner α} {tokens others : List Token} {value : α} {result : β}
  {stops stops' : Char → Bool}

theorem mono (reads : Reads scanner tokens value stops)
    (stronger : ∀ c, stops' c = false → stops c = false) : Reads scanner tokens value stops' :=
  fun _ _ begins spaced => reads (fun c head => stronger c (begins c head)) spaced

theorem bind {next : α → Scanner β} (reads : Reads scanner tokens value stops)
    (more : Reads (next value) others result stops')
    (apart : ∀ rest, (∀ c ∈ firstOf rest, stops' c = false) →
      ∀ c ∈ firstOf (others ++ rest), stops c = false) :
    Reads (scanner >>= next) (tokens ++ others) result stops' := by
  intro rest text begins spaced
  rw [List.append_assoc] at spaced
  obtain ⟨middle, taken, shorter, spaced⟩ := reads (apart rest begins) spaced
  obtain ⟨after, takenMore, shorterMore, spaced⟩ := more begins spaced
  refine ⟨after, ?_, ?_, spaced⟩
  · rw [bind_of_some taken, takenMore]
  · rw [List.length_append]
    omega

/-- Two readings of which the first can be followed by anything. -/
theorem andThen {next : α → Scanner β} (reads : Reads scanner tokens value never)
    (more : Reads (next value) others result stops) :
    Reads (scanner >>= next) (tokens ++ others) result stops :=
  reads.bind more fun _ _ _ _ => rfl

theorem map (reads : Reads scanner tokens value stops) (map : α → β) :
    Reads (map <$> scanner) tokens (map value) stops := by
  intro rest text begins spaced
  obtain ⟨after, taken, shorter, spaced⟩ := reads begins spaced
  exact ⟨after, by rw [map_apply, taken]; rfl, shorter, spaced⟩

theorem orElse_left (reads : Reads scanner tokens value stops) (other : Scanner α) :
    Reads (scanner <|> other) tokens value stops := by
  intro rest text begins spaced
  obtain ⟨after, taken, shorter, spaced⟩ := reads begins spaced
  exact ⟨after, by rw [orElse_apply, taken]; rfl, shorter, spaced⟩

theorem orElse_right {other : Scanner α}
    (fails : ∀ ⦃rest text⦄, (∀ c ∈ firstOf rest, stops c = false) →
      Spaced (tokens ++ rest) text → other text = none)
    (reads : Reads scanner tokens value stops) : Reads (other <|> scanner) tokens value stops := by
  intro rest text begins spaced
  obtain ⟨after, taken, shorter, left⟩ := reads begins spaced
  exact ⟨after, by rw [orElse_apply, fails begins spaced, taken]; rfl, shorter, left⟩

/-- The second branch reads what the first one cannot start with. -/
theorem orElse_of_starts {other : Scanner α} {initial : Char → Bool} (starts : Starts other initial)
    (visible : ∀ rest, ∀ c ∈ firstOf (tokens ++ rest), isSpace c = false ∧ initial c = false)
    (reads : Reads scanner tokens value stops) : Reads (other <|> scanner) tokens value stops := by
  refine orElse_right (fun rest text _ spaced => starts text fun c head => ?_) reads
  rw [spaced.head?_dropWhile fun c head => (visible rest c head).1] at head
  exact (visible rest c head).2

/-- A scanner whose value is changed at the end. -/
theorem of_map {make : α → β} (reads : Reads (make <$> scanner) tokens result stops)
    (finish : β → γ) :
    Reads (do let value ← scanner; pure (finish (make value))) tokens (finish result) stops := by
  intro rest text begins spaced
  obtain ⟨after, taken, shorter, spaced⟩ := reads begins spaced
  rw [map_apply, Option.map_eq_some_iff] at taken
  obtain ⟨⟨value, left⟩, taken, same⟩ := taken
  obtain ⟨rfl, rfl⟩ := Prod.mk.inj same
  exact ⟨left, by rw [bind_of_some taken]; rfl, shorter, spaced⟩

theorem thenPure (reads : Reads scanner tokens value stops) (finish : α → β) :
    Reads (do let value ← scanner; pure (finish value)) tokens (finish value) stops :=
  of_map (reads.map id) finish

end Reads

/-- A scanner of one token takes it from behind the blanks before it. -/
theorem reads_of_append {scanner : Scanner α} {written : Token} {value : α} {stops : Char → Bool}
    (scans : ∀ gap rest after, (∀ c ∈ gap, isSpace c) → (∀ c ∈ firstOf rest, stops c = false) →
      Spaced rest after → (written.isWord → ∀ c ∈ after.head?, isNameChar c = false) →
      scanner (gap ++ (written.text ++ after)) = some (value, after)) :
    Reads scanner [written] value stops := by
  intro rest text begins spaced
  obtain ⟨gap, after, rfl, blank, apart, spaced⟩ := spaced.parts
  refine ⟨after, scans gap rest after blank begins spaced apart, ?_, spaced⟩
  have nonempty := List.length_pos_iff.2 written.text_ne_nil
  rw [List.length_append, List.length_append, List.length_singleton]
  omega

theorem token_append {scanner : Scanner α} {gap text : List Char} (blank : ∀ c ∈ gap, isSpace c)
    (visible : ∀ c ∈ text.head?, isSpace c = false) : token scanner (gap ++ text) = scanner text := by
  change scanner ((gap ++ text).dropWhile isSpace) = _
  rw [dropWhile_append_of_all blank visible]

/-- A scanner of one token, which may take a word only up to where it ends. -/
theorem reads_token {scanner : Scanner α} {written : Token} {value : α} {stops : Char → Bool}
    (visible : ∀ c ∈ written.text.head?, isSpace c = false)
    (scans : ∀ rest after, (∀ c ∈ firstOf rest, stops c = false) → Spaced rest after →
      (written.isWord → ∀ c ∈ after.head?, isNameChar c = false) →
      scanner (written.text ++ after) = some (value, after)) :
    Reads (token scanner) [written] value stops := by
  apply reads_of_append
  intro gap rest after blank begins spaced apart
  rw [token_append blank (by rwa [Token.head?_text_append])]
  exact scans rest after begins spaced apart

theorem mark_append (punctuation : Mark) (gap : List Char) (blank : ∀ c ∈ gap, isSpace c)
    (after : List Char) :
    mark punctuation.text (gap ++ (punctuation.text.toList ++ after)) = some ((), after) := by
  have visible : ∀ c ∈ (punctuation.text.toList ++ after).head?, isSpace c = false := by
    intro c head
    cases punctuation <;> exact Option.some.inj head ▸ rfl
  exact (token_append blank visible).trans (exactly_append _ after)

theorem reads_mark (punctuation : Mark) :
    Reads (mark punctuation.text) [.mark punctuation] () never :=
  reads_of_append fun gap _ after blank _ _ _ => mark_append punctuation gap blank after

theorem word_append (text : String) {after : List Char}
    (apart : ∀ c ∈ after.head?, isNameChar c = false) :
    word text (text.toList ++ after) = some ((), after) := by
  have ended : (fun rest : List Char => (rest.head?.map isNameChar) != some true) after := by
    cases head : after.head? with
    | none => simp [head]
    | some c => simp [head, apart c head]
  rw [word, bind_of_some (exactly_append _ after), ahead_of ended]

theorem keyword_append (written : Keyword) (gap : List Char) {after : List Char}
    (blank : ∀ c ∈ gap, isSpace c) (apart : ∀ c ∈ after.head?, isNameChar c = false) :
    keyword written.text (gap ++ (written.text.toList ++ after)) = some ((), after) := by
  have visible : ∀ c ∈ (written.text.toList ++ after).head?, isSpace c = false := by
    intro c head
    cases written <;> exact Option.some.inj head ▸ rfl
  exact (token_append blank visible).trans (word_append _ apart)

theorem reads_keyword (written : Keyword) :
    Reads (keyword written.text) [.keyword written] () never :=
  reads_of_append fun gap _ _ blank _ _ apart => keyword_append written gap blank (apart rfl)

theorem name_append (written : Name) (gap : List Char) {after : List Char}
    (blank : ∀ c ∈ gap, isSpace c) (apart : ∀ c ∈ after.head?, isNameChar c = false) :
    name (gap ++ (written.chars ++ after)) = some (written.text, after) := by
  have visible : ∀ c ∈ (written.chars ++ after).head?, isSpace c = false := by
    intro c head
    obtain rfl : written.first = c := Option.some.inj head
    exact isSpace_eq_false_of_isNameChar (isNameChar_of_isNameStart written.isNameStart_first)
  have started : ahead (fun rest => (rest.head?.map isNameStart) == some true)
      (written.chars ++ after) = some ((), written.chars ++ after) := by
    refine ahead_of ?_
    simp [Name.chars, written.isNameStart_first]
  have taken : span1 isNameChar (written.chars ++ after) = some (written.chars, after) :=
    span1_append (List.cons_ne_nil _ _) (fun _ => Name.isNameChar_of_mem) apart
  rw [name, token_append blank visible, bind_of_some started, bind_of_some taken]
  rfl

theorem reads_name (written : Name) : Reads name [.name written] written.text never :=
  reads_of_append fun gap _ _ blank _ _ apart => name_append written gap blank (apart rfl)

/-! ## Optional parts and lists -/

/-- The tokens of an optional part. -/
def optionTokens (tokensOf : β → List Token) (part : Option β) : List Token :=
  (part.map tokensOf).getD []

/-- An optional part is read if it is there, and left out if what follows cannot be its start. -/
theorem reads_optional {scanner : Scanner α} {initial stops : Char → Bool}
    {tokensOf : β → List Token} {valueOf : β → α} (starts : Starts scanner initial)
    (reads : ∀ part, Reads scanner (tokensOf part) (valueOf part) stops) (part : Option β) :
    Reads (optional scanner) (optionTokens tokensOf part) (part.map valueOf)
      (isOpen initial stops) := by
  intro rest text begins spaced
  have closed : ∀ c ∈ firstOf rest, (isSpace c = false ∧ initial c = false) ∧ stops c = false := by
    intro c head
    simpa only [isOpen, Bool.or_eq_false_iff] using begins c head
  cases part with
  | none =>
      have first := spaced.head?_dropWhile fun c head => (closed c head).1.1
      have fails : scanner text = none :=
        starts text fun c head => (closed c (first ▸ head)).1.2
      exact ⟨text, by rw [optional_apply, fails]; rfl, Nat.le_refl _, spaced⟩
  | some part =>
      obtain ⟨after, taken, shorter, spaced⟩ :=
        reads part (fun c head => (closed c head).2) spaced
      exact ⟨after, by rw [optional_apply, taken]; rfl, shorter, spaced⟩

/-- The tokens of items that follow an item of a list. -/
def furtherTokens (tokensOf : β → List Token) (items : List β) : List Token :=
  items.flatMap fun item => .mark .comma :: tokensOf item

/-- The further items of a list are read up to where no comma follows. -/
theorem reads_many {scanner : Scanner α} {stops : Char → Bool}
    {tokensOf : β → List Token} {valueOf : β → α}
    (reads : ∀ item, Reads scanner (tokensOf item) (valueOf item) stops)
    (comma : stops ',' = false) (items : List β) :
    Reads (many do mark ","; scanner) (furtherTokens tokensOf items) (items.map valueOf)
      (isOpen (· == ',') stops) := by
  have starts : Starts (do mark ","; scanner) (· == ',') := by
    refine Starts.bind ?_
    exact starts_token fun text begins => exactly_eq_none begins
  induction items with
  | nil =>
      intro rest text begins spaced
      have closed : ∀ c ∈ firstOf rest,
          (isSpace c = false ∧ (c == ',') = false) ∧ stops c = false := by
        intro c head
        simpa only [isOpen, Bool.or_eq_false_iff] using begins c head
      have first := spaced.head?_dropWhile fun c head => (closed c head).1.1
      have fails := starts text fun c head => (closed c (first ▸ head)).1.2
      exact ⟨text, many_of_none fails, Nat.le_refl _, spaced⟩
  | cons item items ih =>
      intro rest text begins spaced
      have split : furtherTokens tokensOf (item :: items) ++ rest =
          (.mark .comma :: tokensOf item) ++ (furtherTokens tokensOf items ++ rest) := by
        simp [furtherTokens]
      rw [split] at spaced
      have follows : ∀ c ∈ firstOf (furtherTokens tokensOf items ++ rest), stops c = false := by
        intro c head
        cases items with
        | nil =>
            have closed := begins c head
            simp only [isOpen, Bool.or_eq_false_iff] at closed
            exact closed.2
        | cons next others =>
            obtain rfl : ',' = c := Option.some.inj head
            exact comma
      have read : Reads (do mark ","; scanner) (.mark .comma :: tokensOf item) (valueOf item)
          stops :=
        (reads_mark .comma).andThen (reads item)
      obtain ⟨middle, taken, shorter, spacedMore⟩ := read follows spaced
      obtain ⟨after, takenMore, shorterMore, spacedRest⟩ := ih begins spacedMore
      have less : middle.length < text.length := by
        rw [List.length_cons] at shorter
        omega
      refine ⟨after, many_of_some taken less takenMore, ?_, spacedRest⟩
      have length : (furtherTokens tokensOf (item :: items)).length =
          (Token.mark .comma :: tokensOf item).length + (furtherTokens tokensOf items).length := by
        rw [furtherTokens, List.flatMap_cons, List.length_append]
        rfl
      omega

end Query
end GraphStore
