import GraphStore.Proofs.Double.Vast
import GraphStore.Proofs.KeyTexts

/-!
# Key texts as literals

The key text of a truth value, an integer or a finite double is a literal.  It is typed as the value
that it was written for, unless it is the key text of a vast double: that one has no point, so it is
typed as an integer or as a text, and may be the key text of an integer too.
-/

namespace GraphStore

/-! ## Numeric texts -/

namespace Text

variable {text : List Char}

/-- Whether a text consists of what numbers are written with. -/
def IsNumeric (text : List Char) : Prop :=
  ∀ c ∈ text, c = '-' ∨ c = '.' ∨ c.isDigit

theorem isNumeric_signed (negative : Bool) (numeric : IsNumeric text) :
    IsNumeric ((if negative then ['-'] else []) ++ text) := by
  intro c member
  cases negative with
  | false => exact numeric c member
  | true =>
      rcases List.mem_cons.1 member with minus | member
      · exact .inl minus
      · exact numeric c member

theorem IsNumeric.trim (numeric : IsNumeric text) : trim text = text := by
  apply trim_eq_self
  intro c member
  rcases numeric c member with rfl | rfl | digit
  · rfl
  · rfl
  · exact isBlank_eq_false_of_isDigit digit

theorem IsNumeric.strip_quote (numeric : IsNumeric text) {quote : Char}
    (isQuote : quote = '"' ∨ quote = '\'') : strip (· == quote) text = text := by
  have kept : ∀ c ∈ text, (c == quote) = false := by
    intro c member
    apply beq_eq_false_iff_ne.2
    rintro rfl
    have kind := numeric c member
    rcases isQuote with rfl | rfl <;> exact absurd kind (by decide)
  apply strip_eq_self
  · exact fun c head => kept c (List.mem_of_mem_head? head)
  · exact fun c last => kept c (List.mem_of_mem_getLast? last)

/-- Numeric texts have no letters. -/
theorem IsNumeric.equalsIgnoringCase_eq_false (numeric : IsNumeric text) {name : List Char}
    (letter : Char) (isLetter : letter.isLower) (member : letter ∈ name.map Char.toLower) :
    equalsIgnoringCase text name = false := by
  apply beq_eq_false_iff_ne.2
  intro same
  obtain ⟨c, written, lower⟩ := List.mem_map.1 (same ▸ member)
  rcases numeric c written with rfl | rfl | digit
  · exact absurd isLetter (lower ▸ by decide)
  · exact absurd isLetter (lower ▸ by decide)
  · rw [toLower_of_isDigit digit] at lower
    rw [← lower, Char.isLower] at isLetter
    simp only [Char.isDigit, Bool.and_eq_true, decide_eq_true_eq] at digit isLetter
    exact absurd (UInt32.le_trans isLetter.1 digit.2) (by decide)

theorem isNumeric_intText (value : Int) : IsNumeric (intText value).toList := by
  have digits : IsNumeric (natDigits value.natAbs) := fun c member =>
    .inr (.inr (isDigit_of_mem_natDigits value.natAbs member))
  have signed := isNumeric_signed (value < 0) digits
  simp only [decide_eq_true_eq] at signed
  rwa [intText, String.toList_ofList]

theorem point_not_mem_intText (value : Int) : '.' ∉ (intText value).toList := by
  intro member
  rw [intText, String.toList_ofList] at member
  rcases List.mem_append.1 member with sign | digit
  · split at sign
    · exact absurd (List.mem_singleton.1 sign) (by decide)
    · cases sign
  · exact absurd (isDigit_of_mem_natDigits _ digit) (by decide)

/-- An integer of 64 bits is read from its text. -/
theorem int64?_intText (value : Int64) : int64? (intText value.toInt).toList = some value := by
  have digits := Json.NumberText.isDigits_natDigits value.toInt.natAbs
  have magnitude := digitsValue_natDigits value.toInt.natAbs
  have signed : takeSign (intText value.toInt).toList =
      (decide (value.toInt < 0), natDigits value.toInt.natAbs) := by
    obtain ⟨c, rest, same⟩ := List.exists_cons_of_ne_nil digits.1
    have signed := takeSign_signed (value.toInt < 0) (digits.2 c (same ▸ List.mem_cons_self)) rest
    simp only [decide_eq_true_eq] at signed
    rw [intText, String.toList_ofList, same, signed]
  have recovered : (if decide (value.toInt < 0) then -(value.toInt.natAbs : Int)
      else value.toInt.natAbs) = value.toInt := by
    split
    · next negative =>
        rw [decide_eq_true_eq] at negative
        omega
    · next nonnegative =>
        rw [decide_eq_true_eq] at nonnegative
        omega
  simp only [int64?, signed, magnitude, recovered]
  rw [if_pos ⟨digits.1, List.all_eq_true.2 digits.2, value.minValue_le_toInt, value.toInt_le⟩,
    Int64.ofInt_toInt]

end Text

theorem Decimal.IsWritten.isNumeric {decimal : Decimal} {text : List Char}
    (written : decimal.IsWritten text) : Text.IsNumeric text := by
  cases written with
  | whole numeric => exact fun c member => .inr (.inr (numeric.2 c member))
  | point numeric fractional =>
      intro c member
      rcases List.mem_append.1 member with member | member
      · exact .inr (.inr (numeric.2 c member))
      · rcases List.mem_cons.1 member with point | member
        · exact .inr (.inl point)
        · exact .inr (.inr (fractional c member))

namespace Value

variable {text : List Char} {value : Value}

/-! ## Typed literals -/

/-- The value that a literal writes once its quotes are removed. -/
def ofBare (bare : List Char) : Value :=
  if Text.equalsIgnoringCase bare "true".toList then boolean true
  else if Text.equalsIgnoringCase bare "false".toList then boolean false
  else if '.' ∈ Text.trim bare then
    ((Double.ofText? (Text.trim bare)).map double).getD (.text (String.ofList bare))
  else ((Text.int64? (Text.trim bare)).map integer).getD (.text (String.ofList bare))

theorem ofLiteral_eq_ofBare (literal : List Char) : ofLiteral literal =
    ofBare (Text.strip (· == '\'') (Text.strip (· == '"') (Text.trim literal))) :=
  rfl

theorem ofLiteral_of_isNumeric (numeric : Text.IsNumeric text) :
    ofLiteral text = ofBare text := by
  rw [ofLiteral_eq_ofBare, numeric.trim, numeric.strip_quote (.inl rfl),
    numeric.strip_quote (.inr rfl)]

/-- A numeric text is a double if it has a point and can be read, and without a point an integer if
it can be read. -/
theorem ofBare_of_isNumeric (numeric : Text.IsNumeric text) : ofBare text =
    if '.' ∈ text then ((Double.ofText? text).map double).getD (.text (String.ofList text))
    else ((Text.int64? text).map integer).getD (.text (String.ofList text)) := by
  have noTrue : Text.equalsIgnoringCase text "true".toList = false :=
    numeric.equalsIgnoringCase_eq_false 't' (by decide) (by decide)
  have noFalse : Text.equalsIgnoringCase text "false".toList = false :=
    numeric.equalsIgnoringCase_eq_false 'f' (by decide) (by decide)
  simp only [ofBare, numeric.trim, noTrue, noFalse, Bool.false_eq_true, if_false]

/-! ## Key texts -/

theorem ofBare_keyText_boolean (truth : Bool) :
    ofBare (boolean truth).keyText.toList = boolean truth := by
  cases truth <;> decide

theorem ofBare_keyText_integer (number : Int64) :
    ofBare (integer number).keyText.toList = integer number := by
  change ofBare (Text.intText number.toInt).toList = integer number
  rw [ofBare_of_isNumeric (Text.isNumeric_intText _), if_neg (Text.point_not_mem_intText _),
    Text.int64?_intText]
  rfl

end Value

/-! ## Points in key texts -/

theorem Layout.point_mem_positionalText {pointZero : Bool} {digits : List Char} (exponent : Int)
    (numeric : ∀ c ∈ digits, c.isDigit) :
    '.' ∈ positionalText pointZero digits exponent ↔ (0 ≤ exponent → pointZero) := by
  have noPoint : '.' ∉ digits := fun member => absurd (numeric _ member) (by decide)
  unfold positionalText
  split
  · next whole => cases pointZero <;> simp [noPoint, whole]
  · next scaled =>
      dsimp only
      split <;> simp [scaled]

theorem Layout.decimalText_keyLayout (decimal : Decimal) : Value.keyLayout.decimalText decimal =
    positionalText (decimal.exponent + (Text.natDigits decimal.significand).length - 1 < 16)
      (Text.natDigits decimal.significand) decimal.exponent :=
  rfl

/-- The leading digit of a whole decimal tells how large it is. -/
theorem Text.leading_lt_iff {significand exponent bound : Nat} (positive : 0 < significand) :
    (exponent : Int) + (natDigits significand).length - 1 < bound ↔
      significand * 10 ^ exponent < 10 ^ bound := by
  have nonempty := List.length_pos_iff.2 (natDigits_ne_nil significand)
  by_cases inside : exponent < bound
  · obtain ⟨rest, rfl⟩ := Nat.exists_eq_add_of_le (Nat.le_of_lt inside)
    have short : (natDigits significand).length ≤ rest ↔ significand < 10 ^ rest :=
      Nat.length_toDigits_le_iff (by decide) (by omega)
    rw [Nat.pow_add, Nat.mul_comm significand, Nat.mul_lt_mul_left (Nat.pow_pos (by decide)),
      ← short]
    omega
  · have large : 10 ^ bound ≤ significand * 10 ^ exponent :=
      Nat.le_trans (Nat.pow_le_pow_right (by decide) (Nat.le_of_not_lt inside))
        (Nat.le_mul_of_pos_left _ positive)
    omega

namespace Double

variable {place : Fin (infinityPlace + 1)}

theorem toList_keyText_signed (negative : Bool) (finite : place.val < infinityPlace) :
    (Value.double (.signed negative place)).keyText.toList = (if negative then ['-'] else []) ++
      Value.keyLayout.decimalText (shortestDecimal .away place) := by
  rw [Value.keyText, Layout.text, if_pos finite, String.toList_ofList]
  rfl

theorem isNumeric_keyText (negative : Bool) (finite : place.val < infinityPlace) :
    Text.IsNumeric (Value.double (.signed negative place)).keyText.toList := by
  rw [toList_keyText_signed negative finite]
  apply Text.isNumeric_signed
  obtain ⟨zeros, written⟩ :=
    Decimal.isWritten_decimalText (shortestDecimal .away place)
  exact written.isNumeric

/-- A key text of a finite double has a point unless the double is vast. -/
theorem point_mem_keyText_iff (negative : Bool) (finite : place.val < infinityPlace) :
    '.' ∈ (Value.double (.signed negative place)).keyText.toList ↔ place.val < vastPlace := by
  have unsigned : '.' ∈ (Value.double (.signed negative place)).keyText.toList ↔
      '.' ∈ Value.keyLayout.decimalText (shortestDecimal .away place) := by
    rw [toList_keyText_signed negative finite]
    cases negative <;> simp
  have small : place.val < vastPlace ↔ (0 ≤ (shortestDecimal .away place).exponent →
      (shortestDecimal .away place).significand *
        10 ^ (shortestDecimal .away place).exponent.toNat < 10 ^ 16) := by
    rw [← not_le, vast_iff_shortestDecimal .away finite, not_and, not_le]
  rw [unsigned, Layout.decimalText_keyLayout, Layout.point_mem_positionalText _ fun _ =>
    Text.isDigit_of_mem_natDigits _, decide_eq_true_iff, small]
  apply forall_congr'
  intro whole
  rcases Nat.eq_zero_or_pos place.val with zero | positive
  · rw [zero]
    decide
  · rw [← Text.leading_lt_iff (atMost_shortestDecimal .away positive finite).1,
      Int.toNat_of_nonneg whole]
    rfl

theorem isVast_signed_iff (negative : Bool) (finite : place.val < infinityPlace) :
    (Double.signed negative place).isVast ↔ vastPlace ≤ place.val := by
  rw [vastPlace_le_iff (Nat.le_of_lt finite)]
  simp [isVast, finite]

end Double

namespace Value

variable {value left right : Value}

/-- Whether a value is a truth value, an integer or a finite double. -/
def isTyped : Value → Bool
  | boolean _ => true
  | integer _ => true
  | double number => number.isFinite
  | text _ => false

/-- Whether a value is a finite double of `10 ^ 16` or more. -/
def isVast : Value → Bool
  | double number => number.isVast
  | _ => false

theorem ofLiteral_keyText (typed : value.isTyped) :
    ofLiteral value.keyText.toList = ofBare value.keyText.toList := by
  cases value with
  | boolean truth => cases truth <;> decide
  | integer number => exact ofLiteral_of_isNumeric (Text.isNumeric_intText number.toInt)
  | double number =>
      cases number with
      | nan => cases typed
      | signed negative place =>
          apply ofLiteral_of_isNumeric
          exact Double.isNumeric_keyText negative (decide_eq_true_iff.1 typed)
  | text written => cases typed

theorem ofBare_keyText_double (negative : Bool) {place : Fin (Double.infinityPlace + 1)}
    (finite : place.val < Double.infinityPlace) :
    ofBare (double (.signed negative place)).keyText.toList = double (.signed negative place) ↔
      place.val < Double.vastPlace := by
  have numeric := Double.isNumeric_keyText negative finite
  have read := Double.ofText?_text_keyLayout (.signed negative place)
  change Double.ofText? (Text.trim (double (.signed negative place)).keyText.toList) = _ at read
  rw [numeric.trim] at read
  rw [ofBare_of_isNumeric numeric, ← Double.point_mem_keyText_iff negative finite]
  split
  · next point => simp [read, point]
  · next noPoint =>
      simp only [noPoint, iff_false]
      cases Text.int64? (double (.signed negative place)).keyText.toList <;> exact nofun

/-- A key text is typed as the value it was written for unless that is vast. -/
theorem ofBare_keyText_iff (typed : value.isTyped) :
    ofBare value.keyText.toList = value ↔ ¬value.isVast := by
  cases value with
  | boolean truth => exact iff_of_true (ofBare_keyText_boolean truth) Bool.false_ne_true
  | integer number => exact iff_of_true (ofBare_keyText_integer number) Bool.false_ne_true
  | double number =>
      cases number with
      | nan => cases typed
      | signed negative place =>
          have finite : place.val < Double.infinityPlace := decide_eq_true_iff.1 typed
          rw [ofBare_keyText_double negative finite, isVast,
            Double.isVast_signed_iff negative finite, not_le]
  | text written => cases typed

/-- What shares its key text with a vast double is that double or an integer it is nearest to. -/
theorem eq_or_integer_of_vast {number : Double} (typed : right.isTyped)
    (same : (double number).keyText = right.keyText) :
    right = double number ∨ ∃ n, right = integer n ∧ number = .ofInt n.toInt := by
  have read : Double.ofText? (Text.trim right.keyText.toList) = some number :=
    same ▸ Double.ofText?_text_keyLayout number
  have known := asNumber?_of_ofText? read
  cases right with
  | boolean truth =>
      rw [ofText?_keyText_boolean] at read
      cases read
  | integer n => exact .inr ⟨n, rfl, (Option.some.inj known).symm⟩
  | double other => exact .inl (congrArg double (Option.some.inj known))
  | text written => cases typed

theorem exists_double_of_isVast (vast : value.isVast) : ∃ number : Double,
    value = double number ∧ number.isVast := by
  cases value with
  | double number => exact ⟨number, rfl, vast⟩
  | boolean | integer | text => cases vast

/-- The key text of a truth value, an integer or a finite double is typed as that value, unless it
is a double of `10 ^ 16` or more.  Different values have different key texts, but a vast double may
share its key text with an integer that it is nearest to. -/
theorem keyText_identifies_unless_vast (typed : left.isTyped) :
    (ofLiteral left.keyText.toList = left ↔ ¬left.isVast) ∧
    ∀ right : Value, right.isTyped → left.looselyEquals right → left ≠ right →
      ∃ n : Int64, (Double.ofInt n.toInt).isVast ∧
        (left = integer n ∧ right = double (.ofInt n.toInt) ∨
          left = double (.ofInt n.toInt) ∧ right = integer n) := by
  refine ⟨ofLiteral_keyText typed ▸ ofBare_keyText_iff typed, ?_⟩
  intro right typedRight same differ
  have keys : left.keyText = right.keyText := beq_iff_eq.1 same
  by_cases vast : left.isVast
  · obtain ⟨number, rfl, vast⟩ := exists_double_of_isVast vast
    rcases eq_or_integer_of_vast typedRight keys with rfl | ⟨n, rfl, rfl⟩
    · exact absurd rfl differ
    · exact ⟨n, vast, .inr ⟨rfl, rfl⟩⟩
  · by_cases vastRight : right.isVast
    · obtain ⟨number, rfl, vast⟩ := exists_double_of_isVast vastRight
      rcases eq_or_integer_of_vast typed keys.symm with rfl | ⟨n, rfl, rfl⟩
      · exact absurd rfl differ
      · exact ⟨n, vast, .inl ⟨rfl, rfl⟩⟩
    · have readLeft := (ofBare_keyText_iff typed).2 vast
      rw [keys, (ofBare_keyText_iff typedRight).2 vastRight] at readLeft
      exact absurd readLeft.symm differ

/-- One as a double is read back and shares its key text with no integer. -/
theorem keyText_identifies_one :
    let one := double (.ofInt 1)
    one.keyText = "1.0" ∧ ofLiteral one.keyText.toList = one ∧
      ∀ n : Int64, ¬one.looselyEquals (integer n) := by
  intro one
  have small : ¬one.isVast := by decide +kernel
  obtain ⟨read, shared⟩ := @keyText_identifies_unless_vast one (by decide +kernel)
  refine ⟨by decide +kernel, read.2 small, fun n same => ?_⟩
  obtain ⟨m, vast, ⟨other, -⟩ | ⟨equal, -⟩⟩ := shared (integer n) rfl same nofun
  · exact Value.noConfusion other
  · exact small (equal ▸ vast)

/-- From `10 ^ 16` on an integer and a double may share a key text. -/
example : (double (.ofInt (10 ^ 16))).looselyEquals (integer 10000000000000000) := by
  decide +kernel

end Value
end GraphStore
