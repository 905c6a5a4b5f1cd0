import GraphStore.Proofs.Double.Exact
import GraphStore.Proofs.Json.Doubles
import GraphStore.Value

/-!
# Key texts

The key text of a number is read as that number: an integer as the double nearest to it, and a double
as itself, also if it is infinite or a NaN.  So values with the same key text are equal in the loose
order as well, unless they are read as a NaN.
-/

namespace GraphStore

namespace Text

variable {text : List Char}

theorem isBlank_eq_false_of_isDigit {c : Char} (digit : c.isDigit) : isBlank c = false := by
  have codes : 48 ≤ c.toNat ∧ c.toNat ≤ 57 := by
    simpa [Char.isDigit, UInt32.le_iff_toNat_le] using digit
  simp only [isBlank, Bool.or_eq_false_iff, Bool.and_eq_false_iff, decide_eq_false_iff_not,
    beq_eq_false_iff_ne]
  omega

theorem trim_eq_self (visible : ∀ c ∈ text, isBlank c = false) : trim text = text :=
  strip_eq_self isBlank text (fun c head => visible c (List.mem_of_mem_head? head))
    fun c last => visible c (List.mem_of_mem_getLast? last)

theorem toLower_of_isDigit {c : Char} (digit : c.isDigit) : c.toLower = c := by
  apply dif_neg
  intro upper
  simp only [Char.isDigit, Bool.and_eq_true, decide_eq_true_eq] at digit
  exact absurd (UInt32.le_trans upper.1 digit.2) (by decide)

/-- A sign is taken off a text that goes on with a digit. -/
theorem takeSign_signed (negative : Bool) {c : Char} (digit : c.isDigit) (rest : List Char) :
    takeSign ((if negative then ['-'] else []) ++ c :: rest) = (negative, c :: rest) := by
  cases negative with
  | true => rfl
  | false =>
      simp only [Bool.false_eq_true, if_false, List.nil_append]
      unfold takeSign
      split
      · next same =>
          cases same
          cases digit
      · next same =>
          cases same
          cases digit
      · rfl

/-- A text that starts with a digit is no name. -/
theorem equalsIgnoringCase_eq_false {name rest : List Char} {c : Char} (digit : c.isDigit)
    (letter : (name.map Char.toLower).head?.any Char.isDigit = false) :
    equalsIgnoringCase (c :: rest) name = false := by
  refine beq_eq_false_iff_ne.2 fun same => ?_
  rw [← same, List.map_cons, toLower_of_isDigit digit, List.head?_cons, Option.any_some,
    digit] at letter
  cases letter

end Text

/-! ## Written decimals -/

namespace Decimal

open Json.NumberText (IsDigits isDigits_natDigits spanDigits_append spanDigits_of_all)

/-- Which decimals are written by digits with at most one point behind the first of them. -/
inductive IsWritten : Decimal → List Char → Prop
  | whole {digits : List Char} : IsDigits digits → IsWritten ⟨Text.digitsValue digits, 0⟩ digits
  | point {whole fraction : List Char} : IsDigits whole → (∀ c ∈ fraction, c.isDigit) →
      IsWritten ⟨Text.digitsValue (whole ++ fraction), -fraction.length⟩ (whole ++ '.' :: fraction)

variable {decimal : Decimal} {text : List Char}

theorem IsWritten.ofText? (written : decimal.IsWritten text) :
    Decimal.ofText? text = some decimal := by
  cases written with
  | whole numeric =>
      rw [Decimal.ofText?, spanDigits_of_all numeric.2]
      simp [spanFraction, readExponent?, numeric.1]
  | point numeric fractional =>
      rw [Decimal.ofText?, spanDigits_append numeric (by simp)]
      simp [spanFraction, spanDigits_of_all fractional, readExponent?, numeric.1]

theorem IsWritten.exists_cons (written : decimal.IsWritten text) :
    ∃ c rest, text = c :: rest ∧ c.isDigit := by
  have starts : ∀ {digits : List Char} (after : List Char), IsDigits digits →
      ∃ c rest, digits ++ after = c :: rest ∧ c.isDigit := by
    intro digits after numeric
    obtain ⟨c, rest, rfl⟩ := List.exists_cons_of_ne_nil numeric.1
    exact ⟨c, rest ++ after, rfl, numeric.2 c List.mem_cons_self⟩
  cases written with
  | whole numeric => exact List.append_nil text ▸ starts [] numeric
  | point numeric _ => exact starts _ numeric

theorem IsWritten.isBlank_eq_false (written : decimal.IsWritten text) :
    ∀ c ∈ text, Text.isBlank c = false := by
  cases written with
  | whole numeric => exact fun c member => Text.isBlank_eq_false_of_isDigit (numeric.2 c member)
  | point numeric fractional =>
      intro c member
      rcases List.mem_append.1 member with member | member
      · exact Text.isBlank_eq_false_of_isDigit (numeric.2 c member)
      · rcases List.mem_cons.1 member with rfl | member
        · decide
        · exact Text.isBlank_eq_false_of_isDigit (fractional c member)

theorem IsWritten.of_eq {significand other : Nat} {exponent power : Int}
    (written : IsWritten ⟨other, power⟩ text) (same : significand = other)
    (samePower : exponent = power) : IsWritten ⟨significand, exponent⟩ text := by
  rwa [same, samePower]

theorem isWritten_natDigits (value : Nat) : IsWritten ⟨value, 0⟩ (Text.natDigits value) := by
  have written := IsWritten.whole (isDigits_natDigits value)
  rwa [Text.digitsValue_natDigits] at written

/-- A positional text writes its decimal, perhaps with zeros appended. -/
theorem isWritten_positionalText (pointZero : Bool) (significand : Nat) (exponent : Int) :
    ∃ zeros : Nat, IsWritten ⟨significand * 10 ^ zeros, exponent - zeros⟩
      (Layout.positionalText pointZero (Text.natDigits significand) exponent) := by
  have numeric := isDigits_natDigits significand
  have value := Text.digitsValue_natDigits significand
  generalize Text.natDigits significand = digits at numeric value ⊢
  have zeros : ∀ (count : Nat), ∀ c ∈ List.replicate count '0', c.isDigit := fun count c member =>
    List.eq_of_mem_replicate member ▸ rfl
  have padded : ∀ count, IsDigits (digits ++ List.replicate count '0') ∧
      Text.digitsValue (digits ++ List.replicate count '0') = significand * 10 ^ count := by
    intro count
    refine ⟨⟨by simp [numeric.1], List.forall_mem_append.2 ⟨numeric.2, zeros _⟩⟩, ?_⟩
    rw [Text.digitsValue_append_zeros, value]
  unfold Layout.positionalText
  split
  · next up =>
      obtain ⟨numericPadded, valuePadded⟩ := padded exponent.toNat
      cases pointZero with
      | false =>
          rw [if_neg Bool.false_ne_true, List.append_nil]
          exact ⟨exponent.toNat, (IsWritten.whole numericPadded).of_eq valuePadded.symm (by omega)⟩
      | true =>
          refine ⟨exponent.toNat + 1, (IsWritten.point numericPadded (zeros 1)).of_eq ?_ ?_⟩
          · rw [List.append_assoc, List.replicate_append_replicate, (padded _).2]
          · rw [List.length_replicate]
            omega
  · next down =>
      refine ⟨0, ?_⟩
      rw [Nat.pow_zero, Nat.mul_one, Int.natCast_zero, Int.sub_zero]
      dsimp only
      split
      · next inside =>
          have taken : IsDigits (digits.take (digits.length - (-exponent).toNat)) := by
            refine numeric.of_subset (fun c => List.mem_of_mem_take) ?_
            simp only [ne_eq, List.take_eq_nil_iff, not_or]
            exact ⟨by omega, numeric.1⟩
          refine (IsWritten.point taken fun c member =>
            numeric.2 c (List.mem_of_mem_drop member)).of_eq ?_ ?_
          · rw [List.take_append_drop, value]
          · rw [List.length_drop]
            omega
      · next before =>
          have leading : IsDigits ['0'] := ⟨List.cons_ne_nil _ _, zeros 1⟩
          refine (IsWritten.point leading
            (List.forall_mem_append.2 ⟨zeros _, numeric.2⟩)).of_eq ?_ ?_
          · rw [← List.replicate_one, ← List.append_assoc, List.replicate_append_replicate,
              Text.digitsValue_zeros_append, value]
          · rw [List.length_append, List.length_replicate]
            omega

/-- Key texts are positional. -/
theorem isWritten_decimalText (decimal : Decimal) :
    ∃ zeros : Nat, IsWritten ⟨decimal.significand * 10 ^ zeros, decimal.exponent - zeros⟩
      (Value.keyLayout.decimalText decimal) := by
  rw [Layout.decimalText, if_pos (show Value.keyLayout.positional _ from rfl)]
  exact isWritten_positionalText _ decimal.significand decimal.exponent

end Decimal

/-! ## Key texts -/

namespace Double

variable {decimal : Decimal} {text : List Char}

/-- A written decimal is read with its sign, and has no blanks that would be trimmed. -/
theorem ofText?_of_isWritten (negative : Bool) (written : decimal.IsWritten text) :
    Text.trim ((if negative then ['-'] else []) ++ text) =
        (if negative then ['-'] else []) ++ text ∧
      ofText? ((if negative then ['-'] else []) ++ text) = some (ofDecimal negative decimal) := by
  have visible := written.isBlank_eq_false
  constructor
  · refine Text.trim_eq_self (List.forall_mem_append.2 ⟨fun c member => ?_, visible⟩)
    cases negative with
    | true => exact List.mem_singleton.1 member ▸ rfl
    | false => cases member
  · have read := written.ofText?
    obtain ⟨c, rest, rfl, digit⟩ := written.exists_cons
    have signed := Text.takeSign_signed negative digit rest
    have noName : ∀ name ∈ ["inf", "infinity", "nan"],
        Text.equalsIgnoringCase (c :: rest) name.toList = false := fun name member =>
      Text.equalsIgnoringCase_eq_false digit (by revert name; decide)
    simp only [ofText?, signed, noName "inf" (by decide), noName "infinity" (by decide),
      noName "nan" (by decide), Bool.false_eq_true, or_self, if_false, read, Option.map_some]

/-- An integer is read as the double nearest to it. -/
theorem ofText?_intText (value : Int) :
    ofText? (Text.trim (Text.intText value).toList) = some (ofInt value) := by
  obtain ⟨trimmed, read⟩ := ofText?_of_isWritten (value < 0) (Decimal.isWritten_natDigits value.natAbs)
  simp only [decide_eq_true_eq] at trimmed read
  rw [Text.intText, String.toList_ofList, trimmed, read, @ofDecimal_eq _ ⟨value.natAbs, 0⟩ 0 0 rfl]
  rw [ofInt, Nat.pow_zero, Nat.mul_one]

/-- A double is read from its key text. -/
theorem ofText?_text_keyLayout (number : Double) :
    ofText? (Text.trim (Value.keyLayout.text number).toList) = some number := by
  cases number with
  | nan => decide
  | signed negative place =>
      by_cases finite : place.val < infinityPlace
      · have clamped : clampPlace place.val = place :=
          Fin.ext (Nat.min_eq_left (Nat.le_of_lt finite))
        obtain ⟨zeros, written⟩ :=
          Decimal.isWritten_decimalText (shortestDecimal Value.keyLayout.tie place)
        obtain ⟨trimmed, read⟩ := ofText?_of_isWritten negative written
        rw [Layout.text, if_pos finite, String.toList_ofList, trimmed, read, ofDecimal_zeros,
          ofDecimal_shortestDecimal _ negative finite, clamped]
      · have last : place = clampPlace infinityPlace :=
          Fin.ext (Nat.le_antisymm (Nat.le_of_lt_succ place.isLt) (Nat.le_of_not_lt finite))
        rw [Layout.text, if_neg finite, last]
        cases negative <;> decide

/-- A text is read as a NaN exactly if it is the name of one, perhaps with a sign. -/
theorem ofText?_eq_nan_iff (text : List Char) :
    ofText? text = some .nan ↔
      Text.equalsIgnoringCase (Text.takeSign text).2 "nan".toList := by
  rw [ofText?]
  generalize Text.takeSign text = signed
  obtain ⟨negative, magnitude⟩ := signed
  dsimp only
  split
  · next infinite =>
      refine iff_of_false nofun fun named => ?_
      simp only [Text.equalsIgnoringCase, beq_iff_eq] at infinite named
      rw [named] at infinite
      exact absurd infinite (by decide)
  · split
    · next named => exact iff_of_true rfl named
    · next unnamed =>
        refine iff_of_false (fun read => ?_) unnamed
        obtain ⟨decimal, -, same⟩ := Option.map_eq_some_iff.1 read
        rw [ofDecimal_eq_nearest] at same
        cases same

theorem compare?_self {number : Double} (notNaN : number ≠ .nan) :
    number.compare? number = some .eq := by
  cases number with
  | nan => exact absurd rfl notNaN
  | signed negative place =>
      exact congrArg some (Std.ReflCmp.compare_self)

end Double

/-! ## Values -/

namespace Value

variable {left right value : Value}

/-- Whether a value is a NaN or a text that writes one. -/
def writesNaN : Value → Bool
  | double number => number = .nan
  | text written =>
      Text.equalsIgnoringCase (Text.takeSign (Text.trim written.toList)).2 "nan".toList
  | _ => false

theorem asNumber?_eq_nan_iff (value : Value) : value.asNumber? = some .nan ↔ value.writesNaN := by
  cases value with
  | boolean truth => exact iff_of_false nofun Bool.false_ne_true
  | integer number => exact iff_of_false nofun Bool.false_ne_true
  | double number => simp [asNumber?, writesNaN]
  | text written => exact Double.ofText?_eq_nan_iff _

theorem ofText?_keyText_boolean (truth : Bool) :
    Double.ofText? (Text.trim (boolean truth).keyText.toList) = none := by
  cases truth <;> decide

/-- A value other than a truth value is the number that its key text is read as, if there is one. -/
theorem boolean_or_asNumber?_eq (value : Value) : (∃ truth, value = .boolean truth) ∨
    value.asNumber? = Double.ofText? (Text.trim value.keyText.toList) := by
  cases value with
  | boolean truth => exact .inl ⟨truth, rfl⟩
  | integer number => exact .inr (Double.ofText?_intText number.toInt).symm
  | double number => exact .inr (Double.ofText?_text_keyLayout number).symm
  | text written => exact .inr rfl

theorem asNumber?_of_ofText? {number : Double}
    (read : Double.ofText? (Text.trim value.keyText.toList) = some number) :
    value.asNumber? = some number := by
  rcases value.boolean_or_asNumber?_eq with ⟨truth, rfl⟩ | same
  · rw [ofText?_keyText_boolean] at read
    cases read
  · exact same.trans read

/-- Values with the same key text are equal in the loose order, unless they write a NaN. -/
theorem compare?_of_looselyEquals (same : left.looselyEquals right) :
    left.compare? right = if right.writesNaN then none else some .eq := by
  have keys : left.keyText = right.keyText := beq_iff_eq.1 same
  cases read : Double.ofText? (Text.trim right.keyText.toList) with
  | some number =>
      have rightNumber := asNumber?_of_ofText? read
      rw [← keys] at read
      have nan := right.asNumber?_eq_nan_iff
      rw [rightNumber, Option.some.injEq] at nan
      simp only [compare?, asNumber?_of_ofText? read, rightNumber]
      by_cases isNaN : number = .nan
      · rw [if_pos (nan.1 isNaN), isNaN]
        rfl
      · rw [if_neg fun writes => isNaN (nan.2 writes), Double.compare?_self isNaN]
  | none =>
      have noNaN : ¬right.writesNaN := fun writes => by
        have number := right.asNumber?_eq_nan_iff.2 writes
        rcases right.boolean_or_asNumber?_eq with ⟨truth, rfl⟩ | unread
        · cases writes
        · rw [unread, read] at number
          cases number
      rw [if_neg noNaN]
      have equalTexts : some (compare left.keyText right.keyText) = some .eq :=
        congrArg some (compare_eq_iff_eq.2 keys)
      -- Two truth values are compared as numbers, everything else that is not read by its text.
      rcases left.boolean_or_asNumber?_eq with ⟨truth, rfl⟩ | unread
      · rcases right.boolean_or_asNumber?_eq with ⟨other, rfl⟩ | unread
        · obtain rfl : truth = other := by
            revert keys
            cases truth <;> cases other <;> decide
          exact @Double.compare?_self (Double.ofInt (if truth then 1 else 0)) nofun
        · rw [compare?, unread, read]
          exact equalTexts
      · rw [compare?, unread, keys, read]
        exact keys ▸ equalTexts

/-- Nothing equals a value that writes a NaN in the loose order. -/
theorem compare?_ne_eq_of_writesNaN (writes : right.writesNaN) (left : Value) :
    left.compare? right ≠ some .eq := by
  intro equal
  have number := right.asNumber?_eq_nan_iff.2 writes
  cases other : left.asNumber? with
  | some value =>
      simp only [compare?, other, number] at equal
      cases value <;> cases equal
  | none =>
      have keys : left.keyText = right.keyText := by
        simp only [compare?, other] at equal
        exact compare_eq_iff_eq.1 (Option.some.inj equal)
      have none := compare?_of_looselyEquals (beq_iff_eq.2 keys : left.looselyEquals right)
      rw [if_pos writes, equal] at none
      cases none

end Value
end GraphStore
