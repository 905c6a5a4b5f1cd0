import Mathlib
import GraphStore.Json.Token
import GraphStore.Json.Writer

/-!
# Reading written numbers

An integer of 64 bits is read back from its written form.  Whether a double is read back is a
property of that double, `Double.isReadBack`: the reader rounds twice, so a double may come back as
one of its neighbours.
-/

namespace GraphStore

namespace Text

theorem digitsValue_natDigits (value : Nat) : digitsValue (natDigits value) = value := by
  have same : digitsValue (natDigits value) = Nat.ofDigitChars 10 (Nat.toDigits 10 value) 0 := by
    simp only [digitsValue, natDigits, Nat.ofDigitChars, digitValue, Nat.mul_comm]
  rw [same, Nat.ofDigitChars_ten_toDigits]

theorem foldl_digitValue (digits : List Char) (start : Nat) :
    digits.foldl (fun value c => value * 10 + digitValue c) start =
      start * 10 ^ digits.length + digitsValue digits := by
  induction digits generalizing start with
  | nil => simp [digitsValue]
  | cons c digits ih =>
      rw [digitsValue, List.foldl_cons, List.foldl_cons, ih, ih, List.length_cons,
        Nat.pow_succ]
      ring

theorem digitsValue_append (left right : List Char) :
    digitsValue (left ++ right) =
      digitsValue left * 10 ^ right.length + digitsValue right := by
  rw [digitsValue, List.foldl_append, foldl_digitValue right]
  rfl

theorem digitsValue_zeros (count : Nat) : digitsValue (List.replicate count '0') = 0 := by
  induction count with
  | zero => rfl
  | succ count ih =>
      rw [List.replicate_succ', digitsValue_append, ih]
      rfl

theorem digitsValue_append_zeros (digits : List Char) (count : Nat) :
    digitsValue (digits ++ List.replicate count '0') = digitsValue digits * 10 ^ count := by
  rw [digitsValue_append, digitsValue_zeros, List.length_replicate, Nat.add_zero]

theorem digitsValue_zeros_append (count : Nat) (digits : List Char) :
    digitsValue (List.replicate count '0' ++ digits) = digitsValue digits := by
  rw [digitsValue_append, digitsValue_zeros, Nat.zero_mul, Nat.zero_add]

theorem natDigits_ne_nil (value : Nat) : natDigits value ≠ [] :=
  Nat.toDigits_ne_nil

theorem isDigit_of_mem_natDigits (value : Nat) {c : Char} (member : c ∈ natDigits value) :
    c.isDigit :=
  Nat.isDigit_of_mem_toDigits (by decide) (by decide) member

/-- Only zero is written with a leading zero. -/
theorem natDigits_eq_of_head?_eq_zero {value : Nat} (leading : (natDigits value).head? = some '0') :
    natDigits value = ['0'] := by
  induction value using Nat.strongRecOn with
  | ind value ih =>
      by_cases small : value < 10
      · have single : natDigits value = [value.digitChar] := Nat.toDigits_of_lt_base small
        rw [single] at leading ⊢
        simpa using leading
      · have split : natDigits value = natDigits (value / 10) ++ [(value % 10).digitChar] :=
          Nat.toDigits_of_base_le (by decide) (by omega)
        have first : (natDigits (value / 10)).head? = some '0' := by
          obtain ⟨c, others, cons⟩ := List.exists_cons_of_ne_nil (natDigits_ne_nil (value / 10))
          rw [split, cons] at leading
          simpa [cons] using leading
        have zero := ih (value / 10) (by omega) first
        have positive : 0 < value / 10 := by omega
        have quotient := congrArg digitsValue zero
        rw [digitsValue_natDigits] at quotient
        have absurd_zero : digitsValue ['0'] = 0 := by decide
        omega

end Text

namespace Json
namespace NumberText

/-- Whether a character at the end of a number belongs to the number. -/
def continues (c : Char) : Bool :=
  c.isDigit || c == '.' || c == 'e' || c == 'E'

/-- Nothing at the front of a text belongs to a number before it. -/
def EndsNumber (rest : List Char) : Prop :=
  ∀ c ∈ rest.head?, continues c = false

theorem spanDigits_of_all {digits : List Char} (numeric : ∀ c ∈ digits, c.isDigit) :
    Text.spanDigits digits = (digits, []) := by
  induction digits with
  | nil => rfl
  | cons c digits ih =>
      have later := ih fun other member => numeric other (List.mem_cons_of_mem c member)
      simp only [Text.spanDigits, Prod.mk.injEq] at later ⊢
      simp [numeric c List.mem_cons_self, later]

theorem spanDigits_append_of_endsNumber (text : List Char) {rest : List Char}
    (ends : EndsNumber rest) :
    Text.spanDigits (text ++ rest) =
      ((Text.spanDigits text).1, (Text.spanDigits text).2 ++ rest) := by
  have stop : rest.takeWhile Char.isDigit = [] ∧ rest.dropWhile Char.isDigit = rest := by
    cases rest with
    | nil => simp
    | cons c rest =>
        have ended := ends c (by simp)
        simp only [continues, Bool.or_eq_false_iff] at ended
        simp [ended.1.1.1]
  induction text with
  | nil => simp [Text.spanDigits, stop]
  | cons c text ih =>
      by_cases digit : c.isDigit
      · simpa [Text.spanDigits, digit] using ih
      · simp [Text.spanDigits, digit]

theorem scanFraction?_append {text after rest : List Char} {fraction : Option (List Char)}
    (ends : EndsNumber rest) (scanned : scanFraction? text = some (fraction, after)) :
    scanFraction? (text ++ rest) = some (fraction, after ++ rest) := by
  cases text with
  | nil =>
      have atEnd : scanFraction? rest = some (none, rest) := by
        unfold scanFraction?
        split
        · have ended := ends '.' (by simp)
          simp [continues] at ended
        · rfl
      simp only [scanFraction?, Option.some.injEq, Prod.mk.injEq] at scanned
      obtain ⟨rfl, rfl⟩ := scanned
      simpa using atEnd
  | cons c text =>
      by_cases point : c = '.'
      · subst point
        simp only [scanFraction?, List.cons_append, spanDigits_append_of_endsNumber text ends]
          at scanned ⊢
        grind
      · simp only [scanFraction?, List.cons_append] at scanned ⊢
        grind

theorem scanExponent?_append {text after rest : List Char} {exponent : Option (Bool × List Char)}
    (ends : EndsNumber rest) (scanned : scanExponent? text = some (exponent, after)) :
    scanExponent? (text ++ rest) = some (exponent, after ++ rest) := by
  cases text with
  | nil =>
      have atEnd : scanExponent? rest = some (none, rest) := by
        cases rest with
        | nil => rfl
        | cons c rest =>
            have ended := ends c (by simp)
            have noMark : ¬(c = 'e' ∨ c = 'E') := by
              rintro (rfl | rfl) <;> simp [continues] at ended
            simp [scanExponent?, noMark]
      simp only [scanExponent?, Option.some.injEq, Prod.mk.injEq] at scanned
      obtain ⟨rfl, rfl⟩ := scanned
      simpa using atEnd
  | cons mark text =>
      by_cases isMark : mark = 'e' ∨ mark = 'E'
      · cases text with
        | nil => simp [scanExponent?, isMark, Text.takeSign, Text.spanDigits] at scanned
        | cons sign digits =>
            have signed : Text.takeSign (sign :: digits ++ rest) =
                ((Text.takeSign (sign :: digits)).1, (Text.takeSign (sign :: digits)).2 ++ rest) := by
              unfold Text.takeSign
              grind
            simp only [scanExponent?, List.cons_append, isMark, if_true] at scanned ⊢
            rw [List.cons_append] at signed
            simp only [signed, spanDigits_append_of_endsNumber _ ends]
            grind
      · simp only [scanExponent?, List.cons_append, isMark, if_false] at scanned ⊢
        grind

/-- A number is scanned in the same way if something follows that does not belong to it. -/
theorem scan?_append {text after rest : List Char} {number : NumberText} (ends : EndsNumber rest)
    (scanned : scan? text = some (number, after)) :
    scan? (text ++ rest) = some (number, after ++ rest) := by
  have minus : text ≠ [] →
      takeMinus (text ++ rest) = ((takeMinus text).1, (takeMinus text).2 ++ rest) := by
    intro nonempty
    obtain ⟨c, others, rfl⟩ := List.exists_cons_of_ne_nil nonempty
    simp only [List.cons_append]
    unfold takeMinus
    grind
  have nonempty : text ≠ [] := by
    rintro rfl
    simp [scan?, takeMinus, Text.spanDigits] at scanned
  simp only [scan?, Option.bind_eq_bind] at scanned ⊢
  rw [minus nonempty]
  simp only [spanDigits_append_of_endsNumber _ ends]
  split at scanned
  · simp at scanned
  · next proper =>
      rw [if_neg proper]
      simp only [Option.bind_eq_some_iff, Prod.exists] at scanned ⊢
      obtain ⟨fraction, afterFraction, fractionScanned, exponent, afterExponent, exponentScanned,
        same⟩ := scanned
      refine ⟨fraction, _, scanFraction?_append ends fractionScanned, exponent, _,
        scanExponent?_append ends exponentScanned, ?_⟩
      simp only [Option.some.injEq, Prod.mk.injEq] at same ⊢
      exact ⟨same.1, by rw [same.2]⟩

/-- A number starts with a minus or a digit. -/
theorem exists_cons_of_scan? {text after : List Char} {number : NumberText}
    (scanned : scan? text = some (number, after)) :
    ∃ c others, text = c :: others ∧ (c = '-' ∨ c.isDigit) := by
  cases text with
  | nil => simp [scan?, takeMinus, Text.spanDigits] at scanned
  | cons c others =>
      refine ⟨c, others, rfl, ?_⟩
      by_cases minus : c = '-'
      · exact .inl minus
      · have unsigned : takeMinus (c :: others) = (false, c :: others) := by
          unfold takeMinus
          grind
        cases digit : c.isDigit with
        | true => exact .inr rfl
        | false => simp [scan?, unsigned, Text.spanDigits, digit] at scanned

/-! ## Integers -/

theorem digitsValue_foldl (digits : List Char) (start : Nat) :
    start ≤ digits.foldl (fun value c => value * 10 + Text.digitValue c) start := by
  induction digits generalizing start with
  | nil => simp
  | cons digit digits ih =>
      have later := ih (start * 10 + Text.digitValue digit)
      simp only [List.foldl_cons]
      omega

theorem gather_eq (digits : List Char) (start : Nat)
    (small : digits.foldl (fun value c => value * 10 + Text.digitValue c) start < 2 ^ 64) :
    gather start digits =
      (digits.foldl (fun value c => value * 10 + Text.digitValue c) start, 0) := by
  induction digits generalizing start with
  | nil => rfl
  | cons digit digits ih =>
      have later := digitsValue_foldl digits (start * 10 + Text.digitValue digit)
      simp only [List.foldl_cons] at small ⊢
      rw [gather, Nat.pow_eq, if_pos (by omega)]
      exact ih _ small

theorem gather_fst_lt (digits : List Char) {start : Nat} (small : start < 2 ^ 64) :
    (gather start digits).1 < 2 ^ 64 := by
  induction digits generalizing start with
  | nil => exact small
  | cons digit rest ih =>
      rw [gather]
      split
      · next fits => exact ih fits
      · exact small

theorem gather_natDigits {value : Nat} (small : value < 2 ^ 64) :
    gather 0 (Text.natDigits value) = (value, 0) := by
  have whole : (Text.natDigits value).foldl (fun v c => v * 10 + Text.digitValue c) 0 = value :=
    Text.digitsValue_natDigits value
  rw [gather_eq _ _ (by rw [whole]; exact small), whole]

/-- The parts of a written integer. -/
def ofInt (value : Int) : NumberText :=
  ⟨value < 0, Text.natDigits value.natAbs, none, none⟩

theorem scan?_intText (value : Int) :
    scan? (Text.intText value).toList = some (ofInt value, []) := by
  have digits : Text.spanDigits (Text.natDigits value.natAbs) =
      (Text.natDigits value.natAbs, []) :=
    spanDigits_of_all fun _ member => Text.isDigit_of_mem_natDigits value.natAbs member
  have proper : ¬(Text.natDigits value.natAbs = [] ∨
      (Text.natDigits value.natAbs).head? = some '0' ∧ Text.natDigits value.natAbs ≠ ['0']) := by
    rintro (empty | ⟨leading, more⟩)
    · exact Text.natDigits_ne_nil _ empty
    · exact more (Text.natDigits_eq_of_head?_eq_zero leading)
  have minus : takeMinus (Text.intText value).toList =
      (decide (value < 0), Text.natDigits value.natAbs) := by
    by_cases negative : value < 0
    · simp [Text.intText, negative, takeMinus]
    · obtain ⟨first, others, cons⟩ :=
        List.exists_cons_of_ne_nil (Text.natDigits_ne_nil value.natAbs)
      have digit : first.isDigit :=
        Text.isDigit_of_mem_natDigits value.natAbs (by simp [cons])
      have noMinus : first ≠ '-' := by
        rintro rfl
        simp at digit
      simp only [Text.intText, negative, if_false, List.nil_append, String.toList_ofList, cons,
        decide_false, takeMinus]
      grind
  simp only [scan?, minus, digits, if_neg proper, scanFraction?, scanExponent?,
    Option.bind_eq_bind, Option.bind_some, ofInt]

theorem value_ofInt (number : Int64) : (ofInt number.toInt).value = .integer number := by
  have low := Int64.le_toInt number
  have high := Int64.toInt_lt number
  have magnitude : number.toInt.natAbs ≤ 2 ^ 63 := by omega
  rw [value]
  simp only [ofInt, gather_natDigits (show number.toInt.natAbs < 2 ^ 64 by omega), if_true]
  by_cases negative : number.toInt < 0
  · have inside : 0 < number.toInt.natAbs ∧ number.toInt.natAbs ≤ 2 ^ 63 := by omega
    have same : (-(number.toInt.natAbs : Int)) = number.toInt := by omega
    rw [integral, Nat.pow_eq, decide_eq_true negative, if_pos rfl, if_pos inside, same, Int64.ofInt_toInt]
  · have inside : number.toInt.natAbs < 2 ^ 63 := by omega
    have same : ((number.toInt.natAbs : Nat) : Int) = number.toInt := by omega
    rw [integral, Nat.pow_eq, decide_eq_false negative, if_neg Bool.false_ne_true, if_pos inside,
      same, Int64.ofInt_toInt]

end NumberText
end Json

/-! ## Doubles -/

/-- Whether a double is read back from its written form. -/
def Double.isReadBack (number : Double) : Bool :=
  match Json.NumberText.scan? (Json.doubleLayout.text number).toList with
  | some (text, []) =>
    match text.value with
    | .double other => other = number
    | _ => false
  | _ => false

theorem Double.isReadBack_iff (number : Double) :
    number.isReadBack ↔ ∃ text : Json.NumberText,
      Json.NumberText.scan? (Json.doubleLayout.text number).toList = some (text, []) ∧
        text.value = .double number := by
  unfold isReadBack
  constructor
  · intro readBack
    grind
  · rintro ⟨text, scanned, value⟩
    simp [scanned, value]

end GraphStore
