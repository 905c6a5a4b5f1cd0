import GraphStore.Proofs.Double.Exact
import GraphStore.Proofs.Json.Numbers

/-!
# Reading written doubles

Whatever finite double is written, a finite double is read.  The reader rounds three times and drops
digits, so that it may miss the double by a few places; only at the greatest doubles could it leave
the finite ones, and there it does not.
-/

namespace GraphStore
namespace Json
namespace NumberText

variable {number : NumberText} {digits rest : List Char}

/-! ## Scanning written numbers -/

/-- The text of a fraction. -/
def fractionText : Option (List Char) → List Char
  | none => []
  | some digits => '.' :: digits

/-- The text of an exponent. -/
def exponentText : Option (Bool × List Char) → List Char
  | none => []
  | some (negative, digits) => 'e' :: (if negative then '-' else '+') :: digits

/-- The text of a number. -/
def write (number : NumberText) : List Char :=
  (if number.negative then ['-'] else []) ++ (number.whole ++ (fractionText number.fraction ++
    exponentText number.exponent))

/-- Whether some characters are digits, and not none. -/
def IsDigits (digits : List Char) : Prop :=
  digits ≠ [] ∧ ∀ c ∈ digits, c.isDigit

/-- Whether the parts of a number may stand in a text. -/
structure IsProper (number : NumberText) : Prop where
  whole : IsDigits number.whole
  leading : number.whole.head? = some '0' → number.whole = ['0']
  fraction : ∀ digits, number.fraction = some digits → IsDigits digits
  exponent : ∀ negative digits, number.exponent = some (negative, digits) → IsDigits digits

theorem spanDigits_append (numeric : IsDigits digits)
    (ends : ∀ c ∈ rest.head?, c.isDigit = false) :
    Text.spanDigits (digits ++ rest) = (digits, rest) := by
  have stop : Text.spanDigits rest = ([], rest) := by
    cases rest with
    | nil => rfl
    | cons c rest =>
        have other := ends c rfl
        simp [Text.spanDigits, other]
  simp only [Text.spanDigits, Prod.mk.injEq] at stop ⊢
  rw [List.takeWhile_append_of_pos numeric.2, List.dropWhile_append_of_pos numeric.2, stop.1, stop.2]
  exact ⟨List.append_nil _, rfl⟩

theorem scanExponent?_exponentText (proper : number.IsProper) :
    scanExponent? (exponentText number.exponent) = some (number.exponent, []) := by
  cases given : number.exponent with
  | none => rfl
  | some part =>
      obtain ⟨negative, digits⟩ := part
      obtain ⟨some, numeric⟩ := proper.exponent negative digits given
      have scanned : Text.spanDigits digits = (digits, []) := spanDigits_of_all numeric
      cases negative <;>
        simp [exponentText, scanExponent?, Text.takeSign, scanned, some]

theorem head?_exponentText (exponent : Option (Bool × List Char)) :
    ∀ c ∈ (exponentText exponent).head?, c = 'e' := by
  cases exponent with
  | none => simp [exponentText]
  | some part => simp [exponentText]

theorem scanFraction?_fractionText (proper : number.IsProper) :
    scanFraction? (fractionText number.fraction ++ exponentText number.exponent) =
      some (number.fraction, exponentText number.exponent) := by
  have mark := head?_exponentText number.exponent
  cases given : number.fraction with
  | none =>
      rw [fractionText, List.nil_append]
      unfold scanFraction?
      split
      · next rest text =>
          rw [text] at mark
          exact absurd (mark '.' rfl) (by decide)
      · rfl
  | some digits =>
      have numeric := proper.fraction digits given
      have scanned := spanDigits_append numeric fun c member => by
        rw [mark c member]
        rfl
      simp only [fractionText, List.cons_append, scanFraction?, scanned, if_neg numeric.1]

/-- A number whose parts may stand in a text is scanned from its text. -/
theorem scan?_write (proper : number.IsProper) : scan? number.write = some (number, []) := by
  have tail : ∀ c ∈ (fractionText number.fraction ++ exponentText number.exponent).head?,
      c.isDigit = false := by
    cases number.fraction with
    | none =>
        intro c member
        rw [head?_exponentText _ c member]
        rfl
    | some digits =>
        rintro c ⟨⟩
        rfl
  have whole := spanDigits_append proper.whole tail
  have minus : takeMinus number.write = (number.negative, number.whole ++
      (fractionText number.fraction ++ exponentText number.exponent)) := by
    unfold write
    cases number.negative with
    | true => rfl
    | false =>
        obtain ⟨first, others, cons⟩ := List.exists_cons_of_ne_nil proper.whole.1
        have digit : first.isDigit := proper.whole.2 first (by simp [cons])
        rw [cons, List.cons_append]
        simp only [Bool.false_eq_true, if_false, List.nil_append]
        unfold takeMinus
        split
        · next same =>
            cases same
            cases digit
        · rfl
  have start : ¬(number.whole = [] ∨ number.whole.head? = some '0' ∧ number.whole ≠ ['0']) := by
    rintro (empty | ⟨leading, more⟩)
    · exact proper.whole.1 empty
    · exact more (proper.leading leading)
  simp only [scan?, minus, whole, if_neg start, scanFraction?_fractionText proper,
    scanExponent?_exponentText proper, Option.bind_eq_bind, Option.bind_some]

/-! ## Written decimals -/

/-- The parts of a written decimal. -/
def ofDecimal (negative : Bool) (decimal : Decimal) : NumberText :=
  let digits := Text.natDigits decimal.significand
  let leading : Int := decimal.exponent + digits.length - 1
  if doubleLayout.positional leading then
    if 0 ≤ decimal.exponent then
      ⟨negative, digits ++ List.replicate decimal.exponent.toNat '0', some ['0'], none⟩
    else
      let places := (-decimal.exponent).toNat
      if places < digits.length then
        ⟨negative, digits.take (digits.length - places),
          some (digits.drop (digits.length - places)), none⟩
      else ⟨negative, ['0'], some (List.replicate (places - digits.length) '0' ++ digits), none⟩
  else
    ⟨negative, digits.take 1, if digits.length ≤ 1 then none else some (digits.drop 1),
      some (leading < 0, Text.natDigits leading.natAbs)⟩

theorem write_ofDecimal (negative : Bool) (decimal : Decimal) :
    (ofDecimal negative decimal).write =
      (if negative then ['-'] else []) ++ doubleLayout.decimalText decimal := by
  unfold ofDecimal Layout.decimalText
  dsimp only
  split
  · unfold Layout.positionalText
    split
    · simp [write, fractionText, exponentText, doubleLayout]
    · dsimp only
      split
      · simp [write, fractionText, exponentText]
      · simp [write, fractionText, exponentText]
  · unfold Layout.scientificText write
    by_cases single : (Text.natDigits decimal.significand).length ≤ 1
    · simp [single, fractionText, exponentText]
    · simp [single, fractionText, exponentText]

theorem isDigits_natDigits (value : Nat) : IsDigits (Text.natDigits value) :=
  ⟨Text.natDigits_ne_nil value, fun _ => Text.isDigit_of_mem_natDigits value⟩

theorem IsDigits.of_subset {digits some : List Char} (numeric : IsDigits digits)
    (subset : ∀ c ∈ some, c ∈ digits) (nonempty : some ≠ []) : IsDigits some :=
  ⟨nonempty, fun c member => numeric.2 c (subset c member)⟩

/-- A decimal that is zero is written without exponent. -/
theorem isProper_ofDecimal (negative : Bool) {decimal : Decimal}
    (plain : decimal.significand = 0 → decimal.exponent = 0) :
    (ofDecimal negative decimal).IsProper := by
  have numeric := isDigits_natDigits decimal.significand
  have zero : IsDigits ['0'] := ⟨List.cons_ne_nil _ _, by simp⟩
  have leads : (Text.natDigits decimal.significand).head? = some '0' →
      decimal.significand = 0 := fun leading => by
    have value := congrArg Text.digitsValue (Text.natDigits_eq_of_head?_eq_zero leading)
    rw [Text.digitsValue_natDigits] at value
    exact value
  have first : ∀ count, 0 < count →
      ((Text.natDigits decimal.significand).take count).head? = some '0' →
      (Text.natDigits decimal.significand).take count = ['0'] := fun count positive leading => by
    rw [List.head?_take, if_neg (by omega)] at leading
    rw [Text.natDigits_eq_of_head?_eq_zero leading, List.take_of_length_le (Nat.succ_le_of_lt positive)]
  have length : 0 < (Text.natDigits decimal.significand).length :=
    List.length_pos_iff.2 numeric.1
  unfold ofDecimal
  dsimp only
  split
  · split
    · next up =>
        refine ⟨⟨by simp [numeric.1], fun c member => ?_⟩, fun leading => ?_, ?_, by simp⟩
        · rcases List.mem_append.1 member with member | member
          · exact numeric.2 c member
          · rw [List.eq_of_mem_replicate member]
            rfl
        · rw [List.head?_append_of_ne_nil _ numeric.1] at leading
          rw [plain (leads leading), Text.natDigits_eq_of_head?_eq_zero leading]
          rfl
        · rintro digits ⟨⟩
          exact zero
    · next down =>
        split
        · next inside =>
            refine ⟨numeric.of_subset (fun c => List.mem_of_mem_take) ?_, first _ (by omega), ?_,
              by simp⟩
            · simp only [ne_eq, List.take_eq_nil_iff, not_or]
              exact ⟨by omega, numeric.1⟩
            · rintro digits ⟨⟩
              refine numeric.of_subset (fun c => List.mem_of_mem_drop) ?_
              simp only [ne_eq, List.drop_eq_nil_iff]
              omega
        · refine ⟨zero, fun _ => rfl, ?_, by simp⟩
          rintro digits ⟨⟩
          refine ⟨by simp [numeric.1], fun c member => ?_⟩
          rcases List.mem_append.1 member with member | member
          · rw [List.eq_of_mem_replicate member]
            rfl
          · exact numeric.2 c member
  · refine ⟨numeric.of_subset (fun c => List.mem_of_mem_take) ?_, first 1 Nat.one_pos, ?_, ?_⟩
    · simp [numeric.1]
    · intro digits given
      split at given
      · cases given
      · next several =>
          cases given
          refine numeric.of_subset (fun c => List.mem_of_mem_drop) ?_
          simp only [ne_eq, List.drop_eq_nil_iff]
          omega
    · rintro negative digits ⟨⟩
      exact isDigits_natDigits _

/-! ## The decimal of a number -/

/-- The power of ten that an exponent writes. -/
def power : Option (Bool × List Char) → Int
  | none => 0
  | some (true, digits) => -(Text.digitsValue digits : Int)
  | some (false, digits) => Text.digitsValue digits

/-- The decimal that a number writes. -/
def decimal (number : NumberText) : Decimal :=
  ⟨Text.digitsValue (number.whole ++ number.fraction.getD []),
    power number.exponent - (number.fraction.getD []).length⟩

theorem power_natDigits (exponent : Int) :
    power (some (exponent < 0, Text.natDigits exponent.natAbs)) = exponent := by
  by_cases negative : exponent < 0
  · rw [decide_eq_true negative, power, Text.digitsValue_natDigits]
    omega
  · rw [decide_eq_false negative, power, Text.digitsValue_natDigits]
    omega

/-- A decimal and its written form are the same number. -/
theorem decimal_ofDecimal (negative : Bool) (decimal : Decimal) : ∃ zeros : Nat,
    (ofDecimal negative decimal).decimal =
      ⟨decimal.significand * 10 ^ zeros, decimal.exponent - zeros⟩ := by
  have value := Text.digitsValue_natDigits decimal.significand
  have length : 0 < (Text.natDigits decimal.significand).length :=
    List.length_pos_iff.2 (Text.natDigits_ne_nil _)
  unfold ofDecimal
  dsimp only
  split
  · split
    · next up =>
        refine ⟨decimal.exponent.toNat + 1, congrArg₂ Decimal.mk ?_ ?_⟩
        · rw [Option.getD_some, List.append_assoc, ← List.replicate_one,
            List.replicate_append_replicate, Text.digitsValue_append_zeros, value]
        · simp only [power, Option.getD_some, List.length_singleton]
          omega
    · split
      · next inside =>
          refine ⟨0, congrArg₂ Decimal.mk ?_ ?_⟩
          · rw [Option.getD_some, List.take_append_drop, value, Nat.pow_zero, Nat.mul_one]
          · simp only [power, Option.getD_some, List.length_drop]
            omega
      · next before =>
          refine ⟨0, congrArg₂ Decimal.mk ?_ ?_⟩
          · rw [Option.getD_some, ← List.replicate_one, ← List.append_assoc,
              List.replicate_append_replicate, Text.digitsValue_zeros_append, value, Nat.pow_zero,
              Nat.mul_one]
          · simp only [power, Option.getD_some, List.length_append, List.length_replicate]
            omega
  · refine ⟨0, ?_⟩
    have parts : (Text.natDigits decimal.significand).take 1 ++
        (if (Text.natDigits decimal.significand).length ≤ 1 then none
          else some ((Text.natDigits decimal.significand).drop 1)).getD [] =
          Text.natDigits decimal.significand := by
      split
      · next single => rw [Option.getD_none, List.append_nil, List.take_of_length_le single]
      · rw [Option.getD_some, List.take_append_drop]
    have lengths := congrArg List.length parts
    rw [List.length_append, List.length_take, Nat.min_eq_left length] at lengths
    refine congrArg₂ Decimal.mk ?_ ?_
    · dsimp only
      rw [parts, value, Nat.pow_zero, Nat.mul_one]
    · dsimp only
      rw [power_natDigits]
      omega

/-! ## The value of a number -/

/-- Digits are dropped as long as they do not fit. -/
theorem gather_mul_pow_le (digits : List Char) (start : Nat) :
    (gather start digits).1 * 10 ^ (gather start digits).2 ≤
      start * 10 ^ digits.length + Text.digitsValue digits := by
  induction digits generalizing start with
  | nil => simp [gather]
  | cons digit rest ih =>
      have value : start * 10 ^ (digit :: rest).length + Text.digitsValue (digit :: rest) =
          (start * 10 + Text.digitValue digit) * 10 ^ rest.length + Text.digitsValue rest := by
        rw [← Text.foldl_digitValue, ← Text.foldl_digitValue]
        rfl
      rw [gather]
      split
      · rw [value]
        exact ih _
      · exact Nat.le_add_right _ _

/-- The value of a number is a significand of at most 64 bits, scaled, which is not greater than the
written decimal. -/
theorem exists_value_eq_scaled {number : NumberText}
    (small : Text.digitsValue number.whole < 2 ^ 64)
    (fractional : number.fraction ≠ none ∨ number.exponent ≠ none) :
    ∃ significand dropped : Nat, significand < 2 ^ 64 ∧
      significand * 10 ^ dropped ≤ number.decimal.significand ∧
      number.value = scaled number.negative significand (dropped + number.decimal.exponent) := by
  have whole : gather 0 number.whole = (Text.digitsValue number.whole, 0) := gather_eq _ _ small
  let gathered := gather (Text.digitsValue number.whole) (number.fraction.getD [])
  have bounded := gather_mul_pow_le (number.fraction.getD []) (Text.digitsValue number.whole)
  refine ⟨gathered.1, gathered.2, ?_, ?_, ?_⟩
  · exact gather_fst_lt _ small
  · rw [decimal, Text.digitsValue_append]
    exact bounded
  · rw [value, whole]
    cases givenFraction : number.fraction with
    | none =>
        cases givenExponent : number.exponent with
        | none => exact absurd fractional (by simp [givenFraction, givenExponent])
        | some part =>
            obtain ⟨negative, digits⟩ := part
            cases negative <;> simp [gathered, decimal, power, givenFraction, givenExponent, gather]
    | some fraction =>
        have shifted : ∀ power : Int, ((0 : Nat) : Int) - ((fraction.length : Int) -
            (gather (Text.digitsValue number.whole) fraction).2) + power =
            (gather (Text.digitsValue number.whole) fraction).2 + (power - fraction.length) := by
          omega
        cases givenExponent : number.exponent with
        | none =>
            simp only [gathered, decimal, power, givenFraction, givenExponent, Option.getD_some,
              shifted]
        | some part =>
            obtain ⟨negative, digits⟩ := part
            cases negative <;>
              simp only [gathered, decimal, power, givenFraction, givenExponent, Option.getD_some,
                shifted]

/-! ## Scaled numbers -/

theorem unitsInOne_le_powerPlace (exponent : Nat) :
    Double.unitsInOne ≤ Double.units (powerPlace exponent) :=
  Double.unitsInOne_le_units_nearestPlace (Nat.pow_pos (by decide))

theorem scalePlace?_lt {place : Nat} {exponent : Int} (finite : place < Double.infinityPlace)
    {result : Nat} (scaled : scalePlace? place exponent = some result) :
    result < Double.infinityPlace := by
  have zero : 0 < Double.infinityPlace := by decide
  induction place, exponent using scalePlace?.induct with
  | case1 place exponent up small product below =>
      rw [scalePlace?, if_pos up, if_pos small, if_pos below] at scaled
      exact Option.some.inj scaled ▸ below
  | case2 place exponent up small product beyond =>
      rw [scalePlace?, if_pos up, if_pos small, if_neg beyond] at scaled
      cases scaled
  | case3 exponent up large =>
      rw [scalePlace?, if_pos up, if_neg large, if_pos rfl] at scaled
      exact Option.some.inj scaled ▸ zero
  | case4 place exponent up large positive =>
      rw [scalePlace?, if_pos up, if_neg large, if_neg positive] at scaled
      cases scaled
  | case5 place exponent down small =>
      rw [scalePlace?, if_neg down, if_pos small] at scaled
      exact Option.some.inj scaled ▸
        Double.divPlace_lt_infinityPlace finite (unitsInOne_le_powerPlace _)
  | case6 exponent down large =>
      rw [scalePlace?, if_neg down, if_neg large, if_pos rfl] at scaled
      exact Option.some.inj scaled ▸ zero
  | case7 place exponent down large positive ih =>
      rw [scalePlace?, if_neg down, if_neg large, if_neg positive] at scaled
      exact ih (Double.divPlace_lt_infinityPlace finite (unitsInOne_le_powerPlace _)) scaled

/-- Dividing by a power of ten does not fail. -/
theorem isSome_scalePlace?_of_neg {place : Nat} {exponent : Int} (negative : exponent < 0) :
    (scalePlace? place exponent).isSome := by
  induction place, exponent using scalePlace?.induct with
  | case1 | case2 | case3 | case4 => omega
  | case5 place exponent down small => rw [scalePlace?, if_neg down, if_pos small]; rfl
  | case6 exponent down large => rw [scalePlace?, if_neg down, if_neg large, if_pos rfl]; rfl
  | case7 place exponent down large positive ih =>
      rw [scalePlace?, if_neg down, if_neg large, if_neg positive]
      refine ih ?_
      simp only [greatestPower] at *
      omega

/-- The product of a significand and a power of ten is finite if it is a little below the greatest
double, whatever its factors are rounded to. -/
theorem isSome_scalePlace?_of_le {significand exponent : Nat} (positive : 0 < significand)
    (bounded : significand * 10 ^ exponent * Double.unitsInOne ≤
      Double.units (Double.infinityPlace - 3)) :
    (scalePlace? (Double.nearestPlace significand 1).val exponent).isSome := by
  have greatest : Double.units (Double.infinityPlace - 3) = (2 ^ 53 - 3) * 2 ^ 2045 := by
    decide +kernel
  rw [greatest] at bounded
  have small : exponent ≤ greatestPower := by
    by_contra large
    have beyond : (2 ^ 53 - 3) * 2 ^ 2045 < 10 ^ 309 * Double.unitsInOne := by decide +kernel
    have power : 10 ^ 309 ≤ significand * 10 ^ exponent :=
      Nat.le_trans (Nat.pow_le_pow_right (by decide) (Nat.lt_of_not_le large))
        (Nat.le_mul_of_pos_left _ positive)
    have scaled := Nat.mul_le_mul_right Double.unitsInOne power
    omega
  have significandUnits := Double.units_nearestPlace_le significand
  have powerUnits := Double.units_nearestPlace_le (10 ^ exponent)
  have units : Double.units (Double.nearestPlace significand 1).val *
      Double.units (powerPlace exponent) ≤ Double.greatestUnits * Double.unitsInOne := by
    rw [powerPlace, Nat.pow_eq]
    generalize Double.units (Double.nearestPlace significand 1).val = left at significandUnits ⊢
    generalize Double.units (Double.nearestPlace (10 ^ exponent) 1).val = right at powerUnits ⊢
    have rounded : (2 ^ 53 + 1) * (2 ^ 53 + 1) * ((2 ^ 53 - 3) * 2 ^ 2045) ≤
        2 ^ 53 * 2 ^ 53 * Double.greatestUnits := by decide +kernel
    refine Nat.le_of_mul_le_mul_left (c := 2 ^ 53 * 2 ^ 53) ?_ (by decide)
    calc 2 ^ 53 * 2 ^ 53 * (left * right)
        = 2 ^ 53 * left * (2 ^ 53 * right) := by ring
      _ ≤ (2 ^ 53 + 1) * (significand * Double.unitsInOne) *
            ((2 ^ 53 + 1) * (10 ^ exponent * Double.unitsInOne)) :=
          Nat.mul_le_mul significandUnits powerUnits
      _ = (2 ^ 53 + 1) * (2 ^ 53 + 1) * (significand * 10 ^ exponent * Double.unitsInOne) *
            Double.unitsInOne := by ring
      _ ≤ (2 ^ 53 + 1) * (2 ^ 53 + 1) * ((2 ^ 53 - 3) * 2 ^ 2045) * Double.unitsInOne :=
          Nat.mul_le_mul_right _ (Nat.mul_le_mul_left _ bounded)
      _ ≤ 2 ^ 53 * 2 ^ 53 * Double.greatestUnits * Double.unitsInOne :=
          Nat.mul_le_mul_right _ rounded
      _ = 2 ^ 53 * 2 ^ 53 * (Double.greatestUnits * Double.unitsInOne) := by ring
  have product : (Double.mulPlace (Double.nearestPlace significand 1).val
      (powerPlace exponent)).val < Double.infinityPlace := by
    refine Double.nearestPlace_lt_infinityPlace
      (Nat.mul_pos Double.unitsInOne_pos Double.unitsInOne_pos) ?_
    rw [← Nat.mul_assoc]
    exact Nat.mul_le_mul_right _ units
  rw [scalePlace?, if_pos (Int.natCast_nonneg _), if_pos (by exact_mod_cast small)]
  simp only [Int.toNat_natCast, if_pos product, Option.isSome_some]

theorem isSome_scalePlace?_zero (exponent : Nat) :
    (scalePlace? (Double.nearestPlace 0 1).val exponent).isSome := by
  have zero : (Double.nearestPlace 0 1).val = 0 :=
    Double.nearestPlace_of_units Nat.zero_lt_one (Nat.zero_le _) (by simp [Double.units])
  have product : (Double.mulPlace 0 (powerPlace exponent)).val < Double.infinityPlace := by
    have none : Double.units 0 * Double.units (powerPlace exponent) = 0 := by simp [Double.units]
    rw [Double.mulPlace, none]
    refine Double.nearestPlace_lt_infinityPlace
      (Nat.mul_pos Double.unitsInOne_pos Double.unitsInOne_pos) ?_
    rw [Nat.zero_mul]
    exact Nat.zero_le _
  rw [zero, scalePlace?, if_pos (Int.natCast_nonneg _)]
  simp only [Int.toNat_natCast, if_pos product]
  split <;> rfl

/-- What a decimal that is less than some greatest double is scaled to is finite. -/
theorem isSome_scalePlace? {decimal : Decimal} {units : Nat} (bounded : decimal.AtMost units)
    (below : units ≤ Double.units (Double.infinityPlace - 3)) {significand dropped : Nat}
    (least : significand * 10 ^ dropped ≤ decimal.significand) :
    (scalePlace? (Double.nearestPlace significand 1).val (dropped + decimal.exponent)).isSome := by
  rcases Int.lt_or_le (dropped + decimal.exponent) 0 with negative | positive
  · exact isSome_scalePlace?_of_neg negative
  obtain ⟨exponent, same⟩ := Int.eq_ofNat_of_zero_le positive
  rw [same]
  rcases Nat.eq_zero_or_pos significand with rfl | some
  · exact isSome_scalePlace?_zero exponent
  · refine isSome_scalePlace?_of_le some (Nat.le_trans ?_ below)
    have shifted : decimal.exponent = exponent - dropped := by omega
    have less := (Decimal.atMost_iff shifted).1 bounded
    have power : 0 < 10 ^ dropped := Nat.pow_pos (by decide)
    refine Nat.le_of_mul_le_mul_right ?_ power
    calc significand * 10 ^ exponent * Double.unitsInOne * 10 ^ dropped
        = significand * 10 ^ dropped * 10 ^ exponent * Double.unitsInOne := by ring
      _ ≤ decimal.significand * 10 ^ exponent * Double.unitsInOne :=
          Nat.mul_le_mul_right _ (Nat.mul_le_mul_right _ least)
      _ ≤ units * 10 ^ dropped := less

/-- Whether a value is a finite double, an integer, or beyond the doubles. -/
def IsNumber (value : Json) : Prop :=
  (∃ number, value = .double number ∧ number.isFinite) ∨ (∃ number, value = .integer number) ∨
    value = .unreadable

theorem isNumber_nearest (negative : Bool) {magnitude : Nat} (small : magnitude < 2 ^ 64) :
    IsNumber (.double (Double.nearest negative magnitude 1)) := by
  have less := Double.nearestPlace_one_lt_infinityPlace (Nat.le_of_lt small)
  exact .inl ⟨_, rfl, by simpa [Double.nearest, Double.isFinite] using less⟩

theorem isNumber_scaled (negative : Bool) {significand : Nat} (exponent : Int)
    (small : significand < 2 ^ 64) : IsNumber (scaled negative significand exponent) := by
  unfold scaled
  split
  · next place found =>
      have start := Double.nearestPlace_one_lt_infinityPlace (Nat.le_of_lt small)
      have less := scalePlace?_lt start found
      refine .inl ⟨_, rfl, decide_eq_true ?_⟩
      exact Nat.lt_of_le_of_lt (Nat.min_le_left _ _) less
  · exact .inr (.inr rfl)

theorem isNumber_integral (negative : Bool) {magnitude : Nat} (small : magnitude < 2 ^ 64) :
    IsNumber (integral negative magnitude) := by
  unfold integral
  split
  · split
    · exact .inr (.inl ⟨_, rfl⟩)
    · exact isNumber_nearest true small
  · split
    · exact .inr (.inl ⟨_, rfl⟩)
    · exact isNumber_nearest false small

theorem isNumber_value (number : NumberText) : IsNumber number.value := by
  have wholeSmall : (gather 0 number.whole).1 < 2 ^ 64 := gather_fst_lt _ (by decide)
  unfold value
  simp only
  split
  · split
    · exact isNumber_integral _ wholeSmall
    · exact isNumber_scaled _ _ wholeSmall
  · exact isNumber_scaled _ _ (gather_fst_lt _ wholeSmall)

/-! ## Written doubles -/

theorem digitsValue_lt {digits : List Char} (numeric : ∀ c ∈ digits, c.isDigit) :
    Text.digitsValue digits < 10 ^ digits.length := by
  induction digits using List.reverseRecOn with
  | nil => decide
  | append_singleton digits c ih =>
      have earlier := ih fun other member => numeric other (List.mem_append_left _ member)
      have digit := numeric c (by simp)
      simp only [Char.isDigit, Bool.and_eq_true, decide_eq_true_eq] at digit
      have last : Text.digitsValue [c] < 10 := by
        simp only [Text.digitsValue, List.foldl_cons, List.foldl_nil, Text.digitValue]
        have high : c.toNat ≤ 57 := digit.2
        have zero : '0'.toNat = 48 := rfl
        omega
      rw [Text.digitsValue_append, List.length_append, List.length_singleton, Nat.pow_add]
      omega

/-- The whole part of a written decimal is small. -/
theorem digitsValue_whole_lt (negative : Bool) {decimal : Decimal}
    (proper : (ofDecimal negative decimal).IsProper) :
    Text.digitsValue (ofDecimal negative decimal).whole < 2 ^ 64 := by
  suffices short : (ofDecimal negative decimal).whole.length ≤ 16 from
    calc Text.digitsValue (ofDecimal negative decimal).whole
        < 10 ^ (ofDecimal negative decimal).whole.length := digitsValue_lt proper.whole.2
      _ ≤ 10 ^ 16 := Nat.pow_le_pow_right (by decide) short
      _ < 2 ^ 64 := by decide
  unfold ofDecimal
  dsimp only
  split
  · next positional =>
      simp only [doubleLayout, Bool.and_eq_true, decide_eq_true_eq] at positional
      split
      · rw [List.length_append, List.length_replicate]
        omega
      · split
        · rw [List.length_take]
          omega
        · exact Nat.le_of_ble_eq_true rfl
  · rw [List.length_take]
    omega

theorem isFractional_ofDecimal (negative : Bool) (decimal : Decimal) :
    (ofDecimal negative decimal).fraction ≠ none ∨
      (ofDecimal negative decimal).exponent ≠ none := by
  unfold ofDecimal
  dsimp only
  split
  · split
    · exact .inl (Option.some_ne_none _)
    · split <;> exact .inl (Option.some_ne_none _)
  · exact .inr (Option.some_ne_none _)

/-- A written decimal that is less than some greatest double is read as a finite double. -/
theorem exists_value_ofDecimal (negative : Bool) {decimal : Decimal} {units : Nat}
    (proper : (ofDecimal negative decimal).IsProper) (bounded : decimal.AtMost units)
    (below : units ≤ Double.units (Double.infinityPlace - 3)) :
    ∃ number, (ofDecimal negative decimal).value = .double number := by
  obtain ⟨significand, dropped, -, least, value⟩ := exists_value_eq_scaled
    (digitsValue_whole_lt negative proper) (isFractional_ofDecimal negative decimal)
  obtain ⟨zeros, same⟩ := decimal_ofDecimal negative decimal
  have boundedHere : (ofDecimal negative decimal).decimal.AtMost units := by
    rw [same]
    exact (Decimal.atMost_zeros _ _ zeros).2 bounded
  obtain ⟨place, found⟩ :=
    Option.isSome_iff_exists.1 (isSome_scalePlace? boundedHere below least)
  rw [value, scaled, found]
  exact ⟨_, rfl⟩

end NumberText
end Json

namespace Double

/-- The double that a written double is read as, if a double is read at all. -/
def recovered? (number : Double) : Option Double :=
  match Json.NumberText.scan? (Json.doubleLayout.text number).toList with
  | some (text, []) =>
    match text.value with
    | .double other => some other
    | _ => none
  | _ => none

theorem recovered?_eq_some_iff (number other : Double) :
    number.recovered? = some other ↔ ∃ text : Json.NumberText,
      Json.NumberText.scan? (Json.doubleLayout.text number).toList = some (text, []) ∧
        text.value = .double other := by
  unfold recovered?
  constructor
  · intro recovered
    split at recovered
    · next text scanned =>
        split at recovered
        · next value =>
            cases recovered
            exact ⟨text, scanned, value⟩
        · cases recovered
    · cases recovered
  · rintro ⟨text, scanned, value⟩
    simp only [scanned, value]

/-- The double that a written double is read as; what is no number stays as it is. -/
def recovered (number : Double) : Double :=
  number.recovered?.getD number

variable {place : Nat}

/-- The decimal of a double is not zero unless the double is, and it is less than the next double. -/
theorem atMost_decimal (finite : place < infinityPlace) :
    ((shortestDecimal .even place).significand = 0 → (shortestDecimal .even place).exponent = 0) ∧
      (shortestDecimal .even place).AtMost (units (place + 1)) := by
  rcases Nat.eq_zero_or_pos place with rfl | positive
  · exact ⟨fun _ => rfl, by simp [shortestDecimal, Decimal.AtMost]⟩
  · obtain ⟨some, bounded⟩ := atMost_shortestDecimal .even positive finite
    exact ⟨fun zero => absurd zero (Nat.ne_of_gt some), bounded⟩

/-- At the greatest doubles rounding might lead to infinity, so these are computed. -/
theorem isSome_recovered?_of_great (negative : Bool) :
    ∀ below ∈ List.range' 1 3,
      (signed negative (clampPlace (infinityPlace - below))).recovered?.isSome := by
  revert negative
  decide +kernel

/-- Whatever finite double is written, a double is read. -/
theorem isSome_recovered? {number : Double} (finite : number.isFinite) :
    number.recovered?.isSome := by
  cases number with
  | nan => cases finite
  | signed negative place =>
      have small : place.val < infinityPlace := of_decide_eq_true finite
      by_cases great : infinityPlace - 4 < place.val
      · have computed := isSome_recovered?_of_great negative (infinityPlace - place.val)
          (List.mem_range'_1.2 (by omega))
        have same : clampPlace (infinityPlace - (infinityPlace - place.val)) = place :=
          Fin.ext (by simp only [clampPlace]; omega)
        rwa [same] at computed
      · obtain ⟨plain, bounded⟩ := atMost_decimal small
        have large : 4 ≤ infinityPlace := by decide
        have proper := Json.NumberText.isProper_ofDecimal negative plain
        obtain ⟨other, value⟩ := Json.NumberText.exists_value_ofDecimal negative proper bounded
          (units_le_units (by omega))
        refine Option.isSome_iff_exists.2 ⟨other, (recovered?_eq_some_iff _ _).2 ⟨_, ?_, value⟩⟩
        rw [Layout.text, if_pos small, String.toList_ofList]
        have written := Json.NumberText.write_ofDecimal negative (shortestDecimal .even place)
        exact written ▸ Json.NumberText.scan?_write proper

/-- A finite double is scanned from its written form. -/
theorem exists_scan?_text {number : Double} (finite : number.isFinite) :
    ∃ text : Json.NumberText,
      Json.NumberText.scan? (Json.doubleLayout.text number).toList = some (text, []) ∧
        text.value = .double number.recovered := by
  obtain ⟨other, some⟩ := Option.isSome_iff_exists.1 (isSome_recovered? finite)
  have same : number.recovered = other := by rw [recovered, some, Option.getD_some]
  rw [same]
  exact (recovered?_eq_some_iff number other).1 some

theorem isFinite_recovered {number : Double} (finite : number.isFinite) :
    number.recovered.isFinite := by
  obtain ⟨text, -, value⟩ := exists_scan?_text finite
  rcases text.isNumber_value with ⟨other, same, finiteOther⟩ | ⟨integer, same⟩ | same
  · rw [value] at same
    cases same
    exact finiteOther
  · rw [value] at same
    cases same
  · rw [value] at same
    cases same

theorem recovered_of_isReadBack {number : Double} (readBack : number.isReadBack) :
    number.recovered = number := by
  rw [recovered, (recovered?_eq_some_iff number number).2 (number.isReadBack_iff.1 readBack),
    Option.getD_some]

/-- What is no number is written as a word. -/
theorem text_of_not_isFinite {number : Double} (infinite : number.isFinite = false) :
    Json.doubleLayout.text number = "null" := by
  cases number with
  | nan => rfl
  | signed negative place =>
      simp only [isFinite, decide_eq_false_iff_not] at infinite
      simp [Layout.text, infinite, Json.doubleLayout]

theorem recovered_of_not_isFinite {number : Double} (infinite : number.isFinite = false) :
    number.recovered = number := by
  have none : number.recovered? = none := by
    rw [recovered?, text_of_not_isFinite infinite]
    rfl
  rw [recovered, none, Option.getD_none]

end Double
end GraphStore
