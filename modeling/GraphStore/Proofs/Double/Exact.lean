import GraphStore.Double.Shortest
import GraphStore.Proofs.Double.Rounding

/-!
# Decimals of doubles

A decimal is read as the double nearest to it, however its value is divided between its significand
and its power of ten.  A quotient that is a double is rounded to it.  So every finite double is read
back from its shortest decimal, which is less than the next double.
-/

namespace GraphStore
namespace Double

variable {numerator denominator place : Nat} {decimal : Decimal}

/-! ## Rounded quotients -/

theorem roundQuotient_mul_left {factor : Nat} (positive : 0 < factor)
    (numerator denominator : Nat) :
    roundQuotient (factor * numerator) (factor * denominator) =
      roundQuotient numerator denominator := by
  have twice : 2 * (factor * (numerator % denominator)) =
      factor * (2 * (numerator % denominator)) := Nat.mul_left_comm 2 factor _
  simp only [roundQuotient, Nat.mul_div_mul_left _ _ positive, Nat.mul_mod_mul_left, twice,
    Nat.mul_lt_mul_left positive]

/-- A quotient may be expanded. -/
theorem nearestPlace_mul_left {factor : Nat} (positive : 0 < factor)
    (numerator denominator : Nat) :
    nearestPlace (factor * numerator) (factor * denominator) =
      nearestPlace numerator denominator := by
  simp only [nearestPlace, Nat.mul_assoc, Nat.mul_div_mul_left _ _ positive,
    roundQuotient_mul_left positive]

theorem nearestPlace_congr {otherNumerator otherDenominator : Nat} (positive : 0 < denominator)
    (otherPositive : 0 < otherDenominator)
    (same : numerator * otherDenominator = otherNumerator * denominator) :
    nearestPlace numerator denominator = nearestPlace otherNumerator otherDenominator := by
  rw [← nearestPlace_mul_left otherPositive, ← nearestPlace_mul_left positive otherNumerator,
    Nat.mul_comm otherDenominator numerator, same, Nat.mul_comm otherNumerator,
    Nat.mul_comm otherDenominator]

theorem binade_mul_le (place : Nat) : binade place * 2 ^ 52 ≤ place := by
  simp only [binade, Nat.pow_eq]
  omega

/-- The units of a place are rounded in the binade of the place. -/
theorem log2_units (place : Nat) : (units place).log2 - 52 = binade place := by
  have top : place < (binade place + 2) * 2 ^ 52 := by
    simp only [binade, Nat.pow_eq]
    omega
  have bottom : 0 < binade place → (binade place + 1) * 2 ^ 52 ≤ place := by
    simp only [binade, Nat.pow_eq]
    omega
  have high : (units place).log2 ≤ 52 + binade place := by
    refine log2_lt_of_lt (Nat.lt_of_le_of_lt (units_le top) ?_)
    rw [Nat.add_right_comm, Nat.pow_add]
    exact Nat.mul_lt_mul_of_pos_right (by decide) (Nat.two_pow_pos _)
  rcases Nat.eq_zero_or_pos (binade place) with first | later
  · rw [first] at high ⊢
    exact Nat.sub_eq_zero_of_le high
  · have filled := le_units (bottom later) rfl
    have low := (Nat.le_log2
      (Nat.ne_of_gt (Nat.lt_of_lt_of_le (Nat.two_pow_pos _) filled))).2 filled
    rw [Nat.le_antisymm high low, Nat.add_sub_cancel_left]

/-- A quotient that is a double is rounded to that double. -/
theorem nearestPlace_of_units (positive : 0 < denominator) (exists_ : place ≤ infinityPlace)
    (exact : numerator * unitsInOne = units place * denominator) :
    (nearestPlace numerator denominator).val = place := by
  have reached := le_nearestPlace positive exists_ (Nat.le_of_eq exact.symm)
  simp only [nearestPlace, clampPlace, Nat.pow_eq] at reached ⊢
  generalize numerator * unitsInOne = scaled at exact reached ⊢
  have whole : scaled / denominator = units place := by
    rw [exact, Nat.mul_div_cancel _ positive]
  rw [whole, log2_units] at reached ⊢
  have rounded : roundQuotient scaled (denominator * 2 ^ binade place) ≤
      place - binade place * 2 ^ 52 := by
    refine roundQuotient_le (Nat.mul_pos positive (Nat.two_pow_pos _)) ?_
    rw [exact, units, Nat.mul_assoc, Nat.mul_comm denominator]
    exact Nat.le_refl _
  have low := binade_mul_le place
  generalize binade place * 2 ^ 52 = base at reached rounded low ⊢
  omega

/-! ## Read decimals -/

theorem nearest_zero (negative : Bool) (positive : 0 < denominator) :
    nearest negative 0 denominator = zero negative := by
  have place : (nearestPlace 0 denominator).val = 0 :=
    nearestPlace_of_units positive (Nat.zero_le _) (by simp [units])
  have first : nearestPlace 0 denominator = clampPlace 0 := Fin.ext place
  rw [nearest, zero, first]

theorem units_infinityPlace : units infinityPlace = 2 ^ 1024 * unitsInOne := by
  have significand := @units_of_significand 2046 (2 ^ 52) (Nat.le_refl _) (by decide)
  rw [show 2046 * 2 ^ 52 + 2 ^ 52 = infinityPlace by decide] at significand
  rw [significand, unitsInOne_eq, ← Nat.pow_add, ← Nat.pow_add]

/-- From the first power of two that is not finite on, everything is rounded to infinity. -/
theorem nearest_eq_infinity (negative : Bool) (positive : 0 < denominator)
    (large : 2 ^ 1024 * denominator ≤ numerator) :
    nearest negative numerator denominator = infinity negative := by
  have reached : infinityPlace ≤ (nearestPlace numerator denominator).val := by
    refine le_nearestPlace positive (Nat.le_refl _) ?_
    rw [units_infinityPlace, Nat.mul_right_comm]
    exact Nat.mul_le_mul_right _ large
  have last := (nearestPlace numerator denominator).isLt
  have place : nearestPlace numerator denominator = clampPlace infinityPlace :=
    Fin.ext ((Nat.le_antisymm (Nat.le_of_lt_succ last) reached).trans (Nat.min_self _).symm)
  rw [nearest, infinity, place]

/-- What is less than half a unit is rounded to zero. -/
theorem nearest_eq_zero (negative : Bool)
    (small : 2 * (numerator * unitsInOne) < denominator) :
    nearest negative numerator denominator = zero negative := by
  have place : nearestPlace numerator denominator = clampPlace 0 := by
    unfold nearestPlace
    generalize numerator * unitsInOne = scaled at small ⊢
    have none : scaled / denominator = 0 := Nat.div_eq_of_lt (by omega)
    have rest : scaled % denominator = scaled := Nat.mod_eq_of_lt (by omega)
    simp [none, rest, roundQuotient, small]
  rw [nearest, zero, place]

theorem lt_ten_pow_length (value : Nat) : value < 10 ^ (Nat.toDigits 10 value).length :=
  (Nat.length_toDigits_le_iff (by decide)
    (List.length_pos_iff.2 Nat.toDigits_ne_nil)).1 (Nat.le_refl _)

theorem two_pow_le_ten_pow {twos tens : Nat} (le : twos ≤ 3 * tens) : 2 ^ twos ≤ 10 ^ tens :=
  calc 2 ^ twos ≤ 2 ^ (3 * tens) := Nat.pow_le_pow_right (by decide) le
    _ = (2 ^ 3) ^ tens := Nat.pow_mul 2 3 tens
    _ ≤ 10 ^ tens := Nat.pow_le_pow_left (by decide) tens

/-- A decimal is read as the double nearest to it, also when its power of ten is out of range. -/
theorem ofDecimal_eq_nearest (negative : Bool) (decimal : Decimal) :
    ofDecimal negative decimal = nearest negative
      (decimal.significand * 10 ^ decimal.exponent.toNat) (10 ^ (-decimal.exponent).toNat) := by
  obtain ⟨significand, exponent⟩ := decimal
  have power_pos : ∀ power : Nat, 0 < 10 ^ power := fun power => Nat.pow_pos (by decide)
  unfold ofDecimal ofScientific
  dsimp only
  split
  · next none => rw [none, Nat.zero_mul, nearest_zero negative (power_pos _)]
  · next some =>
      split
      · next high =>
          refine (nearest_eq_infinity negative (power_pos _) ?_).symm
          rw [show (-exponent).toNat = 0 by omega, Nat.pow_zero, Nat.mul_one]
          calc 2 ^ 1024 ≤ 10 ^ exponent.toNat := two_pow_le_ten_pow (by omega)
            _ ≤ significand * 10 ^ exponent.toNat :=
              Nat.le_mul_of_pos_left _ (Nat.pos_of_ne_zero some)
      · split
        · next low =>
            refine (nearest_eq_zero negative ?_).symm
            have digits := lt_ten_pow_length significand
            generalize (Nat.toDigits 10 significand).length = length at digits low
            rw [show exponent.toNat = 0 by omega, Nat.pow_zero, Nat.mul_one]
            have unit : 2 * unitsInOne ≤ 10 ^ 400 := by
              rw [unitsInOne_eq, Nat.mul_comm, ← Nat.pow_succ]
              exact two_pow_le_ten_pow (by decide)
            calc 2 * (significand * unitsInOne) = significand * (2 * unitsInOne) :=
                  Nat.mul_left_comm 2 significand unitsInOne
              _ ≤ significand * 10 ^ 400 := Nat.mul_le_mul_left _ unit
              _ < 10 ^ length * 10 ^ 400 := Nat.mul_lt_mul_of_pos_right digits (power_pos _)
              _ = 10 ^ (length + 400) := (Nat.pow_add 10 length 400).symm
              _ ≤ 10 ^ (-exponent).toNat := Nat.pow_le_pow_right (by decide) (by omega)
        · split
          · next up => rw [show (-exponent).toNat = 0 by omega, Nat.pow_zero, Nat.pow_eq]
          · next down => rw [show exponent.toNat = 0 by omega, Nat.pow_zero, Nat.mul_one, Nat.pow_eq]

/-- The power of ten of a decimal may be split into a factor on either side. -/
theorem ofDecimal_eq (negative : Bool) {decimal : Decimal} {up down : Nat}
    (difference : decimal.exponent = up - down) :
    ofDecimal negative decimal =
      nearest negative (decimal.significand * 10 ^ up) (10 ^ down) := by
  have power_pos : ∀ power : Nat, 0 < 10 ^ power := fun power => Nat.pow_pos (by decide)
  rw [ofDecimal_eq_nearest, nearest, nearest, nearestPlace_congr (power_pos _) (power_pos _)]
  rw [Nat.mul_assoc, Nat.mul_assoc, ← Nat.pow_add, ← Nat.pow_add,
    show decimal.exponent.toNat + down = up + (-decimal.exponent).toNat by omega]

/-- Zeros may be appended to the significand. -/
theorem ofDecimal_zeros (negative : Bool) (significand : Nat) (exponent : Int) (zeros : Nat) :
    ofDecimal negative ⟨significand * 10 ^ zeros, exponent - zeros⟩ =
      ofDecimal negative ⟨significand, exponent⟩ := by
  rw [@ofDecimal_eq negative ⟨significand * 10 ^ zeros, exponent - zeros⟩ exponent.toNat
      ((-exponent).toNat + zeros) (by push_cast; omega),
    @ofDecimal_eq negative ⟨significand, exponent⟩ (exponent.toNat + zeros)
      ((-exponent).toNat + zeros) (by push_cast; omega)]
  dsimp only
  rw [Nat.mul_assoc, ← Nat.pow_add, Nat.add_comm zeros]

theorem ofDecimal_reduced (negative : Bool) (decimal : Decimal) :
    ofDecimal negative decimal.reduced = ofDecimal negative decimal := by
  induction decimal using Decimal.reduced.induct with
  | case1 decimal divisible ih =>
      rw [Decimal.reduced, if_pos divisible, ih]
      have whole : decimal.significand / 10 * 10 ^ 1 = decimal.significand := by omega
      have same := ofDecimal_zeros negative (decimal.significand / 10) (decimal.exponent + 1) 1
      rw [whole, show decimal.exponent + 1 - (1 : Nat) = decimal.exponent by omega] at same
      exact same.symm
  | case2 decimal other => rw [Decimal.reduced, if_neg other]

/-! ## Shortest decimals -/

theorem ofDecimal_of_readsBack (negative : Bool) (reads : readsBack place decimal) :
    ofDecimal negative decimal = .signed negative (clampPlace place) := by
  have read := beq_iff_eq.1 reads
  rw [ofDecimal_eq_nearest, nearest] at read ⊢
  rw [(Double.signed.inj read).2]

/-- A decimal that reads back as a positive finite double is a rounded quotient. -/
theorem nearestPlace_of_readsBack (positive : 0 < place) (finite : place < infinityPlace)
    (reads : readsBack place decimal) : decimal.significand ≠ 0 ∧
      (nearestPlace (decimal.significand * 10 ^ decimal.exponent.toNat)
        (10 ^ (-decimal.exponent).toNat)).val = place := by
  have read := ofDecimal_of_readsBack false reads
  rw [ofDecimal_eq_nearest] at read
  have places := congrArg Fin.val (Double.signed.inj read).2
  have rounded := places.trans (Nat.min_eq_left (Nat.le_of_lt finite))
  refine ⟨fun none => ?_, rounded⟩
  have first := nearestPlace_of_units (Nat.pow_pos (by decide) : 0 < 10 ^ (-decimal.exponent).toNat)
    (Nat.zero_le infinityPlace) (show 0 * unitsInOne = units 0 * _ by simp [units])
  rw [none, Nat.zero_mul, first] at rounded
  omega

/-- A decimal that reads back as a finite double is less than the next double. -/
theorem atMost_of_readsBack (positive : 0 < place) (finite : place < infinityPlace)
    (readsBack : readsBack place decimal) : decimal.AtMost (units (place + 1)) :=
  Nat.le_of_lt (lt_units_of_nearestPlace (Nat.pow_pos (by decide))
    (nearestPlace_of_readsBack positive finite readsBack).2 finite)

/-- A double has at most as many decimals as there are factors of two in a unit. -/
theorem exists_exactDecimal_eq (place : Nat) : ∃ fives down : Nat, 0 < fives ∧
    exactDecimal place = ⟨units place * fives, -(down : Int)⟩ ∧ fives * unitsInOne = 10 ^ down := by
  refine ⟨Nat.pow 5 1074, 1074, Nat.pow_pos (by decide), rfl, ?_⟩
  rw [unitsInOne_eq, Nat.pow_eq, ← Nat.mul_pow]

theorem units_pos (positive : 0 < place) : 0 < units place := by
  refine Nat.mul_pos ?_ (Nat.two_pow_pos _)
  simp only [binade, Nat.pow_eq]
  omega

theorem atMost_exactDecimal (positive : 0 < place) :
    0 < (exactDecimal place).significand ∧ (exactDecimal place).AtMost (units (place + 1)) := by
  obtain ⟨fives, down, some, same, factors⟩ := exists_exactDecimal_eq place
  rw [same, @Decimal.atMost_iff ⟨units place * fives, -(down : Int)⟩ _ 0 down (by simp)]
  dsimp only
  rw [Nat.pow_zero, Nat.mul_one, Nat.mul_assoc, factors]
  exact ⟨Nat.mul_pos (units_pos positive) some,
    Nat.mul_le_mul_right _ (units_le_units (Nat.le_succ place))⟩

/-- A decimal that the search finds reads back, and its exponent is where so many digits end. -/
theorem of_nearestWithDigits? {tie : TieRule} {count : Nat}
    (found : nearestWithDigits? tie place count = some decimal) :
    readsBack place decimal ∧ decimal.exponent = leadingExponent place - (count - 1) := by
  -- Unfolded as a function and with its exponent out of sight: the kernel would compute the digits.
  have unfolded : nearestWithDigits? = nearestWithDigits? := rfl
  conv at unfolded => rhs; delta nearestWithDigits?
  rw [unfolded] at found
  beta_reduce at found
  obtain ⟨exponent, same⟩ : ∃ exponent, exponent = leadingExponent place - (count - 1) := ⟨_, rfl⟩
  rw [← same] at found ⊢
  dsimp only at found
  split at found
  · cases found
  · next below _ =>
      cases found
      exact ⟨below, rfl⟩
  · next _ above =>
      cases found
      exact ⟨above, rfl⟩
  · next below above =>
      split at found
      · cases found
        exact ⟨below, rfl⟩
      · split at found
        · cases found
          exact ⟨above, rfl⟩
        · cases tie with
          | away =>
              cases found
              exact ⟨above, rfl⟩
          | even =>
              simp only [Option.some.injEq] at found
              split at found
              · exact found ▸ ⟨below, rfl⟩
              · exact found ▸ ⟨above, rfl⟩

/-- A finite double is read back from all its digits. -/
theorem readsBack_exactDecimal (finite : place < infinityPlace) :
    readsBack place (exactDecimal place) := by
  obtain ⟨fives, down, -, same, factors⟩ := exists_exactDecimal_eq place
  have positive : 0 < 10 ^ down := Nat.pow_pos (by decide)
  have exact : (nearestPlace (units place * fives * 10 ^ 0) (10 ^ down)).val = place := by
    refine nearestPlace_of_units positive (Nat.le_of_lt finite) ?_
    rw [Nat.pow_zero, Nat.mul_one, Nat.mul_assoc, factors]
  have clamped : nearestPlace (units place * fives * 10 ^ 0) (10 ^ down) = clampPlace place :=
    Fin.ext (exact.trans (Nat.min_eq_left (Nat.le_of_lt finite)).symm)
  rw [readsBack, same, @ofDecimal_eq false ⟨units place * fives, -(down : Int)⟩ 0 down (by simp),
    nearest, clamped]
  exact beq_self_eq_true _

/-- Every finite double is read back from its shortest decimal, with any sign. -/
theorem ofDecimal_shortestDecimal (tie : TieRule) (negative : Bool) (finite : place < infinityPlace) :
    ofDecimal negative (shortestDecimal tie place) = .signed negative (clampPlace place) := by
  by_cases first : place = 0
  · subst first
    rw [shortestDecimal, if_pos rfl, @ofDecimal_eq negative ⟨0, 0⟩ 0 0 rfl, Nat.zero_mul,
      nearest_zero negative (Nat.pow_pos (by decide)), zero]
  · rw [shortestDecimal, if_neg first, ofDecimal_reduced]
    refine ofDecimal_of_readsBack negative ?_
    cases search : (List.range' 1 17).findSome? (nearestWithDigits? tie place) with
    | none => exact readsBack_exactDecimal finite
    | some decimal =>
        obtain ⟨count, -, found⟩ := List.exists_of_findSome?_eq_some search
        exact (of_nearestWithDigits? found).1

theorem significand_reduced_pos (some : 0 < decimal.significand) :
    0 < decimal.reduced.significand := by
  induction decimal using Decimal.reduced.induct with
  | case1 decimal divisible ih =>
      rw [Decimal.reduced, if_pos divisible]
      exact ih (Nat.div_pos (Nat.le_of_dvd some (Nat.dvd_of_mod_eq_zero divisible.2)) (by decide))
  | case2 decimal other => rwa [Decimal.reduced, if_neg other]

/-- The shortest decimal of a positive double is not zero and less than the next double. -/
theorem atMost_shortestDecimal (tie : TieRule) (positive : 0 < place)
    (finite : place < infinityPlace) : 0 < (shortestDecimal tie place).significand ∧
      (shortestDecimal tie place).AtMost (units (place + 1)) := by
  rw [shortestDecimal, if_neg (Nat.ne_of_gt positive), Decimal.atMost_reduced]
  suffices searched : 0 < (((List.range' 1 17).findSome? (nearestWithDigits? tie place)).getD
      (exactDecimal place)).significand ∧
      (((List.range' 1 17).findSome? (nearestWithDigits? tie place)).getD
        (exactDecimal place)).AtMost (units (place + 1)) from
    ⟨significand_reduced_pos searched.1, searched.2⟩
  cases search : (List.range' 1 17).findSome? (nearestWithDigits? tie place) with
  | none => exact atMost_exactDecimal positive
  | some decimal =>
      obtain ⟨count, -, found⟩ := List.exists_of_findSome?_eq_some search
      have reads := (of_nearestWithDigits? found).1
      exact ⟨Nat.pos_of_ne_zero (nearestPlace_of_readsBack positive finite reads).1,
        atMost_of_readsBack positive finite reads⟩

end Double
end GraphStore
