import GraphStore.Proofs.Double.Exact

/-!
# Order of rounded numbers

Rounding keeps the order of quotients, and whole numbers of at most fifty-three bits are doubles.
So two integers are compared through their nearest doubles as they are compared themselves, unless
the doubles are the same, which takes two integers of more than fifty-three bits.
-/

namespace GraphStore
namespace Double

variable {left right denominator : Nat}

/-! ## Quotients -/

theorem roundQuotient_le_succ (numerator denominator : Nat) :
    roundQuotient numerator denominator ≤ numerator / denominator + 1 := by
  unfold roundQuotient
  simp only
  split
  · exact Nat.le_succ _
  · split <;> omega

theorem roundQuotient_mono (le : left ≤ right) :
    roundQuotient left denominator ≤ roundQuotient right denominator := by
  rcases Nat.lt_or_eq_of_le (@Nat.div_le_div_right _ _ denominator le) with less | same
  · calc roundQuotient left denominator ≤ left / denominator + 1 := roundQuotient_le_succ _ _
      _ ≤ right / denominator := less
      _ ≤ roundQuotient right denominator := le_roundQuotient _ _
  · -- With the same whole part the remainders decide.
    have remainders : left % denominator ≤ right % denominator := by
      have whole := Nat.div_add_mod left denominator
      have other := Nat.div_add_mod right denominator
      rw [same] at whole
      omega
    simp only [roundQuotient, same]
    split_ifs <;> omega

/-- Rounding keeps the order of quotients. -/
theorem nearestPlace_mono (positive : 0 < denominator) (le : left ≤ right) :
    nearestPlace left denominator ≤ nearestPlace right denominator := by
  have scaled : left * unitsInOne ≤ right * unitsInOne := Nat.mul_le_mul_right _ le
  unfold nearestPlace clampPlace
  generalize left * unitsInOne = lower at scaled ⊢
  generalize right * unitsInOne = upper at scaled ⊢
  simp only [Nat.pow_eq, Fin.mk_le_mk]
  apply Nat.le_min.2 ⟨Nat.le_trans (Nat.min_le_left _ _) _, Nat.min_le_right _ _⟩
  have exponents : (lower / denominator).log2 - 52 ≤ (upper / denominator).log2 - 52 :=
    by
    rw [Nat.log2_eq_log_two, Nat.log2_eq_log_two]
    exact Nat.sub_le_sub_right (Nat.log_mono_right (Nat.div_le_div_right scaled)) 52
  rcases Nat.lt_or_eq_of_le exponents with less | same
  · have normal : 2 ^ 52 ≤ upper / denominator := by
      apply (Nat.le_log2 _).1 (by omega)
      rintro zero
      simp [zero] at less
    have high := significand_le positive lower
    have low := le_significand normal
    omega
  · rw [same]
    apply Nat.add_le_add_left
    exact roundQuotient_mono scaled

/-! ## Whole numbers -/

/-- A whole number up to `2 ^ 53` that is not zero is scaled to fifty-three bits. -/
theorem exists_significand {value : Nat} (positive : 0 < value) (small : value ≤ 2 ^ 53) :
    ∃ bits rest, bits + rest = 52 ∧ 2 ^ 52 ≤ value * 2 ^ rest ∧ value * 2 ^ rest ≤ 2 ^ 53 := by
  rcases Nat.lt_or_eq_of_le small with less | rfl
  · have log := Nat.lt_succ_iff.1 ((Nat.log2_lt (Nat.ne_of_gt positive)).2 less)
    obtain ⟨rest, sum⟩ := Nat.exists_eq_add_of_le log
    have low := Nat.mul_le_mul_right (2 ^ rest) (Nat.log2_self_le (Nat.ne_of_gt positive))
    have high := Nat.mul_le_mul_right (2 ^ rest) (Nat.le_of_lt (@Nat.lt_log2_self value))
    rw [← Nat.pow_add, ← sum] at low
    rw [← Nat.pow_add, Nat.add_right_comm, ← sum] at high
    exact ⟨value.log2, rest, sum.symm, low, high⟩
  · exact ⟨52, 0, rfl, by decide, by decide⟩

/-- Whole numbers up to `2 ^ 53` are doubles. -/
theorem units_nearestPlace_of_le {value : Nat} (small : value ≤ 2 ^ 53) :
    units (nearestPlace value 1).val = value * unitsInOne := by
  rcases Nat.eq_zero_or_pos value with rfl | positive
  · rw [nearestPlace_of_units Nat.zero_lt_one (Nat.zero_le _) (by simp [units])]
    simp [units]
  · obtain ⟨bits, rest, sum, low, high⟩ := exists_significand positive small
    have significand := @units_of_significand (1022 + bits) _ low high
    have exact : value * unitsInOne =
        units ((1022 + bits) * 2 ^ 52 + value * 2 ^ rest) * 1 := by
      have total : rest + (1022 + bits) = 1074 := by omega
      rw [significand, Nat.mul_one, Nat.mul_assoc, ← Nat.pow_add, total]
      rfl
    have finite : (1022 + bits) * 2 ^ 52 + value * 2 ^ rest ≤ infinityPlace := by
      have top : infinityPlace = 2047 * 2 ^ 52 := by decide
      omega
    rw [nearestPlace_of_units Nat.zero_lt_one finite exact, exact, Nat.mul_one]

/-- A whole number below `2 ^ 53` shares its double with no other. -/
theorem eq_of_nearestPlace_eq (small : left < 2 ^ 53)
    (same : nearestPlace left 1 = nearestPlace right 1) : left = right := by
  have exact := units_nearestPlace_of_le (Nat.le_of_lt small)
  have bounded : min right (2 ^ 53) * unitsInOne ≤ left * unitsInOne := by
    rw [← exact, same, ← units_nearestPlace_of_le (Nat.min_le_right right (2 ^ 53))]
    apply units_le_units
    exact nearestPlace_mono Nat.zero_lt_one (Nat.min_le_left _ _)
  have smaller : right ≤ left := by
    have le := Nat.le_of_mul_le_mul_right bounded unitsInOne_pos
    omega
  have other := units_nearestPlace_of_le (Nat.le_of_lt (Nat.lt_of_le_of_lt smaller small))
  rw [← same, exact] at other
  exact Nat.eq_of_mul_eq_mul_right unitsInOne_pos other

/-! ## Integers -/

/-- The signed place of the double nearest to an integer. -/
def integerPlace (value : Int) : Int :=
  signedPlace (value < 0) (nearestPlace value.natAbs 1).val

variable {a b : Int}

theorem integerPlace_neg_iff : integerPlace a < 0 ↔ a < 0 := by
  by_cases negative : a < 0
  · have positive : (nearestPlace a.natAbs 1).val ≠ 0 := by
      intro zero
      have large := unitsInOne_le_units_nearestPlace (Int.natAbs_pos.2 (Int.ne_of_lt negative))
      rw [zero] at large
      have none : units 0 = 0 := Nat.zero_mul _
      exact absurd (Nat.lt_of_lt_of_le unitsInOne_pos large) (by omega)
    simp only [integerPlace, negative, decide_true, signedPlace, if_true, iff_true]
    omega
  · simp only [integerPlace, negative, signedPlace, decide_false, Bool.false_eq_true, if_false,
      iff_false, Int.not_lt]
    exact Int.natCast_nonneg _

theorem integerPlace_mono (le : a ≤ b) : integerPlace a ≤ integerPlace b := by
  have magnitudes {left right : Nat} (le : left ≤ right) :
      ((nearestPlace left 1).val : Int) ≤ (nearestPlace right 1).val :=
    Int.ofNat_le.2 (nearestPlace_mono Nat.zero_lt_one le)
  by_cases negative : a < 0
  · by_cases other : b < 0
    · have larger := magnitudes (show b.natAbs ≤ a.natAbs by omega)
      simp only [integerPlace, negative, other, signedPlace, decide_true, if_true]
      exact Int.neg_le_neg larger
    · have below := integerPlace_neg_iff.2 negative
      have above := mt integerPlace_neg_iff.1 other
      omega
  · have other : ¬b < 0 := by omega
    have larger := magnitudes (show a.natAbs ≤ b.natAbs by omega)
    simpa only [integerPlace, negative, other, signedPlace, decide_false, Bool.false_eq_true,
      if_false] using larger

theorem integerPlace_eq_iff : integerPlace a = integerPlace b ↔ ofInt a = ofInt b := by
  constructor
  · intro same
    have signs : decide (a < 0) = decide (b < 0) := by
      rw [decide_eq_decide, ← integerPlace_neg_iff, same, integerPlace_neg_iff]
    have magnitudes : (nearestPlace a.natAbs 1).val = (nearestPlace b.natAbs 1).val := by
      rw [integerPlace, integerPlace, signs] at same
      revert same
      cases decide (b < 0) <;> simp only [signedPlace, Bool.false_eq_true, if_false, if_true,
        Int.neg_inj, Int.ofNat_inj, imp_self]
    rw [ofInt, ofInt, nearest, nearest, signs, Fin.ext magnitudes]
  · intro same
    obtain ⟨signs, magnitudes⟩ := Double.signed.inj same
    rw [integerPlace, integerPlace, signs, magnitudes]

theorem integerPlace_lt (less : a < b) (differ : ofInt a ≠ ofInt b) :
    integerPlace a < integerPlace b := by
  apply Int.lt_iff_le_and_ne.2
  exact ⟨integerPlace_mono (Int.le_of_lt less), mt integerPlace_eq_iff.1 differ⟩

/-- Integers are compared through their nearest doubles as they are compared themselves, unless the
doubles are the same. -/
theorem compare?_ofInt (a b : Int) : (ofInt a).compare? (ofInt b) =
    some (if ofInt a = ofInt b then .eq else compare a b) := by
  change some (compare (integerPlace a) (integerPlace b)) = _
  congr 1
  split
  · next same => exact compare_eq_iff_eq.2 (integerPlace_eq_iff.2 same)
  · next differ =>
      rcases Int.lt_trichotomy a b with less | rfl | greater
      · rw [compare_lt_iff_lt.2 less, compare_lt_iff_lt]
        exact integerPlace_lt less differ
      · exact absurd rfl differ
      · rw [compare_gt_iff_gt.2 greater, compare_gt_iff_gt]
        exact integerPlace_lt greater (Ne.symm differ)

/-- An integer of at most fifty-three bits shares its nearest double with no other. -/
theorem eq_of_ofInt_eq (small : a.natAbs < 2 ^ 53) (same : ofInt a = ofInt b) : a = b := by
  obtain ⟨signs, magnitudes⟩ := Double.signed.inj same
  have equal := eq_of_nearestPlace_eq small magnitudes
  rw [decide_eq_decide] at signs
  omega

end Double
end GraphStore
