import GraphStore.Double.Decimal
import GraphStore.Proofs.Double.Places

/-!
# How far rounding goes

A quotient that is rounded to a place lies below the next place, and a whole number grows by at most
one part in `2 ^ 53` when it is rounded.  Decimals are compared with places in units.
-/

namespace GraphStore
namespace Double

variable {place numerator denominator value : Nat}

/-! ## Places and their units -/

theorem units_le_units {left right : Nat} (le : left ≤ right) : units left ≤ units right := by
  have binades : binade left ≤ binade right :=
    Nat.sub_le_sub_right (Nat.div_le_div_right le) 1
  rcases Nat.lt_or_eq_of_le binades with less | same
  · have below : left < (binade left + 2) * 2 ^ 52 := by
      simp only [binade, Nat.pow_eq]
      omega
    have above : (binade left + 1 + 1) * 2 ^ 52 ≤ right := by
      simp only [binade, Nat.pow_eq] at less ⊢
      omega
    have power : 2 ^ 53 * 2 ^ binade left = 2 ^ (52 + (binade left + 1)) := by
      rw [← Nat.pow_add, Nat.add_comm (binade left), ← Nat.add_assoc]
    calc units left ≤ (2 ^ 53 - 1) * 2 ^ binade left := units_le below
      _ ≤ 2 ^ 53 * 2 ^ binade left := Nat.mul_le_mul_right _ (Nat.sub_le _ _)
      _ = 2 ^ (52 + (binade left + 1)) := power
      _ ≤ units right := le_units above rfl
  · unfold units
    rw [← same]
    exact Nat.mul_le_mul_right _ (Nat.sub_le_sub_right le _)

/-- The units of a place that is given by a significand of fifty-three bits and an exponent.  The
significand may be rounded up to the next power of two. -/
theorem units_of_significand {exponent significand : Nat} (low : 2 ^ 52 ≤ significand)
    (high : significand ≤ 2 ^ 53) :
    units (exponent * 2 ^ 52 + significand) = significand * 2 ^ exponent := by
  rcases Nat.lt_or_eq_of_le high with less | rfl
  · have same : binade (exponent * 2 ^ 52 + significand) = exponent := by
      simp only [binade, Nat.pow_eq]
      omega
    rw [units, same]
    simp only [Nat.pow_eq]
    rw [Nat.add_sub_cancel_left]
  · have next : binade (exponent * 2 ^ 52 + 2 ^ 53) = exponent + 1 := by
      simp only [binade, Nat.pow_eq]
      omega
    have rest : exponent * 2 ^ 52 + 2 ^ 53 - (exponent + 1) * 2 ^ 52 = 2 ^ 52 := by omega
    rw [units, next]
    simp only [Nat.pow_eq]
    rw [rest, Nat.pow_succ]
    omega

/-! ## From below -/

/-- A quotient that reaches a place is rounded to that place or to a later one. -/
theorem le_nearestPlace (positive : 0 < denominator) (exists_ : place ≤ infinityPlace)
    (reaches : units place * denominator ≤ numerator * unitsInOne) :
    place ≤ (nearestPlace numerator denominator).val := by
  have reached : units place ≤ numerator * unitsInOne / denominator :=
    (Nat.le_div_iff_mul_le positive).2 reaches
  simp only [nearestPlace, clampPlace, Nat.pow_eq]
  generalize numerator * unitsInOne = scaled at reached ⊢
  generalize exponent_eq : (scaled / denominator).log2 - 52 = exponent
  have rounded := le_roundQuotient scaled (denominator * 2 ^ exponent)
  rw [← Nat.div_div_eq_div_mul] at rounded
  refine Nat.le_min.2 ⟨?_, exists_⟩
  have spread : place < (binade place + 2) * 2 ^ 52 ∧ binade place * 2 ^ 52 ≤ place := by
    simp only [binade, Nat.pow_eq]
    omega
  rcases Nat.lt_trichotomy (binade place) exponent with less | same | greater
  · have normal : 2 ^ 52 ≤ scaled / denominator := by
      refine (Nat.le_log2 ?_).1 (by omega)
      rintro zero
      simp [zero] at exponent_eq
      omega
    have filled := le_significand normal
    rw [exponent_eq] at filled
    omega
  · have significand : place - binade place * 2 ^ 52 ≤ scaled / denominator / 2 ^ exponent := by
      refine (Nat.le_div_iff_mul_le (Nat.two_pow_pos _)).2 ?_
      rw [← same]
      exact reached
    omega
  · -- The place is not of the first binade, so its units fill all bits of the significand.
    obtain ⟨lower, next⟩ : ∃ lower, binade place = lower + 1 := Nat.exists_eq_add_one.2 (by omega)
    have filled : 2 ^ (52 + binade place) ≤ scaled / denominator :=
      Nat.le_trans (le_units (by simp only [binade, Nat.pow_eq] at *; omega) rfl) reached
    have positiveUnits : scaled / denominator ≠ 0 :=
      Nat.ne_of_gt (Nat.lt_of_lt_of_le (Nat.two_pow_pos _) filled)
    have log := (Nat.le_log2 positiveUnits).2 filled
    omega

/-- A quotient that is rounded to a finite place lies below the next place. -/
theorem lt_units_of_nearestPlace (positive : 0 < denominator)
    (rounded : (nearestPlace numerator denominator).val = place) (finite : place < infinityPlace) :
    numerator * unitsInOne < units (place + 1) * denominator := by
  by_contra reaches
  have later := le_nearestPlace positive finite (Nat.le_of_not_lt reaches)
  omega

/-! ## From above -/

theorem two_mul_roundQuotient_mul_le (numerator denominator : Nat) :
    2 * (roundQuotient numerator denominator * denominator) ≤ 2 * numerator + denominator := by
  have whole := Nat.div_add_mod numerator denominator
  rw [Nat.mul_comm] at whole
  have parity : numerator / denominator % 2 ≤ 1 := by omega
  unfold roundQuotient
  simp only
  split
  · omega
  · have up : ∀ quotient, quotient ≤ numerator / denominator + 1 →
        quotient * denominator ≤ numerator / denominator * denominator + denominator :=
      fun quotient le => Nat.le_trans (Nat.mul_le_mul_right _ le) (by rw [Nat.add_mul, Nat.one_mul])
    split
    · have bound := up _ (Nat.le_refl _)
      omega
    · have bound := up (numerator / denominator + numerator / denominator % 2) (by omega)
      omega

/-- A whole number grows by at most one part in `2 ^ 53` when it is rounded. -/
theorem units_nearestPlace_le (value : Nat) :
    2 ^ 53 * units (nearestPlace value 1).val ≤ (2 ^ 53 + 1) * (value * unitsInOne) := by
  simp only [nearestPlace, clampPlace, Nat.div_one, Nat.one_mul, Nat.pow_eq]
  rcases Nat.eq_zero_or_pos value with rfl | positive
  · simp [units, roundQuotient, binade]
  have large : 2 ^ 52 ≤ value * unitsInOne :=
    Nat.le_trans (Nat.pow_le_pow_right (by decide) (by decide : 52 ≤ 1074))
      (Nat.le_mul_of_pos_left _ positive)
  generalize value * unitsInOne = scaled at large ⊢
  have notZero : scaled ≠ 0 := by omega
  have log := (Nat.le_log2 notZero).2 large
  obtain ⟨exponent, sum⟩ := Nat.exists_eq_add_of_le log
  rw [sum, Nat.add_sub_cancel_left]
  have below : 2 ^ (52 + exponent) ≤ scaled := sum ▸ Nat.log2_self_le notZero
  have low := le_significand ((Nat.div_one scaled).symm ▸ large)
  have high := significand_le Nat.zero_lt_one scaled
  rw [Nat.div_one, Nat.one_mul, sum, Nat.add_sub_cancel_left] at low high
  have half := two_mul_roundQuotient_mul_le scaled (2 ^ exponent)
  have smaller := units_le_units (Nat.min_le_left (exponent * 2 ^ 52 +
    roundQuotient scaled (2 ^ exponent)) infinityPlace)
  rw [units_of_significand low high] at smaller
  rw [Nat.pow_add] at below
  omega

end Double

/-! ## Decimals -/

namespace Decimal

variable {decimal : Decimal} {units : Nat}

/-- Whether a decimal is at most some units. -/
def AtMost (decimal : Decimal) (units : Nat) : Prop :=
  decimal.significand * 10 ^ decimal.exponent.toNat * Double.unitsInOne ≤
    units * 10 ^ (-decimal.exponent).toNat

/-- The exponent may be split into a factor on either side. -/
theorem atMost_iff {up down : Nat} (difference : decimal.exponent = up - down) :
    decimal.AtMost units ↔
      decimal.significand * 10 ^ up * Double.unitsInOne ≤ units * 10 ^ down := by
  have sum : decimal.exponent.toNat + down = up + (-decimal.exponent).toNat := by omega
  have left : decimal.significand * 10 ^ decimal.exponent.toNat * Double.unitsInOne * 10 ^ down =
      decimal.significand * Double.unitsInOne * 10 ^ (decimal.exponent.toNat + down) := by
    ring
  have right : decimal.significand * 10 ^ up * Double.unitsInOne *
      10 ^ (-decimal.exponent).toNat =
      decimal.significand * Double.unitsInOne * 10 ^ (decimal.exponent.toNat + down) := by
    rw [sum]
    ring
  have swap : units * 10 ^ (-decimal.exponent).toNat * 10 ^ down =
      units * 10 ^ down * 10 ^ (-decimal.exponent).toNat := by
    ring
  rw [AtMost, ← Nat.mul_le_mul_right_iff (Nat.pow_pos (by decide : 0 < 10) : 0 < 10 ^ down), left,
    ← right, swap, Nat.mul_le_mul_right_iff (Nat.pow_pos (by decide : 0 < 10))]

/-- Zeros may be appended to the significand. -/
theorem atMost_zeros (significand : Nat) (exponent : Int) (zeros : Nat) :
    AtMost ⟨significand * 10 ^ zeros, exponent - zeros⟩ units ↔
      AtMost ⟨significand, exponent⟩ units := by
  rw [@atMost_iff ⟨significand * 10 ^ zeros, exponent - zeros⟩ units exponent.toNat
      ((-exponent).toNat + zeros) (by push_cast; omega),
    @atMost_iff ⟨significand, exponent⟩ units exponent.toNat (-exponent).toNat (by dsimp only; omega)]
  dsimp only
  have left : significand * 10 ^ zeros * 10 ^ exponent.toNat * Double.unitsInOne =
      significand * 10 ^ exponent.toNat * Double.unitsInOne * 10 ^ zeros := by ring
  rw [left, Nat.pow_add, ← Nat.mul_assoc,
    Nat.mul_le_mul_right_iff (Nat.pow_pos (by decide : 0 < 10))]

theorem atMost_reduced (decimal : Decimal) :
    decimal.reduced.AtMost units ↔ decimal.AtMost units := by
  induction decimal using reduced.induct with
  | case1 decimal divisible ih =>
      rw [reduced, if_pos divisible, ih]
      have whole : decimal.significand / 10 * 10 ^ 1 = decimal.significand := by omega
      have same := @atMost_zeros units (decimal.significand / 10) (decimal.exponent + 1) 1
      rw [whole, show decimal.exponent + 1 - (1 : Nat) = decimal.exponent by omega] at same
      exact same.symm
  | case2 decimal other => rw [reduced, if_neg other]

end Decimal

end GraphStore
