import Mathlib
import GraphStore.Double.Basic

/-!
# Places of rounded quotients

A quotient that is not greater than the greatest finite double is rounded to a finite place.
-/

namespace GraphStore
namespace Double

theorem roundQuotient_le {numerator denominator bound : Nat}
    (positive : 0 < denominator) (bounded : numerator ≤ bound * denominator) :
    roundQuotient numerator denominator ≤ bound := by
  have quotient_le : numerator / denominator ≤ bound :=
    Nat.div_le_of_le_mul (Nat.mul_comm bound denominator ▸ bounded)
  rcases Nat.lt_or_eq_of_le quotient_le with less | equal
  · unfold roundQuotient
    have parity : numerator / denominator % 2 ≤ 1 := by omega
    simp only
    split
    · omega
    · split <;> omega
  · -- the quotient is the bound, so nothing is left to round up
    have whole := Nat.div_add_mod numerator denominator
    rw [equal, Nat.mul_comm denominator bound] at whole
    have exact : numerator % denominator = 0 := by omega
    unfold roundQuotient
    simp [exact, positive, equal]

theorem le_roundQuotient (numerator denominator : Nat) :
    numerator / denominator ≤ roundQuotient numerator denominator := by
  unfold roundQuotient
  simp only
  split
  · exact Nat.le_refl _
  · split <;> omega

theorem log2_lt_of_lt {value exponent : Nat} (small : value < 2 ^ (exponent + 1)) :
    value.log2 ≤ exponent := by
  by_cases zero : value = 0
  · subst zero
    exact Nat.zero_le exponent
  · exact Nat.lt_succ_iff.1 ((Nat.log2_lt zero).2 small)

/-- The significand of a rounded quotient has at most fifty-three bits, or is the next power of
two. -/
theorem significand_le {denominator : Nat} (positive : 0 < denominator) (scaled : Nat) :
    roundQuotient scaled (denominator * 2 ^ ((scaled / denominator).log2 - 52)) ≤ 2 ^ 53 := by
  apply roundQuotient_le (Nat.mul_pos positive (Nat.two_pow_pos _))
  have below : scaled / denominator < 2 ^ ((scaled / denominator).log2 + 1) := Nat.lt_log2_self
  have wider : 2 ^ ((scaled / denominator).log2 + 1) ≤
      2 ^ 53 * 2 ^ ((scaled / denominator).log2 - 52) := by
    rw [← Nat.pow_add]
    apply Nat.pow_le_pow_right (by decide)
    omega
  have bounded := (Nat.div_lt_iff_lt_mul positive).1 (Nat.lt_of_lt_of_le below wider)
  rw [Nat.mul_assoc, Nat.mul_comm _ denominator] at bounded
  exact Nat.le_of_lt bounded

/-- The significand of a rounded quotient fills fifty-three bits if the quotient does. -/
theorem le_significand {scaled denominator : Nat} (normal : 2 ^ 52 ≤ scaled / denominator) :
    2 ^ 52 ≤ roundQuotient scaled (denominator * 2 ^ ((scaled / denominator).log2 - 52)) := by
  have notZero : scaled / denominator ≠ 0 := by omega
  have log := (Nat.le_log2 notZero).2 normal
  apply Nat.le_trans _ (le_roundQuotient _ _)
  rw [← Nat.div_div_eq_div_mul]
  apply (Nat.le_div_iff_mul_le (Nat.two_pow_pos _)).2
  rw [← Nat.pow_add, Nat.add_sub_cancel' log]
  exact Nat.log2_self_le notZero

/-- The place of a quotient before it is clamped, if the quotient has at most fifty-three
significant bits above a power of two. -/
private theorem unclamped_lt {scaled denominator top : Nat} (positive : 0 < denominator)
    (bounded : scaled ≤ (2 ^ 53 - 1) * 2 ^ top * denominator) :
    ((scaled / denominator).log2 - 52) * 2 ^ 52 +
      roundQuotient scaled (denominator * 2 ^ ((scaled / denominator).log2 - 52)) <
        (top + 2) * 2 ^ 52 := by
  have whole_le : scaled / denominator ≤ (2 ^ 53 - 1) * 2 ^ top :=
    Nat.div_le_of_le_mul (Nat.mul_comm _ denominator ▸ bounded)
  have power : 2 ^ (top + 52 + 1) = 2 ^ 53 * 2 ^ top := by
    rw [Nat.add_assoc, Nat.add_comm top, Nat.pow_add]
  have whole_lt : scaled / denominator < 2 ^ (top + 52 + 1) := by
    have up : (2 ^ 53 - 1) * 2 ^ top < 2 ^ 53 * 2 ^ top :=
      Nat.mul_lt_mul_of_pos_right (by decide) (Nat.two_pow_pos top)
    omega
  have log_le := log2_lt_of_lt whole_lt
  have rounded := significand_le positive scaled
  generalize exponent_eq : (scaled / denominator).log2 - 52 = exponent at rounded ⊢
  have exponent_le : exponent ≤ top := by omega
  rcases Nat.lt_or_eq_of_le exponent_le with less | equal
  · -- a significand that is rounded up to the next power of two stays below the top binade
    have later : (exponent + 1) * 2 ^ 52 ≤ top * 2 ^ 52 := Nat.mul_le_mul_right _ less
    omega
  · subst equal
    have exact : roundQuotient scaled (denominator * 2 ^ exponent) ≤ 2 ^ 53 - 1 := by
      refine roundQuotient_le (Nat.mul_pos positive (Nat.two_pow_pos exponent)) ?_
      rw [Nat.mul_comm denominator, ← Nat.mul_assoc]
      exact bounded
    omega

/-- The number of units in the greatest finite double. -/
def greatestUnits : Nat := (2 ^ 53 - 1) * 2 ^ 2045

theorem nearestPlace_lt_infinityPlace {numerator denominator : Nat} (positive : 0 < denominator)
    (bounded : numerator * unitsInOne ≤ greatestUnits * denominator) :
    (nearestPlace numerator denominator).val < infinityPlace := by
  have less := unclamped_lt positive bounded
  have top : (2045 + 2) * 2 ^ 52 = infinityPlace := by decide
  rw [top] at less
  simp only [nearestPlace, clampPlace, Nat.pow_eq]
  omega

theorem units_le {place top : Nat} (below : place < (top + 2) * 2 ^ 52) :
    units place ≤ (2 ^ 53 - 1) * 2 ^ top := by
  have significand : place - binade place * 2 ^ 52 ≤ 2 ^ 53 - 1 := by
    simp only [binade, Nat.pow_eq]
    omega
  have exponent : binade place ≤ top := by
    simp only [binade, Nat.pow_eq]
    omega
  exact Nat.mul_le_mul significand (Nat.pow_le_pow_right (by decide) exponent)

theorem le_units {place bottom total : Nat} (above : (bottom + 1) * 2 ^ 52 ≤ place)
    (sum : total = 52 + bottom) : 2 ^ total ≤ units place := by
  have significand : 2 ^ 52 ≤ place - binade place * 2 ^ 52 := by
    simp only [binade, Nat.pow_eq]
    omega
  have exponent : bottom ≤ binade place := by
    simp only [binade, Nat.pow_eq]
    omega
  rw [sum, Nat.pow_add]
  exact Nat.mul_le_mul significand (Nat.pow_le_pow_right (by decide) exponent)

private theorem mul_two_pow_le {value left right top : Nat} (small : value ≤ 2 ^ left)
    (sum : left + right ≤ top) : value * 2 ^ right ≤ (2 ^ 53 - 1) * 2 ^ top :=
  calc value * 2 ^ right ≤ 2 ^ left * 2 ^ right := Nat.mul_le_mul_right _ small
    _ = 2 ^ (left + right) := (Nat.pow_add 2 left right).symm
    _ ≤ 2 ^ top := Nat.pow_le_pow_right (by decide) sum
    _ ≤ (2 ^ 53 - 1) * 2 ^ top := Nat.le_mul_of_pos_left _ (by decide)

private theorem two_pow_pos (exponent : Nat) : 0 < 2 ^ exponent :=
  Nat.two_pow_pos exponent

theorem units_le_greatestUnits {place : Nat} (finite : place < infinityPlace) :
    units place ≤ greatestUnits := by
  have top : (2045 + 2) * 2 ^ 52 = infinityPlace := by decide
  unfold greatestUnits
  exact @units_le place 2045 (top ▸ finite)

theorem unitsInOne_eq : unitsInOne = 2 ^ 1074 :=
  Nat.pow_eq

theorem unitsInOne_pos : 0 < unitsInOne := by
  unfold unitsInOne
  exact two_pow_pos 1074

/-- Dividing a finite double by one that is at least one leaves it finite. -/
theorem divPlace_lt_infinityPlace {left right : Nat} (finite : left < infinityPlace)
    (large : unitsInOne ≤ units right) : (divPlace left right).val < infinityPlace := by
  refine nearestPlace_lt_infinityPlace ?_ ?_
  · exact Nat.lt_of_lt_of_le unitsInOne_pos large
  · exact Nat.mul_le_mul (units_le_greatestUnits finite) large

theorem nearestPlace_one_lt_infinityPlace {value : Nat} (small : value ≤ 2 ^ 64) :
    (nearestPlace value 1).val < infinityPlace := by
  refine nearestPlace_lt_infinityPlace Nat.zero_lt_one ?_
  rw [Nat.mul_one]
  unfold unitsInOne greatestUnits
  exact @mul_two_pow_le value 64 1074 2045 small (by decide)

/-- The place of a whole number that is not zero is at least the place of one. -/
theorem unitsInOne_le_units_nearestPlace {value : Nat} (positive : 0 < value) :
    unitsInOne ≤ units (nearestPlace value 1).val := by
  have top : infinityPlace = 2047 * 2 ^ 52 := by decide
  have whole_ge : unitsInOne ≤ value * unitsInOne := Nat.le_mul_of_pos_left _ positive
  have whole_ne : value * unitsInOne ≠ 0 := Nat.ne_of_gt (Nat.mul_pos positive unitsInOne_pos)
  have log_ge : 1074 ≤ (value * unitsInOne).log2 := by
    refine (Nat.le_log2 whole_ne).2 ?_
    unfold unitsInOne at whole_ge ⊢
    exact whole_ge
  have place_ge : (1022 + 1) * 2 ^ 52 ≤ (nearestPlace value 1).val := by
    have large : 2 ^ 52 ≤ value * unitsInOne / 1 := by
      rw [Nat.div_one]
      exact (Nat.le_log2 whole_ne).1 (by omega)
    have rounded := le_significand large
    rw [Nat.div_one, Nat.one_mul] at rounded
    simp only [nearestPlace, clampPlace, Nat.div_one, Nat.one_mul, Nat.pow_eq]
    omega
  unfold unitsInOne
  exact @le_units _ 1022 1074 place_ge rfl

end Double
end GraphStore
