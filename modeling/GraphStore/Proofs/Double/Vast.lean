import GraphStore.Proofs.Double.Order

/-!
# Doubles without places behind the point

A double of `10 ^ 16` or more is a whole number, and so is its shortest decimal, which has at most
seventeen digits if it is not written in full.  Rounding keeps the order, so a smaller double has a
smaller shortest decimal.
-/

namespace GraphStore

/-! ## Reduced decimals -/

namespace Decimal

variable {decimal : Decimal}

theorem exponent_le_exponent_reduced (decimal : Decimal) :
    decimal.exponent ≤ decimal.reduced.exponent := by
  induction decimal using reduced.induct with
  | case1 decimal divisible ih =>
      rw [reduced, if_pos divisible]
      exact Int.le_trans (Int.le_add_one (Int.le_refl _)) ih
  | case2 decimal other => rw [reduced, if_neg other]

/-- Reduction takes off every zero at the end of the significand. -/
theorem reduced_zeros {significand : Nat} (positive : 0 < significand) (exponent : Int)
    (zeros : Nat) :
    reduced ⟨significand * 10 ^ zeros, exponent⟩ = reduced ⟨significand, exponent + zeros⟩ := by
  induction zeros generalizing exponent with
  | zero => rw [Nat.pow_zero, Nat.mul_one, Int.natCast_zero, Int.add_zero]
  | succ zeros ih =>
      have factor : significand * 10 ^ (zeros + 1) = significand * 10 ^ zeros * 10 := by
        rw [Nat.pow_succ, Nat.mul_assoc]
      have more : 0 < significand * 10 ^ zeros := Nat.mul_pos positive (Nat.pow_pos (by decide))
      have divisible : 0 < significand * 10 ^ (zeros + 1) ∧
          significand * 10 ^ (zeros + 1) % 10 = 0 := by omega
      rw [reduced, if_pos divisible]
      dsimp only
      rw [factor, Nat.mul_div_cancel _ (by decide), ih]
      congr 2
      push_cast
      omega

end Decimal

namespace Double

variable {place : Nat} {decimal : Decimal}

/-! ## Places from `10 ^ 16` on -/

theorem le_of_units_le_units {left right : Nat} (exists_ : right ≤ infinityPlace)
    (le : units left ≤ units right) (bounded : left ≤ infinityPlace) : left ≤ right := by
  have own := @nearestPlace_of_units (units right) _ _ unitsInOne_pos exists_ rfl
  have reached := le_nearestPlace unitsInOne_pos bounded (Nat.mul_le_mul_right unitsInOne le)
  rwa [own] at reached

/-- The place of `10 ^ 16`. -/
def vastPlace : Nat :=
  (nearestPlace (10 ^ 16) 1).val

/-- Whether a double is finite and of `10 ^ 16` or more. -/
def isVast : Double → Bool
  | .nan => false
  | .signed _ place => place.val < infinityPlace && 10 ^ 16 * unitsInOne ≤ units place

theorem vastPlace_eq : vastPlace = 1075 * 2 ^ 52 + 5 * 10 ^ 15 := by
  have significand := @units_of_significand 1075 (5 * 10 ^ 15) (by decide) (by decide)
  apply nearestPlace_of_units Nat.zero_lt_one (by decide)
  rw [significand, Nat.pow_succ, unitsInOne_eq]
  omega

theorem units_vastPlace : units vastPlace = 10 ^ 16 * unitsInOne := by
  have significand := @units_of_significand 1075 (5 * 10 ^ 15) (by decide) (by decide)
  rw [vastPlace_eq, significand, Nat.pow_succ, unitsInOne_eq]
  omega

theorem vastPlace_le_iff (exists_ : place ≤ infinityPlace) :
    vastPlace ≤ place ↔ 10 ^ 16 * unitsInOne ≤ units place := by
  rw [← units_vastPlace]
  constructor
  · exact units_le_units
  · exact fun le => le_of_units_le_units exists_ le (Nat.le_of_lt_succ (nearestPlace _ _).isLt)

theorem unitsInOne_dvd_units (vast : vastPlace ≤ place) : unitsInOne ∣ units place := by
  have binades : binade vastPlace ≤ binade place :=
    Nat.sub_le_sub_right (Nat.div_le_div_right vast) 1
  have exponent : 1074 ≤ binade vastPlace := by
    rw [vastPlace_eq]
    decide
  unfold unitsInOne units
  exact Nat.dvd_mul_left_of_dvd (Nat.pow_dvd_pow 2 (Nat.le_trans exponent binades)) _

theorem le_leadingExponent (vast : vastPlace ≤ place) : 16 ≤ leadingExponent place := by
  have large : 10 ^ 16 * unitsInOne ≤ units place := units_vastPlace ▸ units_le_units vast
  have positive := unitsInOne_pos
  unfold leadingExponent
  dsimp only
  generalize leadingDigitScale = scale
  generalize unitsInOne = one at large positive ⊢
  have scaled : 10 ^ (16 + scale) ≤ units place * Nat.pow 10 scale / one := by
    apply (Nat.le_div_iff_mul_le positive).2
    rw [Nat.pow_add, Nat.mul_right_comm]
    exact Nat.mul_le_mul_right _ large
  have digits : ¬(Text.natDigits (units place * Nat.pow 10 scale / one)).length ≤
      16 + scale := by
    intro short
    have small := (Nat.length_toDigits_le_iff (by decide) (by omega)).1 short
    omega
  omega

/-! ## Shortest decimals -/

theorem shortestDecimal_vastPlace (tie : TieRule) : shortestDecimal tie vastPlace = ⟨1, 16⟩ := by
  have first : nearestWithDigits? tie vastPlace 1 = some ⟨1, 16⟩ := by
    cases tie <;> decide +kernel
  have positive : vastPlace ≠ 0 := by
    rw [vastPlace_eq]
    decide
  rw [shortestDecimal, if_neg positive, List.range', List.findSome?_cons, first]
  rw [Option.getD_some, Decimal.reduced]
  rfl

/-- The shortest decimal of a vast double is whole. -/
theorem exponent_shortestDecimal_nonneg (tie : TieRule) (vast : vastPlace ≤ place) :
    0 ≤ (shortestDecimal tie place).exponent := by
  have first : place ≠ 0 := by
    rintro rfl
    rw [vastPlace_eq] at vast
    exact absurd vast (by decide)
  rw [shortestDecimal, if_neg first]
  cases search : (List.range' 1 17).findSome? (nearestWithDigits? tie place) with
  | some decimal =>
      obtain ⟨count, member, found⟩ := List.exists_of_findSome?_eq_some search
      have digits := (of_nearestWithDigits? found).2
      have leading := le_leadingExponent vast
      have reduction := decimal.exponent_le_exponent_reduced
      rw [List.mem_range'_1] at member
      rw [Option.getD_some]
      omega
  | none =>
      obtain ⟨whole, same⟩ := unitsInOne_dvd_units vast
      obtain ⟨fives, down, some, exact, factors⟩ := exists_exactDecimal_eq place
      have positive : 0 < whole := by
        apply Nat.pos_of_ne_zero
        rintro rfl
        exact absurd (units_pos (Nat.pos_of_ne_zero first)) (by simp [same])
      have zeros : units place * fives = whole * 10 ^ down := by
        rw [same, ← factors]
        ring
      rw [Option.getD_none, exact, zeros, Decimal.reduced_zeros positive]
      apply Int.le_trans _ (Decimal.exponent_le_exponent_reduced _)
      dsimp only
      omega

/-- The place of a finite double is the rounded value of its shortest decimal. -/
theorem nearestPlace_shortestDecimal (tie : TieRule) (finite : place < infinityPlace) :
    (nearestPlace ((shortestDecimal tie place).significand *
      10 ^ (shortestDecimal tie place).exponent.toNat)
        (10 ^ (-(shortestDecimal tie place).exponent).toNat)).val = place := by
  have read := ofDecimal_shortestDecimal tie false finite
  rw [ofDecimal_eq_nearest, nearest] at read
  have places := congrArg Fin.val (Double.signed.inj read).2
  exact places.trans (Nat.min_eq_left (Nat.le_of_lt finite))

/-- A double is vast if its shortest decimal is whole and not less than `10 ^ 16`. -/
theorem vast_iff_shortestDecimal (tie : TieRule) (finite : place < infinityPlace) :
    vastPlace ≤ place ↔ 0 ≤ (shortestDecimal tie place).exponent ∧
      10 ^ 16 ≤ (shortestDecimal tie place).significand *
        10 ^ (shortestDecimal tie place).exponent.toNat := by
  have rounded := nearestPlace_shortestDecimal tie finite
  constructor
  · intro vast
    have whole := exponent_shortestDecimal_nonneg tie vast
    refine ⟨whole, Nat.le_of_not_lt fun less => ?_⟩
    rw [show (-(shortestDecimal tie place).exponent).toNat = 0 by omega, Nat.pow_zero] at rounded
    have below : place ≤ vastPlace :=
      rounded.symm.trans_le (nearestPlace_mono Nat.zero_lt_one (Nat.le_of_lt less))
    rw [Nat.le_antisymm below vast, shortestDecimal_vastPlace] at less
    exact absurd less (by decide)
  · rintro ⟨whole, reaches⟩
    rw [show (-(shortestDecimal tie place).exponent).toNat = 0 by omega, Nat.pow_zero] at rounded
    have above := Fin.le_def.1 (nearestPlace_mono Nat.zero_lt_one reaches)
    rw [rounded] at above
    exact above

end Double
end GraphStore
