import FrameLang.Number.Magnitude

/-!
Rounding to the nearest pattern. The numbers of one binade are evenly spaced, so within a binade
rounding is rounding of a quotient; and a number that lies between the midpoints around a pattern is
in a binade that the pattern belongs to.
-/

set_option autoImplicit false

namespace FrameLang.Number.Magnitude

/-- A quotient rounds to the whole number that it is at most a half away from, if a half away only to
an even one. -/
theorem divideToEven_eq {numerator denominator quotient : Nat}
    (below : 2 * (quotient * denominator) ≤ 2 * numerator + denominator)
    (above : 2 * numerator ≤ 2 * (quotient * denominator) + denominator)
    (ties : 2 * (quotient * denominator) = 2 * numerator + denominator ∨
      2 * numerator = 2 * (quotient * denominator) + denominator → quotient % 2 = 0)
    (pos : 0 < denominator) : divideToEven numerator denominator = quotient := by
  have parts := Nat.div_add_mod' numerator denominator
  have small := Nat.mod_lt numerator pos
  rw [divideToEven]
  generalize numerator / denominator = whole at parts ⊢
  generalize numerator % denominator = rest at parts small ⊢
  subst parts
  have atLeast : whole ≤ quotient := by
    refine Nat.le_of_not_lt fun less => ?_
    have step := Nat.mul_le_mul_right denominator less
    rw [Nat.succ_mul] at step
    omega
  have atMost : quotient ≤ whole + 1 := by
    refine Nat.le_of_not_lt fun less => ?_
    have step := Nat.mul_le_mul_right denominator less
    rw [Nat.succ_mul, Nat.succ_mul] at step
    omega
  obtain rfl | rfl : quotient = whole ∨ quotient = whole + 1 := by omega
  · rw [if_pos (by omega)]
  · rw [Nat.succ_mul whole] at below above ties
    rw [if_neg (by omega)]

theorem binadeSize_eq : binadeSize = 4503599627370496 := rfl

/-- The patterns of one binade, and the first one of the next, are evenly spaced. Below the second
binade that holds from zero on. -/
theorem units_eq (binade : Nat) {significand : Nat}
    (normal : binadeSize ≤ significand ∨ binade = 0) (within : significand ≤ 2 * binadeSize) :
    units (binade * binadeSize + significand) = significand * Nat.pow 2 binade := by
  rw [binadeSize_eq] at normal within
  rw [units, binadeSize_eq]
  by_cases subnormal : binade * 4503599627370496 + significand < 4503599627370496
  · have zero : binade = 0 := by omega
    rw [if_pos subnormal, zero, Nat.zero_mul, Nat.zero_add]
    exact (Nat.mul_one _).symm
  rw [if_neg subnormal]
  by_cases last : significand = 2 * 4503599627370496
  · have quotient : (binade * 4503599627370496 + significand) / 4503599627370496 - 1 =
        binade + 1 := by omega
    have rest : (binade * 4503599627370496 + significand) % 4503599627370496 = 0 := by omega
    have double : Nat.pow 2 (binade + 1) = Nat.pow 2 binade * 2 := rfl
    rw [quotient, rest, last, double]
    omega
  · have quotient : (binade * 4503599627370496 + significand) / 4503599627370496 - 1 =
        binade := by omega
    have rest : 4503599627370496 + (binade * 4503599627370496 + significand) % 4503599627370496 =
        significand := by omega
    rw [quotient, rest]

/-- Every pattern has its place in a binade, and its successor too. -/
theorem exists_binade (pattern : Nat) :
    ∃ binade significand, pattern = binade * binadeSize + significand ∧
      (binadeSize ≤ significand ∨ binade = 0) ∧ significand < 2 * binadeSize := by
  rw [binadeSize_eq]
  refine ⟨pattern / 4503599627370496 - 1,
    pattern - (pattern / 4503599627370496 - 1) * 4503599627370496, ?_, ?_, ?_⟩
  · omega
  · omega
  · omega

theorem units_lt_succ (pattern : Nat) : units pattern < units (pattern + 1) := by
  obtain ⟨binade, significand, rfl, normal, within⟩ := exists_binade pattern
  rw [units_eq binade normal (Nat.le_of_lt within), Nat.add_assoc,
    units_eq binade (normal.imp_left Nat.le_succ_of_le) within, Nat.succ_mul]
  exact Nat.lt_add_of_pos_right (Nat.pow_pos Nat.two_pos)

theorem units_le {first second : Nat} (le : first ≤ second) : units first ≤ units second := by
  induction le with
  | refl => exact Nat.le_refl _
  | step _ ih => exact Nat.le_trans ih (Nat.le_of_lt (units_lt_succ _))

/-- The number lies between the midpoints to the neighbours of the pattern, and on a midpoint only if
the pattern is even. -/
structure RoundsTo (numerator denominator pattern : Nat) : Prop where
  below : (units (pattern - 1) + units pattern) * denominator ≤ 2 * numerator
  above : 2 * numerator ≤ (units pattern + units (pattern + 1)) * denominator
  ties : (units (pattern - 1) + units pattern) * denominator = 2 * numerator ∨
    2 * numerator = (units pattern + units (pattern + 1)) * denominator → pattern % 2 = 0

/-- The binade that `nearest` works in, where `whole` is the number without its fraction. -/
theorem binade_bounds (whole : Nat) :
    (whole.log2 - significandBits = 0 ∨
      binadeSize * Nat.pow 2 (whole.log2 - significandBits) ≤ whole) ∧
    whole < 2 * binadeSize * Nat.pow 2 (whole.log2 - significandBits) := by
  have scale (binade : Nat) : binadeSize * Nat.pow 2 binade = 2 ^ (significandBits + binade) :=
    (Nat.pow_add 2 significandBits binade).symm
  have upper : whole < 2 ^ (whole.log2 + 1) := Nat.lt_log2_self
  by_cases small : whole.log2 ≤ significandBits
  · have zero : whole.log2 - significandBits = 0 := Nat.sub_eq_zero_of_le small
    refine ⟨.inl zero, ?_⟩
    rw [zero, Nat.mul_assoc, scale, Nat.mul_comm, ← Nat.pow_succ]
    exact Nat.lt_of_lt_of_le upper (Nat.pow_le_pow_right Nat.two_pos (Nat.succ_le_succ small))
  · have same : significandBits + (whole.log2 - significandBits) = whole.log2 := by omega
    have nonzero : whole ≠ 0 := by
      rintro rfl
      exact small (Nat.zero_le _)
    rw [Nat.mul_assoc, scale, same]
    refine ⟨.inr (Nat.log2_self_le nonzero), ?_⟩
    rw [Nat.mul_comm, ← Nat.pow_succ]
    exact upper

section Nearest

variable {numerator denominator pattern : Nat}

/-- A number of the given binade rounds to a pattern of it. -/
theorem RoundsTo.within (rounds : RoundsTo numerator denominator pattern) (pos : 0 < denominator)
    {binade : Nat}
    (lower : binade = 0 ∨ binadeSize * Nat.pow 2 binade * denominator ≤ numerator)
    (upper : numerator < 2 * binadeSize * Nat.pow 2 binade * denominator) :
    ∃ significand, pattern = binade * binadeSize + significand ∧
      (binadeSize ≤ significand ∨ binade = 0) ∧ significand ≤ 2 * binadeSize := by
  have size : 0 < binadeSize := by decide
  have atMost : pattern ≤ binade * binadeSize + 2 * binadeSize := by
    refine Nat.le_of_not_lt fun beyond => ?_
    have top := units_eq binade (.inl (by omega)) (Nat.le_refl (2 * binadeSize))
    have before : units (binade * binadeSize + 2 * binadeSize) ≤ units (pattern - 1) :=
      units_le (by omega)
    have here := Nat.le_trans before (units_le (Nat.sub_le pattern 1))
    have sum := Nat.mul_le_mul_right denominator (Nat.add_le_add before here)
    have below := rounds.below
    rw [top] at sum
    rw [Nat.add_mul] at sum
    omega
  have atLeast : binade = 0 ∨ binade * binadeSize + binadeSize ≤ pattern := by
    refine lower.imp_right fun lower => Nat.le_of_not_lt fun short => ?_
    have bottom := units_eq binade (.inl (Nat.le_refl binadeSize)) (by omega)
    have after : units (pattern + 1) ≤ units (binade * binadeSize + binadeSize) := units_le short
    have here := Nat.lt_of_lt_of_le (units_lt_succ pattern) after
    have sum := Nat.mul_lt_mul_of_pos_right (Nat.add_lt_add_of_lt_of_le here after) pos
    have above := rounds.above
    rw [bottom] at sum
    rw [Nat.add_mul (binadeSize * _)] at sum
    omega
  refine ⟨pattern - binade * binadeSize, ?_, ?_, ?_⟩
  · rcases atLeast with rfl | atLeast <;> omega
  · rcases atLeast with rfl | atLeast <;> omega
  · omega

theorem RoundsTo.divideToEven_eq {binade significand : Nat}
    (rounds : RoundsTo numerator denominator (binade * binadeSize + significand))
    (pos : 0 < denominator) (nonzero : 0 < binade * binadeSize + significand)
    (normal : binadeSize ≤ significand ∨ binade = 0) (within : significand ≤ 2 * binadeSize)
    (lower : binade = 0 ∨ binadeSize * Nat.pow 2 binade * denominator ≤ numerator)
    (upper : numerator < 2 * binadeSize * Nat.pow 2 binade * denominator) :
    divideToEven numerator (denominator * Nat.pow 2 binade) = significand := by
  obtain ⟨below, above, ties⟩ := rounds
  have regroup (count : Nat) : count * Nat.pow 2 binade * denominator =
      count * (denominator * Nat.pow 2 binade) := by
    rw [Nat.mul_assoc, Nat.mul_comm (Nat.pow 2 binade)]
  have here := units_eq binade normal within
  have size : 0 < binadeSize := by decide
  have unit : 0 < denominator * Nat.pow 2 binade := Nat.mul_pos pos (Nat.pow_pos Nat.two_pos)
  have even : (binade * binadeSize + significand) % 2 = significand % 2 := by
    rw [binadeSize_eq]
    omega
  simp only [even, here, Nat.add_mul, regroup] at below above ties lower upper
  generalize denominator * Nat.pow 2 binade = step at *
  have lowerHalf : 2 * (significand * step) ≤ 2 * numerator + step ∧
      (2 * (significand * step) = 2 * numerator + step → significand % 2 = 0) := by
    -- In front of the first pattern of a binade the spacing is finer, but the number is no smaller.
    by_cases first : significand = binadeSize ∧ binade ≠ 0
    · obtain ⟨rfl, inner⟩ := first
      have atLeast := lower.resolve_left inner
      constructor <;> omega
    · have some : significand ≠ 0 := by
        rintro rfl
        rcases normal with large | rfl <;> omega
      obtain ⟨before, rfl⟩ := Nat.exists_eq_add_one_of_ne_zero some
      have index : binade * binadeSize + (before + 1) - 1 = binade * binadeSize + before := by omega
      have previous := units_eq binade (show binadeSize ≤ before ∨ binade = 0 by omega) (by omega)
      rw [← index] at previous
      simp only [previous, regroup, Nat.succ_mul before] at below ties ⊢
      exact ⟨by omega, fun tie => ties (.inl (by omega))⟩
  have upperHalf : 2 * numerator ≤ 2 * (significand * step) + step ∧
      (2 * numerator = 2 * (significand * step) + step → significand % 2 = 0) := by
    -- Behind the last pattern of a binade the spacing is wider, but the number is smaller.
    by_cases last : significand = 2 * binadeSize
    · subst last
      constructor <;> omega
    · have normal' : binadeSize ≤ significand + 1 ∨ binade = 0 := by omega
      have following := units_eq binade normal' (by omega)
      rw [← Nat.add_assoc] at following
      rw [following, regroup, Nat.succ_mul significand] at above ties
      exact ⟨by omega, fun tie => ties (.inr (by omega))⟩
  exact Magnitude.divideToEven_eq lowerHalf.1 upperHalf.1
    (fun tie => tie.elim lowerHalf.2 upperHalf.2) unit

theorem nearest_eq (rounds : RoundsTo numerator denominator pattern) (finite : pattern < infinity)
    (pos : 0 < denominator) (nonzero : 0 < pattern) : nearest numerator denominator = pattern := by
  have bounds := binade_bounds (numerator / denominator)
  rw [nearest]
  generalize (numerator / denominator).log2 - significandBits = binade at bounds ⊢
  rw [Nat.le_div_iff_mul_le pos, Nat.div_lt_iff_lt_mul pos] at bounds
  obtain ⟨lower, upper⟩ := bounds
  obtain ⟨significand, rfl, normal, within⟩ := rounds.within pos lower upper
  rw [rounds.divideToEven_eq pos nonzero normal within lower upper]
  exact Nat.min_eq_left (Nat.le_of_lt finite)

end Nearest

end FrameLang.Number.Magnitude
