import FrameLang.Number.Shortest
import FrameLang.Proofs.Rounding

/-!
The decimal number that is written for a pattern lies inside the interval that rounds to the pattern.
-/

set_option autoImplicit false

namespace FrameLang.Number

/-- What a grid point stands for, in units of `10 ^ -exactPlaces`. -/
def GridPoint.value (point : GridPoint) : Nat := point.digits * Nat.pow 10 point.grid

namespace Neighbourhood

theorem contains_multiple {neighbourhood : Neighbourhood} {step digits : Nat}
    (found : neighbourhood.multiple? step = some digits) :
    neighbourhood.contains (digits * step) = true := by
  rw [multiple?] at found
  split at found
  next below above =>
    split at found
    · cases found
      exact below
    · cases found
      exact above
  next below _ =>
    cases found
    exact below
  next _ above =>
    cases found
    exact above
  next => cases found

theorem contains_roundestFrom {neighbourhood : Neighbourhood}
    (centred : neighbourhood.contains neighbourhood.centre = true) (grid : Nat) :
    neighbourhood.contains (neighbourhood.roundestFrom grid).value = true := by
  induction grid with
  | zero =>
      have whole : (neighbourhood.roundestFrom 0).value = neighbourhood.centre := Nat.mul_one _
      rw [whole]
      exact centred
  | succ grid ih =>
      rw [roundestFrom]
      split
      next digits found => exact contains_multiple found
      next => exact ih

theorem scale_pos : 0 < Nat.pow 5 exactPlaces := by
  generalize exactPlaces = places
  exact Nat.pow_pos (Nat.zero_lt_succ 4)

/-- The interval reaches to both sides of the number itself. -/
theorem contains_centre {pattern : Nat} (nonzero : 0 < pattern) :
    (ofPattern pattern).contains (ofPattern pattern).centre = true := by
  have before := Magnitude.units_lt_succ (pattern - 1)
  have after := Magnitude.units_lt_succ pattern
  rw [Nat.sub_add_cancel nonzero] at before
  have below : Magnitude.units (pattern - 1) + Magnitude.units pattern <
      2 * Magnitude.units pattern := by omega
  have above : 2 * Magnitude.units pattern <
      Magnitude.units pattern + Magnitude.units (pattern + 1) := by omega
  have lower : (ofPattern pattern).lower < (ofPattern pattern).centre :=
    Nat.mul_lt_mul_of_pos_right below scale_pos
  have upper : (ofPattern pattern).centre < (ofPattern pattern).upper :=
    Nat.mul_lt_mul_of_pos_right above scale_pos
  rw [contains]
  split
  · simp [Nat.le_of_lt lower, Nat.le_of_lt upper]
  · simp [lower, upper]

theorem bounds_of_contains {pattern point : Nat}
    (inside : (ofPattern pattern).contains point = true) :
    (ofPattern pattern).lower ≤ point ∧ point ≤ (ofPattern pattern).upper ∧
      ((ofPattern pattern).lower = point ∨ point = (ofPattern pattern).upper →
        pattern % 2 = 0) := by
  rw [contains] at inside
  split at inside
  next closed =>
    rw [Bool.and_eq_true, decide_eq_true_eq, decide_eq_true_eq] at inside
    exact ⟨inside.1, inside.2, fun _ => beq_iff_eq.mp closed⟩
  next =>
    rw [Bool.and_eq_true, decide_eq_true_eq, decide_eq_true_eq] at inside
    refine ⟨Nat.le_of_lt inside.1, Nat.le_of_lt inside.2, ?_⟩
    rintro (same | same)
    · exact absurd same (Nat.ne_of_lt inside.1)
    · exact absurd same (Nat.ne_of_lt inside.2)

/-- A fraction inside the interval of a pattern rounds to the pattern. -/
theorem roundsTo_of_contains {pattern point numerator denominator : Nat}
    (inside : (ofPattern pattern).contains point = true)
    (same : 2 * numerator * Nat.pow 5 exactPlaces = point * denominator)
    (pos : 0 < denominator) : Magnitude.RoundsTo numerator denominator pattern := by
  obtain ⟨lower, upper, ties⟩ := bounds_of_contains inside
  have left : (ofPattern pattern).lower =
    (Magnitude.units (pattern - 1) + Magnitude.units pattern) * Nat.pow 5 exactPlaces := rfl
  have right : (ofPattern pattern).upper =
    (Magnitude.units pattern + Magnitude.units (pattern + 1)) * Nat.pow 5 exactPlaces := rfl
  rw [left, right] at ties
  rw [left] at lower
  rw [right] at upper
  have scaled := scale_pos
  generalize Nat.pow 5 exactPlaces = scale at *
  constructor
  · refine Nat.le_of_mul_le_mul_right ?_ scaled
    rw [same, Nat.mul_right_comm]
    exact Nat.mul_le_mul_right denominator lower
  · refine Nat.le_of_mul_le_mul_right ?_ scaled
    rw [same, Nat.mul_right_comm]
    exact Nat.mul_le_mul_right denominator upper
  · rintro (tie | tie)
    · refine ties (.inl (Nat.eq_of_mul_eq_mul_right pos ?_))
      rw [← same, ← tie, Nat.mul_right_comm]
    · refine ties (.inr (Nat.eq_of_mul_eq_mul_right pos ?_))
      rw [← same, tie, Nat.mul_right_comm]

end Neighbourhood

theorem unitsPerOne_mul :
    2 * Magnitude.unitsPerOne * Nat.pow 5 exactPlaces = Nat.pow 10 exactPlaces := by
  decide +kernel

/-- Reading the grid point chosen for a pattern, with as many decimal places as it takes, gives the
pattern. -/
theorem nearest_roundest {pattern digits places : Nat} (nonzero : 0 < pattern)
    (finite : pattern < Magnitude.infinity)
    (same : digits * Nat.pow 10 exactPlaces =
      (Neighbourhood.ofPattern pattern).roundest.value * Nat.pow 10 places) :
    Magnitude.nearest (digits * Magnitude.unitsPerOne) (Nat.pow 10 places) = pattern := by
  have inside : (Neighbourhood.ofPattern pattern).contains
      (Neighbourhood.ofPattern pattern).roundest.value = true :=
    Neighbourhood.contains_roundestFrom (Neighbourhood.contains_centre nonzero) _
  have pos : 0 < Nat.pow 10 places := Nat.pow_pos (Nat.zero_lt_succ 9)
  refine Magnitude.nearest_eq (Neighbourhood.roundsTo_of_contains inside ?_ pos) finite pos nonzero
  rw [← same, ← unitsPerOne_mul, Nat.mul_left_comm 2, Nat.mul_assoc digits]

end FrameLang.Number
