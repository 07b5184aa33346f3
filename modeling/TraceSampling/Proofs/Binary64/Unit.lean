import TraceSampling.Proofs.Binary64.Value

/-!
# The unit interval

Every pattern is no number at all, below the unit interval, inside of it, or above it, infinities
included. What is inside stays as it is, down to the sign of a zero, and what is outside goes to the
nearer end.
-/

namespace TraceSampling.Binary64

variable {x fallback : Binary64}

/-! ## Where a number lies -/

def InUnit (x : Binary64) : Prop := x.IsFinite ∧ 0 ≤ x.value ∧ x.value ≤ 1

def Below (x : Binary64) : Prop :=
  x.isInfinite = true ∧ x.isNegative = true ∨ x.IsFinite ∧ x.value < 0

def Above (x : Binary64) : Prop :=
  x.isInfinite = true ∧ x.isNegative = false ∨ x.IsFinite ∧ 1 < x.value

theorem isNaN_or_isInfinite_or_isFinite (x : Binary64) :
    x.isNaN = true ∨ x.isInfinite = true ∨ x.IsFinite := by
  rw [isNaN, isInfinite, isFinite_iff, decide_eq_true_iff, decide_eq_true_iff]
  omega

theorem isNaN_or_below_or_inUnit_or_above (x : Binary64) :
    x.isNaN = true ∨ x.Below ∨ x.InUnit ∨ x.Above := by
  obtain hnan | hinfinite | hfinite := x.isNaN_or_isInfinite_or_isFinite
  · exact .inl hnan
  · cases hsign : x.isNegative with
    | true => exact .inr (.inl (.inl ⟨hinfinite, hsign⟩))
    | false => exact .inr (.inr (.inr (.inl ⟨hinfinite, hsign⟩)))
  · by_cases hlow : x.value < 0
    · exact .inr (.inl (.inr ⟨hfinite, hlow⟩))
    · by_cases hhigh : 1 < x.value
      · exact .inr (.inr (.inr (.inr ⟨hfinite, hhigh⟩)))
      · exact .inr (.inr (.inl ⟨hfinite, not_lt.mp hlow, not_lt.mp hhigh⟩))

/-! ## Patterns -/

theorem units_eq_zero_iff : x.units = 0 ↔ x.magnitude = 0 := by
  have hfraction := x.fractionField_lt
  rw [units, Nat.mul_eq_zero, or_iff_left (Nat.two_pow_pos _).ne', magnitude_eq_fields, mantissa]
  split <;> omega

theorem value_neg_iff : x.value < 0 ↔ x.isNegative = true ∧ x.magnitude ≠ 0 := by
  cases hsign : x.isNegative with
  | true =>
    have hone : (0 : ℚ) < unitsInOne := Nat.cast_pos.mpr unitsInOne_pos
    have hunits : (0 : ℚ) < x.units ↔ x.magnitude ≠ 0 :=
      Nat.cast_pos.trans (Nat.pos_iff_ne_zero.trans units_eq_zero_iff.not)
    rw [value_eq_units, hsign, if_pos rfl, ← hunits, and_iff_right rfl]
    generalize (unitsInOne : ℚ) = one at hone ⊢
    rw [neg_one_mul, neg_lt_zero, div_pos_iff_of_pos_right hone]
  | false =>
    rw [value_of_isNegative_eq_false hsign]
    have hnonneg : (0 : ℚ) ≤ x.units / unitsInOne := by positivity
    exact iff_of_false hnonneg.not_gt fun h => Bool.false_ne_true h.1

theorem one_lt_value_iff : 1 < x.value ↔ x.isNegative = false ∧ onePattern < x.magnitude := by
  cases hsign : x.isNegative with
  | true =>
    have hle : x.value ≤ 1 := (value_nonpos hsign).trans zero_le_one
    exact iff_of_false hle.not_gt fun h => Bool.false_ne_true h.1.symm
  | false =>
    have hone : (0 : ℚ) < unitsInOne := Nat.cast_pos.mpr unitsInOne_pos
    rw [value_of_isNegative_eq_false hsign, one_lt_div hone, Nat.cast_lt,
      ← onePattern_lt_magnitude_iff, and_iff_right rfl]

theorem magnitude_of_isInfinite (h : x.isInfinite = true) : x.magnitude = infinityPattern :=
  of_decide_eq_true h

theorem isNaN_eq_false_of_isInfinite (h : x.isInfinite = true) : x.isNaN = false := by
  rw [isNaN, magnitude_of_isInfinite h]
  decide

/-- A number inside is a zero of either sign or a pattern up to that of one. -/
theorem inUnit_iff :
    x.InUnit ↔ x.magnitude = 0 ∨ x.isNegative = false ∧ x.magnitude ≤ onePattern := by
  have hlow : 0 ≤ x.value ↔ ¬(x.isNegative = true ∧ x.magnitude ≠ 0) := by
    rw [← value_neg_iff, not_lt]
  have hhigh : x.value ≤ 1 ↔ ¬(x.isNegative = false ∧ onePattern < x.magnitude) := by
    rw [← one_lt_value_iff, not_lt]
  have hone : onePattern < infinityPattern := by decide
  rw [InUnit, isFinite_iff, hlow, hhigh]
  cases x.isNegative
  · simp
    omega
  · simp
    omega

/-! ## What becomes of it -/

theorem inUnit_zero : zero.InUnit := inUnit_iff.mpr (by decide)

theorem inUnit_one : one.InUnit := inUnit_iff.mpr (by decide)

/-- The number `y` that takes the place of `x`, with what takes the place of no number at all. -/
structure Clamped (fallback x y : Binary64) : Prop where
  inUnit : y.InUnit
  kept : x.InUnit → y = x
  raised : x.Below → y = zero
  lowered : x.Above → y = one
  replaced : x.isNaN = true → y = fallback

theorem clampUnit_of_inUnit (h : x.InUnit) : x.clampUnit fallback = x := by
  rw [clampUnit, if_neg (ne_true_of_eq_false h.1.isNaN_eq_false)]
  obtain hzero | ⟨hsign, hle⟩ := inUnit_iff.mp h
  · rw [if_pos hzero, hzero]
    split
    · rfl
    · exact if_neg (by decide)
  · rw [if_neg (ne_true_of_eq_false hsign), if_neg (by omega)]

theorem clampUnit_of_below (h : x.Below) : x.clampUnit fallback = zero := by
  obtain ⟨hnan, hsign, hmagnitude⟩ :
      x.isNaN = false ∧ x.isNegative = true ∧ x.magnitude ≠ 0 := by
    obtain ⟨hinfinite, hsign⟩ | ⟨hfinite, hvalue⟩ := h
    · refine ⟨isNaN_eq_false_of_isInfinite hinfinite, hsign, ?_⟩
      rw [magnitude_of_isInfinite hinfinite]
      decide
    · exact ⟨hfinite.isNaN_eq_false, value_neg_iff.mp hvalue⟩
  rw [clampUnit, if_neg (ne_true_of_eq_false hnan), if_pos hsign, if_neg hmagnitude]

theorem clampUnit_of_above (h : x.Above) : x.clampUnit fallback = one := by
  obtain ⟨hnan, hsign, hmagnitude⟩ :
      x.isNaN = false ∧ x.isNegative = false ∧ onePattern < x.magnitude := by
    obtain ⟨hinfinite, hsign⟩ | ⟨hfinite, hvalue⟩ := h
    · refine ⟨isNaN_eq_false_of_isInfinite hinfinite, hsign, ?_⟩
      rw [magnitude_of_isInfinite hinfinite]
      decide
    · exact ⟨hfinite.isNaN_eq_false, one_lt_value_iff.mp hvalue⟩
  rw [clampUnit, if_neg (ne_true_of_eq_false hnan), if_neg (ne_true_of_eq_false hsign),
    if_pos hmagnitude]

theorem clamped_clampUnit (hfallback : fallback.InUnit) (x : Binary64) :
    Clamped fallback x (x.clampUnit fallback) where
  inUnit := by
    obtain hnan | hbelow | hinside | habove := x.isNaN_or_below_or_inUnit_or_above
    · rw [clampUnit, if_pos hnan]
      exact hfallback
    · rw [clampUnit_of_below hbelow]
      exact inUnit_zero
    · rwa [clampUnit_of_inUnit hinside]
    · rw [clampUnit_of_above habove]
      exact inUnit_one
  kept := clampUnit_of_inUnit
  raised := clampUnit_of_below
  lowered := clampUnit_of_above
  replaced := fun hnan => if_pos hnan

end TraceSampling.Binary64
