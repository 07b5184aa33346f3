import Mathlib.Data.Rat.Floor
import Mathlib.Tactic.FieldSimp
import Mathlib.Tactic.Positivity
import Mathlib.Tactic.Ring
import TraceSampling.Binary64.Product

/-!
# What binary64 numbers stand for

The rational that a finite pattern stands for is given by the fields of the format alone. Its count
of units of `2 ^ -1074` ties it to the parts that range tests, rounding and products work on: a
count that 53 bits can spell is rounded to itself, so a product with such a count is exact.
-/

namespace TraceSampling.Binary64

variable {x y : Binary64}

/-! ## Fields -/

def exponentField (x : Binary64) : ℕ := x.bits.toNat / 2 ^ 52 % 2 ^ 11

def fractionField (x : Binary64) : ℕ := x.bits.toNat % 2 ^ 52

/-- Neither infinite nor no number. -/
def IsFinite (x : Binary64) : Prop := x.exponentField ≠ 2047

instance : Decidable x.IsFinite := inferInstanceAs (Decidable (_ ≠ _))

/-- The rational behind a finite pattern; the least exponent goes without the leading bit. -/
def value (x : Binary64) : ℚ :=
  (if x.isNegative then -1 else 1) *
    if x.exponentField = 0 then (x.fractionField / 2 ^ 52 : ℚ) * 2 ^ (-1022 : ℤ)
    else (1 + x.fractionField / 2 ^ 52 : ℚ) * 2 ^ ((x.exponentField : ℤ) - 1023)

def mantissa (x : Binary64) : ℕ :=
  if x.exponentField = 0 then x.fractionField else 2 ^ 52 + x.fractionField

def shift (x : Binary64) : ℕ := x.exponentField - 1

/-- The magnitude, counted in `2 ^ -1074`. -/
def units (x : Binary64) : ℕ := x.mantissa * 2 ^ x.shift

theorem magnitude_eq_fields (x : Binary64) :
    x.magnitude = x.exponentField * 2 ^ 52 + x.fractionField := by
  simp only [magnitude, signBit, exponentField, fractionField]
  omega

theorem fractionField_lt (x : Binary64) : x.fractionField < 2 ^ 52 :=
  Nat.mod_lt _ (Nat.two_pow_pos 52)

theorem mantissa_lt (x : Binary64) : x.mantissa < 2 ^ 53 := by
  have hfraction := x.fractionField_lt
  unfold mantissa
  split <;> omega

theorem isFinite_iff : x.IsFinite ↔ x.magnitude < infinityPattern := by
  have hrange : x.exponentField < 2 ^ 11 := Nat.mod_lt _ (Nat.two_pow_pos 11)
  have hfraction := x.fractionField_lt
  rw [magnitude_eq_fields, infinityPattern, IsFinite]
  omega

theorem IsFinite.view_eq (hx : x.IsFinite) :
    x.view = .finite x.isNegative x.mantissa x.shift := by
  have hmagnitude : x.magnitude < infinityPattern := isFinite_iff.mp hx
  have hfraction := x.fractionField_lt
  have hfield : x.magnitude / leadingBit = x.exponentField := by
    rw [magnitude_eq_fields, leadingBit]
    omega
  have hrest : x.magnitude % leadingBit = x.fractionField := by
    rw [magnitude_eq_fields, leadingBit]
    omega
  simp only [view, isNaN, isInfinite, hfield, hrest, hmagnitude.not_gt, hmagnitude.ne,
    decide_false, Bool.false_eq_true, if_false, mantissa, shift]
  split
  · next hzero => rw [hzero]
  · rfl

/-- The units in one. -/
def unitsInOne : ℕ := 2 ^ 1074

theorem unitsInOne_pos : 0 < unitsInOne := pow_pos two_pos _

theorem cast_unitsInOne : (unitsInOne : ℚ) = 2 ^ 52 * 2 ^ (1022 : ℤ) := by
  rw [unitsInOne, Nat.cast_pow, Nat.cast_ofNat, zpow_ofNat, ← pow_add]

theorem value_eq_units (x : Binary64) :
    x.value = (if x.isNegative then -1 else 1) * (x.units / unitsInOne) := by
  have hlow : (2 : ℚ) ^ (1022 : ℤ) ≠ 0 := zpow_ne_zero _ two_ne_zero
  rw [value, cast_unitsInOne]
  congr 1
  unfold units mantissa shift
  split
  · next hzero =>
    rw [hzero, zpow_neg, zero_tsub, pow_zero, mul_one]
    generalize (2 : ℚ) ^ (1022 : ℤ) = low at hlow ⊢
    field_simp
  · next hfield =>
    have hshift : (2 : ℚ) ^ (x.exponentField - 1) =
        2 ^ ((x.exponentField : ℤ) - 1023) * 2 ^ (1022 : ℤ) := by
      rw [← zpow_add₀ two_ne_zero, ← zpow_natCast]
      congr 1
      omega
    rw [Nat.cast_mul, Nat.cast_pow, Nat.cast_ofNat, hshift]
    generalize (2 : ℚ) ^ (1022 : ℤ) = low at hlow ⊢
    push_cast
    field_simp
    norm_num

theorem value_of_isNegative_eq_false (hx : x.isNegative = false) :
    x.value = x.units / unitsInOne := by
  rw [value_eq_units, hx, if_neg Bool.false_ne_true, one_mul]

theorem value_nonpos (hx : x.isNegative = true) : x.value ≤ 0 := by
  rw [value_eq_units, hx, if_pos rfl, neg_one_mul, neg_nonpos]
  positivity

/-! ## Tests of range -/

/-- A larger exponent outweighs any fraction. -/
theorem units_lt_units (h : x.magnitude < y.magnitude) : x.units < y.units := by
  have hx := x.fractionField_lt
  have hy := y.fractionField_lt
  rw [magnitude_eq_fields, magnitude_eq_fields] at h
  obtain heq | hlt : x.exponentField = y.exponentField ∨ x.exponentField < y.exponentField := by
    omega
  · have hmantissa : x.mantissa < y.mantissa := by
      rw [mantissa, mantissa, heq]
      split <;> omega
    rw [units, units, shift, shift, heq]
    exact Nat.mul_lt_mul_of_pos_right hmantissa (Nat.two_pow_pos _)
  · have hleading : 2 ^ 52 ≤ y.mantissa := by
      rw [mantissa, if_neg (by omega)]
      exact Nat.le_add_right _ _
    have hbelow : x.units < 2 ^ 52 * 2 ^ x.exponentField := by
      by_cases hzero : x.exponentField = 0
      · rw [units, mantissa, shift, if_pos hzero, hzero, zero_tsub]
        omega
      · have hshift : x.exponentField = x.shift + 1 := by
          rw [shift]
          omega
        calc x.units < 2 ^ 53 * 2 ^ x.shift :=
              Nat.mul_lt_mul_of_pos_right x.mantissa_lt (Nat.two_pow_pos _)
          _ = 2 ^ 52 * 2 ^ x.exponentField := by
            rw [hshift, ← pow_add, ← pow_add]
            congr 1
            omega
    have hexponent : x.exponentField ≤ y.shift := by
      rw [shift]
      omega
    calc x.units < 2 ^ 52 * 2 ^ x.exponentField := hbelow
      _ ≤ y.mantissa * 2 ^ y.shift :=
        Nat.mul_le_mul hleading (pow_le_pow_right₀ one_le_two hexponent)

theorem units_eq_units (h : x.magnitude = y.magnitude) : x.units = y.units := by
  have hx := x.fractionField_lt
  have hy := y.fractionField_lt
  rw [magnitude_eq_fields, magnitude_eq_fields] at h
  have hexponent : x.exponentField = y.exponentField := by omega
  have hfraction : x.fractionField = y.fractionField := by omega
  rw [units, units, mantissa, mantissa, shift, shift, hexponent, hfraction]

theorem magnitude_lt_iff : x.magnitude < y.magnitude ↔ x.units < y.units := by
  refine ⟨units_lt_units, fun h => ?_⟩
  by_contra hle
  obtain heq | hlt := (not_lt.mp hle).eq_or_lt
  · exact h.ne' (units_eq_units heq)
  · exact h.not_gt (units_lt_units hlt)

theorem magnitude_one : one.magnitude = onePattern := by decide

theorem units_one : one.units = unitsInOne := by
  have hmantissa : one.mantissa = 2 ^ 52 := by decide
  have hshift : one.shift = 1022 := by decide
  rw [units, hmantissa, hshift, ← pow_add, unitsInOne]

theorem onePattern_lt_magnitude_iff : onePattern < x.magnitude ↔ unitsInOne < x.units := by
  rw [← magnitude_one, ← units_one, magnitude_lt_iff]

theorem onePattern_le_magnitude_iff : onePattern ≤ x.magnitude ↔ unitsInOne ≤ x.units := by
  rw [← magnitude_one, ← units_one, ← not_lt, ← not_lt, magnitude_lt_iff]

theorem IsFinite.isNaN_eq_false (hx : x.IsFinite) : x.isNaN = false :=
  decide_eq_false (isFinite_iff.mp hx).not_gt

theorem isFull_iff (hx : x.IsFinite) : x.isFull = true ↔ 1 ≤ x.value := by
  rw [isFull, hx.isNaN_eq_false]
  cases hsign : x.isNegative with
  | true =>
    have hvalue := value_nonpos hsign
    simpa using hvalue.trans_lt one_pos
  | false =>
    have hone : (0 : ℚ) < unitsInOne := Nat.cast_pos.mpr unitsInOne_pos
    rw [value_of_isNegative_eq_false hsign, one_le_div hone, Nat.cast_le,
      ← onePattern_le_magnitude_iff]
    simp

theorem IsFinite.atLeastZero (hx : x.IsFinite) : x.atLeastZero.IsFinite := by
  unfold Binary64.atLeastZero
  split
  · decide
  · exact hx

theorem isNegative_atLeastZero (x : Binary64) : x.atLeastZero.isNegative = false := by
  unfold Binary64.atLeastZero
  split
  · decide
  · next h => exact (Bool.or_eq_false_iff.mp (Bool.eq_false_of_not_eq_true h)).2

theorem value_atLeastZero (hx : x.IsFinite) : x.atLeastZero.value = max x.value 0 := by
  rw [atLeastZero, hx.isNaN_eq_false, Bool.false_or]
  cases hsign : x.isNegative with
  | true =>
    have hzero : zero.units = 0 := by decide
    rw [if_pos rfl, max_eq_right (value_nonpos hsign),
      value_of_isNegative_eq_false (by decide), hzero, Nat.cast_zero, zero_div]
  | false =>
    rw [if_neg Bool.false_ne_true, max_eq_left]
    rw [value_of_isNegative_eq_false hsign]
    positivity

theorem toWord_eq_floor (hx : x.IsFinite) : x.toWord = capped ⌊x.value⌋₊ := by
  rw [toWord, hx.view_eq]
  cases hsign : x.isNegative with
  | true =>
    rw [Nat.floor_of_nonpos (value_nonpos hsign)]
    rfl
  | false =>
    rw [value_of_isNegative_eq_false hsign, Rat.natFloor_natCast_div_natCast, units, unitsInOne,
      ← Nat.shiftLeft_eq, ← Nat.shiftRight_eq_div_pow]

/-! ## Rounding -/

theorem bits_ofPattern {pattern : ℕ} (h : pattern < signBit) (negative : Bool) :
    (ofPattern negative pattern).bits.toNat = pattern + if negative then signBit else 0 := by
  have hword : (pattern + if negative then signBit else 0) < 2 ^ 64 := by
    unfold signBit at h ⊢
    split <;> omega
  rw [ofPattern, UInt64.toNat_ofNat', Nat.mod_eq_of_lt hword]

theorem isNegative_ofPattern {pattern : ℕ} (h : pattern < signBit) (negative : Bool) :
    (ofPattern negative pattern).isNegative = negative := by
  rw [isNegative, bits_ofPattern h]
  cases negative <;> simp [h]

theorem magnitude_ofPattern {pattern : ℕ} (h : pattern < signBit) (negative : Bool) :
    (ofPattern negative pattern).magnitude = pattern := by
  rw [magnitude, bits_ofPattern h]
  cases negative <;> simp [Nat.mod_eq_of_lt h]

/-- A magnitude as `nearestPattern` builds it stands for its low part, shifted. -/
theorem units_of_magnitude {s low : ℕ} (hx : x.magnitude = s * leadingBit + low)
    (hlow : low < 2 ^ 53) (hnormal : s = 0 ∨ 2 ^ 52 ≤ low) : x.units = low * 2 ^ s := by
  have hfraction := x.fractionField_lt
  rw [magnitude_eq_fields, leadingBit] at hx
  by_cases hzero : x.exponentField = 0
  · have hs : s = 0 := by omega
    have hfield : x.fractionField = low := by omega
    rw [units, mantissa, shift, if_pos hzero, hfield, hzero, hs, zero_tsub]
  · have hs : x.exponentField - 1 = s := by omega
    have hfield : 2 ^ 52 + x.fractionField = low := by omega
    rw [units, mantissa, shift, if_neg hzero, hfield, hs]

/-- The shift that `nearestPattern` takes is the one that leaves 53 bits. -/
theorem shift_spec {n s : ℕ} (hs : n.log2 + 1 - 53 = s) :
    n < 2 ^ 53 * 2 ^ s ∧ (s = 0 ∨ 2 ^ 52 * 2 ^ s ≤ n) := by
  have hupper : n < 2 ^ (n.log2 + 1) := Nat.lt_log2_self
  constructor
  · calc n < 2 ^ (n.log2 + 1) := hupper
      _ ≤ 2 ^ (53 + s) := Nat.pow_le_pow_right two_pos (by omega)
      _ = 2 ^ 53 * 2 ^ s := pow_add 2 53 s
  · by_cases hzero : s = 0
    · exact .inl hzero
    · have hn : n ≠ 0 := by
        rintro rfl
        exact hzero hs.symm
      refine .inr ?_
      calc 2 ^ 52 * 2 ^ s = 2 ^ n.log2 := by
            rw [← pow_add]
            congr 1
            omega
        _ ≤ n := Nat.log2_self_le hn

/-- A count of units that 53 bits can spell is cut without a rest. -/
theorem nearestPattern_exact {q k den : ℕ} (hq : q < 2 ^ 53) (hroom : q * 2 ^ k < 2 ^ 2098)
    (hden : 0 < den) :
    ∃ s low, nearestPattern (q * 2 ^ k * den) den = s * leadingBit + low ∧ s ≤ 2045 ∧
      low < 2 ^ 53 ∧ (s = 0 ∨ 2 ^ 52 ≤ low) ∧ low * 2 ^ s = q * 2 ^ k := by
  generalize hn : q * 2 ^ k = n at hroom ⊢
  generalize hs : n.log2 + 1 - 53 = s
  obtain ⟨hbelow, habove⟩ := shift_spec hs
  have hle : s ≤ k := by
    obtain rfl | habove := habove
    · exact Nat.zero_le k
    · have hlt : 2 ^ (52 + s) < 2 ^ (53 + k) := by
        rw [pow_add, pow_add]
        exact habove.trans_lt (hn ▸ Nat.mul_lt_mul_of_pos_right hq (Nat.two_pow_pos k))
      have := (Nat.pow_lt_pow_iff_right (by decide)).mp hlt
      omega
  have hspread : s ≤ 2045 := by
    obtain rfl | habove := habove
    · exact Nat.zero_le _
    · have hlt : 2 ^ (52 + s) < 2 ^ 2098 := by
        rw [pow_add]
        exact habove.trans_lt hroom
      have := (Nat.pow_lt_pow_iff_right (by decide)).mp hlt
      omega
  have hexact : n / 2 ^ s * 2 ^ s = n :=
    Nat.div_mul_cancel (hn ▸ Dvd.dvd.mul_left (pow_dvd_pow 2 hle) q)
  have hlow : n / 2 ^ s < 2 ^ 53 := Nat.div_lt_of_lt_mul (by rwa [mul_comm])
  have hnormal : s = 0 ∨ 2 ^ 52 ≤ n / 2 ^ s :=
    habove.imp_right (Nat.le_div_iff_mul_le (Nat.two_pow_pos s)).mpr
  have hpattern : s * leadingBit + n / 2 ^ s ≤ infinityPattern := by
    unfold leadingBit infinityPattern
    omega
  have hstep : den <<< s = 2 ^ s * den := by rw [Nat.shiftLeft_eq, mul_comm]
  have hpos : 0 < 2 ^ s * den := Nat.mul_pos (Nat.two_pow_pos s) hden
  have hrest : n * den % (2 ^ s * den) = 0 := by
    rw [Nat.mul_mod_mul_right, ← hexact, Nat.mul_mod_left, zero_mul]
  refine ⟨s, n / 2 ^ s, ?_, hspread, hlow, hnormal, hexact⟩
  rw [nearestPattern, Nat.mul_div_cancel _ hden, hs, hstep, Nat.mul_div_mul_right _ _ hden, hrest,
    mul_zero, if_neg (by omega), min_eq_right hpattern]

theorem units_nearestPattern {q k den : ℕ} (hq : q < 2 ^ 53) (hroom : q * 2 ^ k < 2 ^ 2098)
    (hden : 0 < den) {negative : Bool}
    (hx : x = ofPattern negative (nearestPattern (q * 2 ^ k * den) den)) :
    x.IsFinite ∧ x.isNegative = negative ∧ x.units = q * 2 ^ k := by
  obtain ⟨s, low, hnearest, hs, hlow, hnormal, hexact⟩ := nearestPattern_exact hq hroom hden
  have hpattern : s * leadingBit + low < infinityPattern := by
    unfold leadingBit infinityPattern
    omega
  have hsign : s * leadingBit + low < signBit := hpattern.trans (by decide)
  rw [hnearest] at hx
  have hmagnitude : x.magnitude = s * leadingBit + low := by
    rw [hx, magnitude_ofPattern hsign]
  refine ⟨?_, ?_, ?_⟩
  · rw [isFinite_iff, hmagnitude]
    exact hpattern
  · rw [hx, isNegative_ofPattern hsign]
  · rw [units_of_magnitude hmagnitude hlow hnormal, hexact]

/-! ## Products -/

/-- Of two powers the smaller one is taken out. -/
theorem shiftLeft_sub_eq {m n a e : ℕ} (h : m * 2 ^ a = n * 2 ^ e) :
    m <<< (a - e) = n * (1 <<< (e - a)) := by
  rw [Nat.shiftLeft_eq, Nat.one_shiftLeft]
  refine Nat.eq_of_mul_eq_mul_right (Nat.two_pow_pos e) ?_
  calc m * 2 ^ (a - e) * 2 ^ e = m * 2 ^ (a + (e - a)) := by
        rw [mul_assoc, ← pow_add]
        congr 2
        omega
    _ = m * 2 ^ a * 2 ^ (e - a) := by rw [pow_add, mul_assoc]
    _ = n * 2 ^ (e - a) * 2 ^ e := by rw [h, mul_right_comm]

/-- A product that 53 bits can spell is exact. -/
theorem times_exact (hx : x.IsFinite) (hy : y.IsFinite) {q k : ℕ} (hq : q < 2 ^ 53)
    (hroom : q * 2 ^ k < 2 ^ 2098) (hunits : x.units * y.units = q * 2 ^ k * unitsInOne) :
    (x.times y).IsFinite ∧ (x.times y).value = x.value * y.value := by
  have hscaled : (x.mantissa * y.mantissa) <<< (x.shift + y.shift - 1074) =
      q * 2 ^ k * (1 <<< (1074 - (x.shift + y.shift))) := by
    refine shiftLeft_sub_eq ?_
    rw [← unitsInOne, ← hunits, pow_add, mul_mul_mul_comm]
    rfl
  have hden : 0 < 1 <<< (1074 - (x.shift + y.shift)) := by
    rw [Nat.one_shiftLeft]
    exact Nat.two_pow_pos _
  have htimes : x.times y = ofPattern (x.isNegative != y.isNegative)
      (nearestPattern (q * 2 ^ k * (1 <<< (1074 - (x.shift + y.shift))))
        (1 <<< (1074 - (x.shift + y.shift)))) := by
    rw [times, hx.view_eq, hy.view_eq, ← hscaled]
  obtain ⟨hfinite, hsign, hproduct⟩ := units_nearestPattern hq hroom hden htimes
  refine ⟨hfinite, ?_⟩
  have hsigns : (if (x.times y).isNegative then -1 else 1 : ℚ) =
      (if x.isNegative then -1 else 1) * if y.isNegative then -1 else 1 := by
    rw [hsign]
    cases x.isNegative <;> cases y.isNegative <;> norm_num
  have hone : (unitsInOne : ℚ) ≠ 0 := Nat.cast_ne_zero.mpr unitsInOne_pos.ne'
  rw [value_eq_units, hsigns, hproduct, value_eq_units x, value_eq_units y, mul_mul_mul_comm,
    div_mul_div_comm, ← Nat.cast_mul x.units, hunits, Nat.cast_mul _ unitsInOne,
    mul_div_mul_right _ _ hone]

theorem units_halfWord : halfWord.units = 2 ^ 63 * unitsInOne := by
  have hmantissa : halfWord.mantissa = 2 ^ 52 := by decide
  have hshift : halfWord.shift = 11 + 1074 := by decide
  rw [units, hmantissa, hshift, unitsInOne, pow_add, ← mul_assoc, ← pow_add]

theorem value_halfWord : halfWord.value = 2 ^ 63 := by
  have hone : (unitsInOne : ℚ) ≠ 0 := Nat.cast_ne_zero.mpr unitsInOne_pos.ne'
  rw [value_of_isNegative_eq_false (by decide), units_halfWord, Nat.cast_mul,
    mul_div_cancel_right₀ _ hone, Nat.cast_pow, Nat.cast_ofNat]

/-- Numbers below one can be scaled by a power of two without rounding, subnormal ones included. -/
theorem times_halfWord (hx : x.IsFinite) (hsign : x.isNegative = false) (hbelow : x.value < 1) :
    (x.times halfWord).IsFinite ∧ (x.times halfWord).value = x.value * 2 ^ 63 := by
  have hunits : x.units < unitsInOne := by
    have hone : (0 : ℚ) < unitsInOne := Nat.cast_pos.mpr unitsInOne_pos
    rwa [value_of_isNegative_eq_false hsign, div_lt_one hone, Nat.cast_lt] at hbelow
  rw [← value_halfWord]
  refine times_exact hx (by decide) (q := x.mantissa) (k := x.shift + 63) x.mantissa_lt ?_ ?_
  · calc x.mantissa * 2 ^ (x.shift + 63) = x.units * 2 ^ 63 := by rw [pow_add, ← mul_assoc, units]
      _ < unitsInOne * 2 ^ 63 := Nat.mul_lt_mul_of_pos_right hunits (by decide)
      _ = 2 ^ (1074 + 63) := by rw [unitsInOne, ← pow_add]
      _ ≤ 2 ^ 2098 := pow_le_pow_right₀ one_le_two (by decide)
  · rw [units_halfWord, ← mul_assoc, units, pow_add, ← mul_assoc x.mantissa]

end TraceSampling.Binary64
