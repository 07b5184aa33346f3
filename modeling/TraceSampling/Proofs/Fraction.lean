import Mathlib.Data.Set.Card
import TraceSampling.Fraction
import TraceSampling.Proofs.Binary64.Value

/-!
# Exact, nested and independent selections

Which traces a fraction keeps follows from the rational behind it: the bound that is computed in
binary64 numbers is the exact one, so the fractions keep initial segments of the numbers of 63 bits.
The start of a trace and its failures read disjoint bits of the id.
-/

namespace TraceSampling.Fraction

/-! ## Bits of an id -/

/-- The top 63 bits of the low half. -/
def startBits (id : TraceId) : BitVec 63 := id.extractLsb' 1 63

/-- The top 63 bits of the high half. -/
def failureBits (id : TraceId) : BitVec 63 := id.extractLsb' 65 63

theorem word_append (bs : List (BitVec 8)) (b : BitVec 8) :
    word (bs ++ [b]) = 256 * word bs + b.toNat := by
  rw [word, List.foldl_append]
  rfl

/-- Bytes that follow each other spell the bits that they cover. -/
theorem word_range (id : TraceId) (n s : ℕ) :
    word ((List.range n).map fun i => id.extractLsb' (s + 8 * (n - 1 - i)) 8) =
      id.toNat / 2 ^ s % 2 ^ (8 * n) := by
  induction n generalizing s with
  | zero => rw [mul_zero, pow_zero, Nat.mod_one]; rfl
  | succ n ih =>
    have hinit : (List.range n).map (fun i => id.extractLsb' (s + 8 * (n + 1 - 1 - i)) 8) =
        (List.range n).map fun i => id.extractLsb' (s + 8 + 8 * (n - 1 - i)) 8 := by
      refine List.map_congr_left fun i hi => ?_
      have hlt := List.mem_range.mp hi
      congr 1
      omega
    rw [List.range_succ, List.map_append, List.map_singleton, word_append, hinit, ih,
      BitVec.extractLsb'_toNat, Nat.add_sub_cancel, Nat.sub_self, mul_zero, add_zero,
      Nat.shiftRight_eq_div_pow, pow_add 2 s, ← Nat.div_div_eq_div_mul, mul_add_one, pow_add,
      mul_comm (2 ^ (8 * n)), Nat.mod_mul]
    omega

theorem lowHalf_eq (id : TraceId) : lowHalf id = id.toNat % 2 ^ 64 := by
  have hbytes : (bytes id).drop 8 = (List.range 8).map fun i =>
    id.extractLsb' (0 + 8 * (8 - 1 - i)) 8 := rfl
  rw [lowHalf, hbytes, word_range, pow_zero, Nat.div_one]

theorem highHalf_eq (id : TraceId) : highHalf id = id.toNat / 2 ^ 64 % 2 ^ 64 := by
  have hbytes : (bytes id).take 8 = (List.range 8).map fun i =>
    id.extractLsb' (64 + 8 * (8 - 1 - i)) 8 := rfl
  rw [highHalf, hbytes, word_range]

theorem lowHalf_half (id : TraceId) : lowHalf id / 2 = (startBits id).toNat := by
  rw [lowHalf_eq, startBits, BitVec.extractLsb'_toNat, Nat.shiftRight_eq_div_pow]
  omega

theorem highHalf_half (id : TraceId) : highHalf id / 2 = (failureBits id).toNat := by
  rw [highHalf_eq, failureBits, BitVec.extractLsb'_toNat, Nat.shiftRight_eq_div_pow]
  omega

/-- An id as the bits of its halves that decide, each with the one that does not. -/
def halves : TraceId ≃ (BitVec 63 × BitVec 1) × BitVec 63 × BitVec 1 where
  toFun id := ((startBits id, id.extractLsb' 0 1), (failureBits id, id.extractLsb' 64 1))
  invFun p := BitVec.ofNat 128
    (p.1.2.toNat + 2 * p.1.1.toNat + 2 ^ 64 * (p.2.2.toNat + 2 * p.2.1.toNat))
  left_inv id := by
    refine BitVec.eq_of_toNat_eq ?_
    have hid := id.isLt
    simp only [startBits, failureBits, BitVec.extractLsb'_toNat, BitVec.toNat_ofNat,
      Nat.shiftRight_eq_div_pow]
    omega
  right_inv p := by
    obtain ⟨⟨low, lowest⟩, high, highest⟩ := p
    have hlow := low.isLt
    have hlowest := lowest.isLt
    have hhigh := high.isLt
    have hhighest := highest.isLt
    simp only [Prod.mk.injEq]
    refine ⟨⟨?_, ?_⟩, ?_, ?_⟩ <;> refine BitVec.eq_of_toNat_eq ?_ <;>
      simp only [startBits, failureBits, BitVec.extractLsb'_toNat, BitVec.toNat_ofNat,
        Nat.shiftRight_eq_div_pow] <;>
      omega

/-! ## Which ids -/

variable {f g : Binary64}

theorem floor_le (hbelow : f.value < 1) : ⌊max f.value 0 * 2 ^ 63⌋₊ ≤ 2 ^ 63 := by
  refine Nat.floor_le_of_le ?_
  rw [Nat.cast_pow, Nat.cast_ofNat]
  exact mul_le_of_le_one_left (by positivity) (max_le hbelow.le zero_le_one)

theorem bound_eq_floor (hf : f.IsFinite) (hbelow : f.value < 1) :
    bound f = ⌊max f.value 0 * 2 ^ 63⌋₊ := by
  have hvalue := Binary64.value_atLeastZero hf
  have hsmall : f.atLeastZero.value < 1 := hvalue.trans_lt (max_lt hbelow one_pos)
  obtain ⟨hfinite, hproduct⟩ :=
    Binary64.times_halfWord hf.atLeastZero f.isNegative_atLeastZero hsmall
  have hword : ⌊max f.value 0 * 2 ^ 63⌋₊ ≤ maxWord := (floor_le hbelow).trans (by decide)
  rw [bound, Binary64.toWord_eq_floor hfinite, hproduct, hvalue, capped, min_eq_left hword]

/-- The number nearest to a tenth is a little above it. -/
example : bound ⟨0x3fb999999999999a⟩ = 2 ^ 63 / 10 + 52 := by decide +kernel

theorem selects_iff (hf : f.IsFinite) (half : ℕ) :
    selects f half = true ↔ 1 ≤ f.value ∨ half / 2 < ⌊max f.value 0 * 2 ^ 63⌋₊ := by
  rw [selects, Bool.or_eq_true, Binary64.isFull_iff hf, decide_eq_true_eq]
  refine or_congr_right' fun hbelow => ?_
  rw [bound_eq_floor hf (not_le.mp hbelow)]

theorem selectsStart_iff (hf : f.IsFinite) (id : TraceId) :
    selectsStart f id = true ↔
      1 ≤ f.value ∨ (startBits id).toNat < ⌊max f.value 0 * 2 ^ 63⌋₊ := by
  rw [selectsStart, selects_iff hf, lowHalf_half]

theorem selectsFailure_iff (hf : f.IsFinite) (id : TraceId) :
    selectsFailure f id = true ↔
      1 ≤ f.value ∨ (failureBits id).toNat < ⌊max f.value 0 * 2 ^ 63⌋₊ := by
  rw [selectsFailure, selects_iff hf, highHalf_half]

/-- The larger a fraction, the more it keeps. -/
theorem selects_mono (hf : f.IsFinite) (hg : g.IsFinite) (hle : f.value ≤ g.value) {half : ℕ}
    (h : selects f half = true) : selects g half = true := by
  rw [selects_iff hf] at h
  rw [selects_iff hg]
  refine h.imp hle.trans' fun hlt => hlt.trans_le (Nat.floor_mono ?_)
  gcongr

/-! ## How many -/

/-- What a fraction from zero up to one keeps of the numbers of 63 bits. -/
def kept (f : Binary64) : Set (BitVec 63) := {b | b.toNat < ⌊f.value * 2 ^ 63⌋₊}

theorem selectsStart_iff_mem (hf : f.IsFinite) (hproper : f.value ∈ Set.Ico 0 1) (id : TraceId) :
    selectsStart f id = true ↔ startBits id ∈ kept f := by
  rw [selectsStart_iff hf, max_eq_left hproper.1, or_iff_right (not_le.mpr hproper.2)]
  rfl

theorem selectsFailure_iff_mem (hf : f.IsFinite) (hproper : f.value ∈ Set.Ico 0 1)
    (id : TraceId) : selectsFailure f id = true ↔ failureBits id ∈ kept f := by
  rw [selectsFailure_iff hf, max_eq_left hproper.1, or_iff_right (not_le.mpr hproper.2)]
  rfl

theorem ncard_below {w n : ℕ} (h : n ≤ 2 ^ w) : {b : BitVec w | b.toNat < n}.ncard = n := by
  have htoNat : ∀ i, i < n → (BitVec.ofNat w i).toNat = i := fun i hi => by
    rw [BitVec.toNat_ofNat, Nat.mod_eq_of_lt (hi.trans_le h)]
  refine Set.ncard_eq_of_bijective (fun i _ => BitVec.ofNat w i) ?_ ?_ ?_
  · intro b hb
    exact ⟨b.toNat, hb, by rw [BitVec.ofNat_toNat, BitVec.setWidth_eq]⟩
  · intro i hi
    exact (htoNat i hi).trans_lt hi
  · intro i j hi hj hij
    rw [← htoNat i hi, ← htoNat j hj, hij]

theorem ncard_univ (w : ℕ) : (Set.univ : Set (BitVec w)).ncard = 2 ^ w := by
  rw [← ncard_below le_rfl]
  exact congrArg Set.ncard (Set.eq_univ_of_forall fun b => b.isLt).symm

theorem ncard_kept (hproper : f.value ∈ Set.Ico 0 1) : (kept f).ncard = ⌊f.value * 2 ^ 63⌋₊ := by
  have hle := floor_le hproper.2
  rw [max_eq_left hproper.1] at hle
  exact ncard_below hle

/-- The deciding bits of the two halves are free of each other, and of two bits more. -/
theorem ncard_halves (s t : Set (BitVec 63)) :
    {id | startBits id ∈ s ∧ failureBits id ∈ t}.ncard = 4 * s.ncard * t.ncard := by
  have hset : {id | startBits id ∈ s ∧ failureBits id ∈ t} =
      Set.preimage halves ((s ×ˢ Set.univ) ×ˢ (t ×ˢ Set.univ)) := by
    ext id
    simp [halves]
  rw [hset, Set.ncard_preimage_of_injective_subset_range halves.injective
    (by simp [halves.surjective.range_eq]), Set.ncard_prod, Set.ncard_prod, Set.ncard_prod,
    ncard_univ]
  ring

theorem startBits_surjective : Function.Surjective startBits := fun b =>
  ⟨halves.symm ((b, 0), (0, 0)), congrArg (·.1.1) (halves.apply_symm_apply ((b, 0), (0, 0)))⟩

theorem failureBits_surjective : Function.Surjective failureBits := fun b =>
  ⟨halves.symm ((0, 0), (b, 0)), congrArg (·.2.1) (halves.apply_symm_apply ((0, 0), (b, 0)))⟩

/-- A trace is kept exactly when 63 bits of its id are below the exact share of the fraction, at
the start those of the low half and on failures those of the high half. So a larger fraction keeps
all that a smaller one does, each keeps its exact share of the numbers, and neither selection tells
anything about the other. -/
theorem selects_exact_nested_independent (hf : f.IsFinite) (hg : g.IsFinite) :
    (∀ id,
      (selectsStart f id = true ↔
        1 ≤ f.value ∨ (startBits id).toNat < ⌊max f.value 0 * 2 ^ 63⌋₊) ∧
      (selectsFailure f id = true ↔
        1 ≤ f.value ∨ (failureBits id).toNat < ⌊max f.value 0 * 2 ^ 63⌋₊)) ∧
    (f.value ≤ g.value → ∀ id,
      (selectsStart f id = true → selectsStart g id = true) ∧
      (selectsFailure f id = true → selectsFailure g id = true)) ∧
    (f.value ∈ Set.Ico 0 1 →
      (startBits '' {id | selectsStart f id = true}).ncard = ⌊f.value * 2 ^ 63⌋₊ ∧
      (failureBits '' {id | selectsFailure f id = true}).ncard = ⌊f.value * 2 ^ 63⌋₊) ∧
    (f.value ∈ Set.Ico 0 1 → g.value ∈ Set.Ico 0 1 →
      {id | selectsStart f id = true ∧ selectsFailure g id = true}.ncard =
        4 * ⌊f.value * 2 ^ 63⌋₊ * ⌊g.value * 2 ^ 63⌋₊) := by
  refine ⟨fun id => ⟨selectsStart_iff hf id, selectsFailure_iff hf id⟩,
    fun hle id => ⟨selects_mono hf hg hle, selects_mono hf hg hle⟩, fun hproper => ?_,
    fun hfproper hgproper => ?_⟩
  · simp only [selectsStart_iff_mem hf hproper, selectsFailure_iff_mem hf hproper]
    rw [← ncard_kept hproper]
    exact ⟨congrArg Set.ncard (Set.image_preimage_eq (kept f) startBits_surjective),
      congrArg Set.ncard (Set.image_preimage_eq (kept f) failureBits_surjective)⟩
  · simp only [selectsStart_iff_mem hf hfproper, selectsFailure_iff_mem hg hgproper]
    rw [ncard_halves, ncard_kept hfproper, ncard_kept hgproper]

/-- The number nearest to a tenth. -/
def tenth : Binary64 := ⟨0x3fb999999999999a⟩

/-- The largest number below one. -/
def almostOne : Binary64 := ⟨0x3fefffffffffffff⟩

theorem value_tenth : tenth.value = 7205759403792794 / 2 ^ 56 := by
  have hsign : tenth.isNegative = false := by decide
  have hexponent : tenth.exponentField = 1019 := by decide
  have hfraction : tenth.fractionField = 2702159776422298 := by decide
  rw [Binary64.value, hsign, hexponent, hfraction]
  norm_num

theorem value_almostOne : almostOne.value = 1 - 1 / 2 ^ 53 := by
  have hsign : almostOne.isNegative = false := by decide
  have hexponent : almostOne.exponentField = 1022 := by decide
  have hfraction : almostOne.fractionField = 2 ^ 52 - 1 := by decide
  rw [Binary64.value, hsign, hexponent, hfraction]
  norm_num

/-- A trace is kept at its start in a tenth of the cases, by the share that binary64 gives it, and
on failures in nearly all. -/
theorem selects_tenth_almostOne :
    tenth.IsFinite ∧ almostOne.IsFinite ∧
      (∀ id, selectsStart tenth id = true → selectsStart almostOne id = true) ∧
      (startBits '' {id | selectsStart tenth id = true}).ncard = 922337203685477632 ∧
      {id | selectsStart tenth id = true ∧ selectsFailure almostOne id = true}.ncard =
        4 * 922337203685477632 * (2 ^ 63 - 2 ^ 10) := by
  have htenth : ⌊tenth.value * 2 ^ 63⌋₊ = 922337203685477632 := by
    rw [value_tenth]
    norm_num
  have halmostOne : ⌊almostOne.value * 2 ^ 63⌋₊ = 2 ^ 63 - 2 ^ 10 := by
    rw [value_almostOne]
    norm_num
  have hproper : tenth.value ∈ Set.Ico 0 1 ∧ almostOne.value ∈ Set.Ico 0 1 := by
    rw [value_tenth, value_almostOne]
    norm_num
  obtain ⟨-, hnested, hcount, hboth⟩ :=
    @selects_exact_nested_independent tenth almostOne (by decide) (by decide)
  refine ⟨by decide, by decide, fun id => (hnested ?_ id).1, ?_, ?_⟩
  · rw [value_tenth, value_almostOne]
    norm_num
  · rw [(hcount hproper.1).1, htenth]
  · rw [hboth hproper.1 hproper.2, htenth, halmostOne]

end TraceSampling.Fraction
