import Mathlib.Algebra.BigOperators.Group.Finset.Piecewise
import Mathlib.Data.Nat.Factors
import Mathlib.Data.Nat.ModEq
import TraceSampling.Proofs.Dyeing.Shipping

/-!
# Bitmaps built elsewhere

Whoever builds a bitmap for a filter is told that value `v` owns the bits `(h₁ + j * h₂) mod size`.
Filters cut the sum to a word before they take the rest, which comes to the same if there is no `j`
but zero or if the size divides the number of words. For any other geometry three values are enough
to find one that a bitmap built by the formula lacks.
-/

namespace TraceSampling

namespace FilterGeometry

/-! ## The formula -/

/-- The first hash of a value. -/
def hash₁ (value : String) : Nat := (Hash.fnv Hash.offsetBasis (Hash.utf8 value)).toNat

/-- The second hash of a value, made odd. -/
def hash₂ (value : String) : Nat := (Hash.fnv secondBasis (Hash.utf8 value) ||| 1).toNat

/-- Where the formula puts a value, in numbers without a limit. -/
def formula (g : FilterGeometry) (value : String) (j : Nat) : Nat :=
  (hash₁ value + j * hash₂ value) % g.bitSize

theorem hash₁_lt (value : String) : hash₁ value < UInt64.size := UInt64.toNat_lt_size _

theorem hash₂_lt (value : String) : hash₂ value < UInt64.size := UInt64.toNat_lt_size _

variable (g : FilterGeometry) (value : String)

theorem formula_lt (j : Nat) : g.formula value j < g.bitSize := Nat.mod_lt _ g.bitSize_pos

theorem position_utf8 (j : Nat) :
    g.position (Hash.utf8 value) j =
      (hash₁ value + j * hash₂ value) % UInt64.size % g.bitSize := by
  simp only [position, hash₁, hash₂, UInt64.toNat_add, UInt64.toNat_mul, UInt64.toNat_ofNat']
  congr 1
  rw [Nat.add_mod_mod, Nat.add_mod, Nat.mod_mul_mod, ← Nat.add_mod]

theorem mem_positions_iff {i : Nat} :
    i ∈ g.positions value ↔
      ∃ j < g.hashCount, i = (hash₁ value + j * hash₂ value) % UInt64.size % g.bitSize := by
  simp only [positions, List.mem_map, List.mem_range, position_utf8, eq_comm]

/-! ## Where words do not matter -/

/-- One hash function, or a size that is a power of two. -/
def IsExact (g : FilterGeometry) : Prop := g.hashCount = 1 ∨ g.bitSize.isPowerOfTwo

variable {g}

theorem IsExact.wrapped_eq (h : g.IsExact) {j : Nat} (hj : j < g.hashCount) :
    (hash₁ value + j * hash₂ value) % UInt64.size % g.bitSize = g.formula value j := by
  rw [formula]
  obtain hone | ⟨e, hsize⟩ := h
  · obtain rfl : j = 0 := by omega
    rw [zero_mul, add_zero, Nat.mod_eq_of_lt (hash₁_lt value)]
  · have hpow : 2 ^ e ≤ 2 ^ 32 := hsize ▸ g.bitSize_le
    have he : e ≤ 32 := (Nat.pow_le_pow_iff_right (by decide)).mp hpow
    have hdvd : g.bitSize ∣ UInt64.size := by
      rw [hsize]
      exact pow_dvd_pow 2 (he.trans (by decide) : e ≤ 64)
    exact Nat.mod_mod_of_dvd _ hdvd

/-! ## Where they do -/

/-- How far position `1`, once it has left the words, lies behind the formula for `j`. -/
def gap (value : String) (j : Nat) : Nat := UInt64.size - hash₂ value + j * hash₂ value

def gaps (value : String) : Nat := ∏ j ∈ Finset.range maxHashCount, gap value j

theorem wrapped_ne_formula (hcarry : UInt64.size ≤ hash₁ value + hash₂ value) {p : Nat}
    (hp : p ∣ g.bitSize) {j : Nat} (hgap : ¬p ∣ gap value j) :
    (hash₁ value + 1 * hash₂ value) % UInt64.size % g.bitSize ≠ g.formula value j := by
  intro heq
  have h₁ := hash₁_lt value
  have h₂ := hash₂_lt value
  have hwrapped : (hash₁ value + 1 * hash₂ value) % UInt64.size =
      hash₁ value + hash₂ value - UInt64.size := by
    rw [one_mul, Nat.mod_eq_sub_mod hcarry, Nat.mod_eq_of_lt (by omega)]
  have hbehind : hash₁ value + j * hash₂ value - (hash₁ value + hash₂ value - UInt64.size) =
      gap value j := by
    unfold gap
    omega
  rw [hwrapped, formula] at heq
  have hdvd := (Nat.modEq_iff_dvd' (by omega)).mp heq
  rw [hbehind] at hdvd
  exact hgap (hp.trans hdvd)

/-- No odd prime divides a gap of each of these values. -/
theorem gcd_gaps :
    Nat.gcd (gaps "820") (Nat.gcd (gaps "1822") (gaps "2493")) = 2 ^ 90 := by
  -- An odd prime below 32 has to divide the second hash, or the gaps take every rest by it; each of
  -- them divides one of the three. Larger primes divide no gap of at least one by chance.
  decide +kernel

theorem exists_gap_not_dvd {p : Nat} (hp : p.Prime) (hodd : Odd p) :
    ∃ value, UInt64.size ≤ hash₁ value + hash₂ value ∧
      ∀ j < maxHashCount, ¬p ∣ gap value j := by
  by_contra hnone
  have hdvd : ∀ value, UInt64.size ≤ hash₁ value + hash₂ value → p ∣ gaps value := by
    intro value hcarry
    by_contra hgaps
    refine hnone ⟨value, hcarry, fun j hj hgap => hgaps ?_⟩
    exact hgap.trans (Finset.dvd_prod_of_mem (gap value) (Finset.mem_range.mpr hj))
  have hpow : p ∣ 2 ^ 90 := by
    rw [← gcd_gaps]
    exact Nat.dvd_gcd (hdvd "820" (by decide +kernel))
      (Nat.dvd_gcd (hdvd "1822" (by decide +kernel)) (hdvd "2493" (by decide +kernel)))
  obtain rfl : p = 2 := (Nat.prime_dvd_prime_iff_eq hp Nat.prime_two).mp (hp.dvd_of_dvd_pow hpow)
  exact absurd hodd (by decide)

/-- A value with a position that the formula does not give. -/
theorem exists_strayed (h : ¬g.IsExact) :
    1 < g.hashCount ∧ ∃ value, ∀ j < g.hashCount,
      (hash₁ value + 1 * hash₂ value) % UInt64.size % g.bitSize ≠ g.formula value j := by
  obtain ⟨hone, hsize⟩ := not_or.mp h
  have hpos := g.hashCount_pos
  refine ⟨by omega, ?_⟩
  obtain ⟨e, he⟩ | ⟨p, hp, hdvd, hodd⟩ := g.bitSize.eq_two_pow_or_exists_odd_prime_and_dvd
  · exact absurd ⟨e, he⟩ hsize
  · obtain ⟨value, hcarry, hgap⟩ := exists_gap_not_dvd hp hodd
    exact ⟨value, fun j hj =>
      wrapped_ne_formula value hcarry hdvd (hgap j (hj.trans_le g.hashCount_le))⟩

end FilterGeometry

/-! ## Bits of bytes -/

/-- Bit `i` of bytes as they are shipped: bit `i % 8` of byte `i / 8`. -/
def bitAt (bytes : List UInt8) (i : Nat) : Bool := (bytes.getD (i / 8) 0).toNat.testBit (i % 8)

theorem bitAt_toBytes (b : Bitmap) (i : Nat) : bitAt b.toBytes i = b.test i := by
  have hbyte : b.toBytes.getD (i / 8) 0 = b.byteAt (i / 8) := by
    by_cases hi : i / 8 < b.byteCount
    · simp [Bitmap.toBytes, hi]
    · simp [Bitmap.toBytes, hi, Bitmap.byteAt, b.fits (i / 8) (by omega)]
  rw [bitAt, hbyte, Bitmap.test]

/-- The bits of the bytes are those that the formula gives for the values. -/
def FilterGeometry.Follows (g : FilterGeometry) (values : List String) (bytes : List UInt8) :
    Prop :=
  ∀ i, bitAt bytes i = true ↔ ∃ v ∈ values, ∃ j < g.hashCount, i = g.formula v j

namespace BloomFilter

open FilterGeometry

variable {g : FilterGeometry}

theorem test_blank (n i : Nat) : (Bitmap.blank n).test i = false := by
  simp [Bitmap.test, Bitmap.byteAt, Bitmap.blank, ByteTree.byteAt]

theorem bitAt_insert_empty (value : String) (i : Nat) :
    bitAt ((empty g).insert value).bitmap.toBytes i = true ↔
      ∃ j < g.hashCount, i = (hash₁ value + j * hash₂ value) % UInt64.size % g.bitSize := by
  have hblank : (empty g).bitmap.test i = false := test_blank _ i
  rw [bitAt_toBytes, test_insert, hblank, Bool.false_or, decide_eq_true_iff, ← mem_positions_iff]
  rfl

/-- The filter that is built by the formula. -/
def byFormula (g : FilterGeometry) (values : List String) : BloomFilter where
  geometry := g
  bitmap := (Bitmap.blank g.bytesFor).setAll
    (values.flatMap fun v => (List.range g.hashCount).map (g.formula v))
  covers := by
    rw [Bitmap.byteCount_setAll]
    exact (empty g).covers

theorem follows_byFormula (values : List String) :
    g.Follows values (byFormula g values).bitmap.toBytes := by
  intro i
  have hpositions : ∀ i ∈ values.flatMap fun v => (List.range g.hashCount).map (g.formula v),
      i < 8 * (Bitmap.blank g.bytesFor).byteCount := by
    intro i hi
    obtain ⟨v, -, hi⟩ := List.mem_flatMap.mp hi
    obtain ⟨j, -, rfl⟩ := List.mem_map.mp hi
    exact (g.formula_lt v j).trans_le (empty g).covers
  rw [bitAt_toBytes, byFormula, Bitmap.test_setAll _ hpositions, test_blank]
  simp [eq_comm]

/-- Values own the bits of the formula just for geometries where words do not matter, and these are
the ones for which a bitmap that follows the formula contains every value it was built for. -/
theorem formula_holds_iff (g : FilterGeometry) :
    (∀ value i, bitAt ((empty g).insert value).bitmap.toBytes i = true ↔
      ∃ j < g.hashCount, i = (hash₁ value + j * hash₂ value) % UInt64.size % g.bitSize) ∧
    ((∀ value, g.Follows [value] ((empty g).insert value).bitmap.toBytes) ↔
      g.hashCount = 1 ∨ g.bitSize.isPowerOfTwo) ∧
    ((∀ values bytes f, g.Follows values bytes →
        ofBitmap g.bitSize g.hashCount bytes = .ok f → ∀ v ∈ values, f.contains v = true) ↔
      g.hashCount = 1 ∨ g.bitSize.isPowerOfTwo) := by
  refine ⟨bitAt_insert_empty, ⟨fun h => ?_, fun h => ?_⟩, ⟨fun h => ?_, fun h => ?_⟩⟩
  · by_contra hexact
    obtain ⟨hcount, value, hstrayed⟩ := exists_strayed hexact
    have hset := (bitAt_insert_empty value _).mpr ⟨1, hcount, rfl⟩
    obtain ⟨v, hv, j, hj, hformula⟩ := (h value _).mp hset
    rw [List.mem_singleton.mp hv] at hformula
    exact hstrayed j hj hformula
  · intro value i
    rw [bitAt_insert_empty]
    simp only [List.mem_singleton, exists_eq_left]
    exact exists_congr fun j => and_congr_right fun hj => by rw [IsExact.wrapped_eq value h hj]
  · by_contra hexact
    obtain ⟨hcount, value, hstrayed⟩ := exists_strayed hexact
    have hfollows := follows_byFormula (g := g) [value]
    have hcontains := h [value] _ _ hfollows (byFormula g [value]).ofBitmap_toBytes value
      (List.mem_singleton_self value)
    have hset := (contains_iff _ _).mp hcontains _
      ((mem_positions_iff g value).mpr ⟨1, hcount, rfl⟩)
    rw [← bitAt_toBytes] at hset
    obtain ⟨v, hv, j, hj, hformula⟩ := (hfollows _).mp hset
    rw [List.mem_singleton.mp hv] at hformula
    exact hstrayed j hj hformula
  · intro values bytes f hfollows hopened v hv
    obtain ⟨hsize, hcount, rfl⟩ := ofBitmap_eq_ok_iff.mp hopened
    rw [contains_iff]
    intro i hi
    obtain ⟨j, hj, rfl⟩ := (mem_positions_iff f.geometry v).mp hi
    rw [hcount] at hj
    rw [hsize, IsExact.wrapped_eq v h hj, ← bitAt_toBytes]
    exact (hfollows _).mpr ⟨v, hv, j, hj, rfl⟩

/-- A size that is no power of two. -/
def hundredBits : FilterGeometry := ⟨100, 2, by decide, by decide, by decide, by decide⟩

/-- A value that takes bit 29 where the formula gives bit 45. -/
theorem byFormula_misses_user :
    ¬hundredBits.Follows ["user-1"] ((empty hundredBits).insert "user-1").bitmap.toBytes ∧
      hundredBits.Follows ["user-1"] (byFormula hundredBits ["user-1"]).bitmap.toBytes ∧
      ofBitmap 100 2 (byFormula hundredBits ["user-1"]).bitmap.toBytes =
        .ok (byFormula hundredBits ["user-1"]) ∧
      (byFormula hundredBits ["user-1"]).contains "user-1" = false := by
  refine ⟨fun h => ?_, follows_byFormula _, (byFormula hundredBits _).ofBitmap_toBytes, ?_⟩
  · have hgiven : 45 = hundredBits.formula "user-1" 1 := by decide +kernel
    have hset := (h 45).mpr ⟨"user-1", List.mem_singleton_self _, 1, by decide, hgiven⟩
    exact absurd hset (by decide +kernel)
  · decide +kernel

end BloomFilter

end TraceSampling
