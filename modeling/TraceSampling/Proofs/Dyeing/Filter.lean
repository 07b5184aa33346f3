import TraceSampling.Dyeing.BloomFilter

/-!
# Membership in filters

Setting bits adds exactly those bits, as long as they lie inside of the bitmap, and the positions of
a value always do. So a value is contained as soon as it was inserted, and stays so.
-/

namespace TraceSampling

namespace Bitmap

theorem testBit_bitMask (i r : Nat) :
    (bitMask i).toNat.testBit r = decide (i % 8 = r) := by
  have hi : i % 8 < 8 := Nat.mod_lt i (by decide)
  have hword : 1 <<< (i % 8) < 256 := by
    rw [Nat.one_shiftLeft]
    exact Nat.pow_lt_pow_right (by decide) hi
  rw [bitMask, UInt8.toNat_ofNat_of_lt' hword, Nat.one_shiftLeft, Nat.testBit_two_pow]

theorem test_set (b : Bitmap) {i : Nat} (hi : i < 8 * b.byteCount) (k : Nat) :
    (b.set i).test k = (b.test k || decide (k = i)) := by
  have hbyte : i / 8 < b.byteCount := by omega
  rw [test, set, byteAt_mark b hbyte]
  split
  · next hsame =>
    have heq : i % 8 = k % 8 ↔ k = i := by omega
    rw [UInt8.toNat_or, Nat.testBit_or, testBit_bitMask, test]
    simp only [heq]
  · next hother =>
    have hne : k ≠ i := by
      rintro rfl
      exact hother rfl
    simp [test, hne]

theorem byteCount_set (b : Bitmap) (i : Nat) : (b.set i).byteCount = b.byteCount :=
  byteCount_mark b _ _

theorem test_setAll (b : Bitmap) {positions : List Nat}
    (hpos : ∀ i ∈ positions, i < 8 * b.byteCount) (k : Nat) :
    (b.setAll positions).test k = (b.test k || decide (k ∈ positions)) := by
  induction positions generalizing b with
  | nil => simp [setAll]
  | cons i is ih =>
    have hi : i < 8 * b.byteCount := hpos i (by simp)
    have his : ∀ j ∈ is, j < 8 * (b.set i).byteCount := by
      intro j hj
      rw [byteCount_set]
      exact hpos j (by simp [hj])
    have hrest : ((b.set i).setAll is).test k = _ := ih (b.set i) his
    rw [setAll, List.foldl_cons, ← setAll, hrest, test_set b hi, Bool.or_assoc]
    simp [List.mem_cons]

end Bitmap

namespace BloomFilter

theorem contains_iff (f : BloomFilter) (value : String) :
    f.contains value = true ↔ ∀ i ∈ f.geometry.positions value, f.bitmap.test i = true :=
  List.all_eq_true

@[simp] theorem geometry_insert (f : BloomFilter) (value : String) :
    (f.insert value).geometry = f.geometry := rfl

theorem test_insert (f : BloomFilter) (value : String) (k : Nat) :
    (f.insert value).bitmap.test k =
      (f.bitmap.test k || decide (k ∈ f.geometry.positions value)) := by
  apply Bitmap.test_setAll
  intro i hi
  have hlt : i < f.geometry.bitSize := FilterGeometry.lt_of_mem_positions hi
  exact Nat.lt_of_lt_of_le hlt f.covers

theorem contains_insert_self (f : BloomFilter) (value : String) :
    (f.insert value).contains value = true := by
  rw [contains_iff]
  intro i hi
  rw [geometry_insert] at hi
  simp [test_insert, hi]

theorem contains_insert {f : BloomFilter} {value : String} (h : f.contains value = true)
    (other : String) : (f.insert other).contains value = true := by
  rw [contains_iff] at h ⊢
  intro i hi
  simp [test_insert, h i hi]

theorem contains_insertAll {f : BloomFilter} {value : String} (h : f.contains value = true)
    (values : List String) : (f.insertAll values).contains value = true := by
  induction values generalizing f with
  | nil => exact h
  | cons v vs ih => exact ih (contains_insert h v)

theorem contains_insertAll_of_mem (f : BloomFilter) {value : String} {values : List String}
    (h : value ∈ values) : (f.insertAll values).contains value = true := by
  induction values generalizing f with
  | nil => simp at h
  | cons v vs ih =>
    rcases List.mem_cons.mp h with rfl | h
    · exact contains_insertAll (contains_insert_self f value) vs
    · exact ih (f.insert v) h

end BloomFilter

end TraceSampling
