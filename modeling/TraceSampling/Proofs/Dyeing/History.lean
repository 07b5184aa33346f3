import TraceSampling.Proofs.Dyeing.Filter
import TraceSampling.Proofs.Text.Base64

/-!
# Filters through their history

A filter is opened in one of four ways. From then on values are put into it, one or many at a time,
and it is shipped as text and opened again elsewhere. Shipping changes nothing, so a history comes
down to the values that were put in, and their order and number leave no trace in the bits.
-/

namespace TraceSampling

namespace Bitmap

/-- The bits of a byte, and zeros behind them. -/
theorem testBit_byteAt (b : Bitmap) (j r : Nat) :
    (b.byteAt j).toNat.testBit r = if r < 8 then b.test (8 * j + r) else false := by
  split
  · next hr =>
    have hbyte : (8 * j + r) / 8 = j := by omega
    have hbit : (8 * j + r) % 8 = r := by omega
    rw [test, hbyte, hbit]
  · next hr =>
    have hbyte : (b.byteAt j).toNat < 2 ^ 8 := (b.byteAt j).toNat_lt
    have hpow : 2 ^ 8 ≤ 2 ^ r := Nat.pow_le_pow_right (by decide) (by omega)
    exact Nat.testBit_lt_two_pow (Nat.lt_of_lt_of_le hbyte hpow)

theorem ext_test {b c : Bitmap} (hcount : b.byteCount = c.byteCount)
    (h : ∀ i, b.test i = c.test i) : b = c := by
  apply ext_byteAt hcount
  intro j _
  apply UInt8.toNat_inj.mp
  apply Nat.eq_of_testBit_eq
  intro r
  rw [testBit_byteAt, testBit_byteAt, h]

end Bitmap

theorem FilterGeometry.make_eq (g : FilterGeometry) : make g.bitSize g.hashCount = .ok g := by
  rw [make, dif_pos ⟨g.bitSize_pos, g.bitSize_le⟩, dif_pos ⟨g.hashCount_pos, g.hashCount_le⟩]

namespace BloomFilter

variable (f : BloomFilter)

/-! ## Shipping -/

theorem ofBitmap_toBytes :
    ofBitmap f.geometry.bitSize f.geometry.hashCount f.bitmap.toBytes = .ok f := by
  have hcovers : f.geometry.bitSize ≤ 8 * f.bitmap.toBytes.length := by
    simpa [Bitmap.toBytes] using f.covers
  obtain ⟨g, b, _⟩ := f
  simp only [ofBitmap, FilterGeometry.make_eq, bind, Except.bind, dif_pos hcovers, pure,
    Except.pure, Bitmap.ofBytes_toBytes]

theorem trim_toBase64 : Blank.trim f.toBase64.toList = f.toBase64.toList := by
  apply Blank.trim_eq_self
  intro c hc
  rw [toBase64, String.toList_ofList] at hc
  obtain ⟨b, hb, rfl⟩ := List.mem_map.mp hc
  exact (Base64.char_of_mem_encode hb).2

/-- The text of a filter holds the bytes of base64, and trimming takes nothing off. -/
theorem utf8_trim_toBase64 :
    (Blank.trim f.toBase64.toList).flatMap String.utf8EncodeChar =
      Base64.encode f.bitmap.toBytes := by
  have hchars : ∀ b ∈ Base64.encode f.bitmap.toBytes, _ := fun b => Base64.char_of_mem_encode
  rw [trim_toBase64, toBase64, String.toList_ofList, List.flatMap_map]
  generalize Base64.encode f.bitmap.toBytes = text at hchars
  induction text with
  | nil => rfl
  | cons b text ih =>
    have hbehind := ih fun c hc => hchars c (List.mem_cons_of_mem _ hc)
    rw [List.flatMap_cons, (hchars b List.mem_cons_self).1, hbehind]
    rfl

theorem ofBase64_toBase64 :
    ofBase64 f.geometry.bitSize f.geometry.hashCount f.toBase64 = .ok f := by
  rw [ofBase64, utf8_trim_toBase64, Base64.decode_encode]
  exact f.ofBitmap_toBytes

/-! ## Inserting -/

theorem geometry_insertAll (values : List String) :
    (f.insertAll values).geometry = f.geometry := by
  induction values generalizing f with
  | nil => rfl
  | cons v vs ih => exact ih (f.insert v)

theorem byteCount_insertAll (values : List String) :
    (f.insertAll values).bitmap.byteCount = f.bitmap.byteCount := by
  induction values generalizing f with
  | nil => rfl
  | cons v vs ih => exact (ih (f.insert v)).trans (Bitmap.byteCount_setAll _ _)

/-- The bits behind insertions are those before and those of the values. -/
theorem test_insertAll_iff (values : List String) (k : Nat) :
    (f.insertAll values).bitmap.test k = true ↔
      f.bitmap.test k = true ∨ ∃ v ∈ values, k ∈ f.geometry.positions v := by
  induction values generalizing f with
  | nil => simp [insertAll]
  | cons v vs ih =>
    have hrest : ((f.insert v).insertAll vs).bitmap.test k = true ↔ _ := ih (f.insert v)
    rw [insertAll, List.foldl_cons, ← insertAll, hrest, test_insert, geometry_insert]
    simp [or_assoc]

theorem insertAll_append (values more : List String) :
    f.insertAll (values ++ more) = (f.insertAll values).insertAll more :=
  List.foldl_append

theorem ext_test {f g : BloomFilter} (hgeometry : f.geometry = g.geometry)
    (hcount : f.bitmap.byteCount = g.bitmap.byteCount)
    (h : ∀ k, f.bitmap.test k = g.bitmap.test k) : f = g := by
  have hbitmap : f.bitmap = g.bitmap := Bitmap.ext_test hcount h
  cases f
  cases g
  cases hgeometry
  cases hbitmap
  rfl

theorem insertAll_congr {values values' : List String} (h : ∀ v, v ∈ values' ↔ v ∈ values) :
    f.insertAll values' = f.insertAll values := by
  apply ext_test
  · rw [geometry_insertAll, geometry_insertAll]
  · rw [byteCount_insertAll, byteCount_insertAll]
  · intro k
    rw [Bool.eq_iff_iff, test_insertAll_iff, test_insertAll_iff]
    simp only [h]

end BloomFilter

/-! ## Histories -/

/-- How a filter is opened. -/
inductive FilterOrigin where
  | blank (bitSize hashCount : Nat)
  | sized (count : Nat) (rate : Binary64)
  | bitmap (bitSize hashCount : Nat) (bytes : List UInt8)
  | shipped (bitSize hashCount : Nat) (text : String)
  deriving DecidableEq

def FilterOrigin.opened : FilterOrigin → Except FilterFault BloomFilter
  | blank bitSize hashCount => BloomFilter.make bitSize hashCount
  | sized count rate => BloomFilter.forRate count rate
  | bitmap bitSize hashCount bytes => BloomFilter.ofBitmap bitSize hashCount bytes
  | shipped bitSize hashCount text => BloomFilter.ofBase64 bitSize hashCount text

inductive FilterStep where
  | insert (value : String)
  | extend (values : List String)
  /-- Sent as text and opened with the same geometry. -/
  | copy
  deriving DecidableEq

namespace FilterStep

def values : FilterStep → List String
  | insert value => [value]
  | extend values => values
  | copy => []

/-- All that a history puts in. -/
def inserted (steps : List FilterStep) : List String := steps.flatMap values

@[simp] theorem inserted_cons (s : FilterStep) (steps : List FilterStep) :
    inserted (s :: steps) = s.values ++ inserted steps := rfl

theorem inserted_append (earlier later : List FilterStep) :
    inserted (earlier ++ later) = inserted earlier ++ inserted later :=
  List.flatMap_append

end FilterStep

open FilterStep (inserted)

namespace BloomFilter

def step (f : BloomFilter) : FilterStep → Except FilterFault BloomFilter
  | .insert value => .ok (f.insert value)
  | .extend values => .ok (f.insertAll values)
  | .copy => ofBase64 f.geometry.bitSize f.geometry.hashCount f.toBase64

def run (f : BloomFilter) (steps : List FilterStep) : Except FilterFault BloomFilter :=
  steps.foldlM step f

theorem step_eq (f : BloomFilter) (s : FilterStep) : f.step s = .ok (f.insertAll s.values) := by
  cases s with
  | insert value => rfl
  | extend values => rfl
  | copy => exact f.ofBase64_toBase64

/-- No history fails, and only what it inserts counts. -/
theorem run_eq (f : BloomFilter) (steps : List FilterStep) :
    f.run steps = .ok (f.insertAll (inserted steps)) := by
  induction steps generalizing f with
  | nil => rfl
  | cons s steps ih =>
    rw [run, List.foldlM_cons, step_eq, FilterStep.inserted_cons, insertAll_append]
    exact ih (f.insertAll s.values)

theorem index_lt (f : BloomFilter) {value : String} {i : Nat}
    (h : i ∈ f.geometry.positions value) :
    i < f.geometry.bitSize ∧ i / 8 < f.bitmap.toBytes.length := by
  have hlt := FilterGeometry.lt_of_mem_positions h
  have hcovers := f.covers
  have hlength : f.bitmap.toBytes.length = f.bitmap.byteCount := by simp [Bitmap.toBytes]
  omega

end BloomFilter

namespace FilterOrigin

/-- What has become of a filter. -/
def after (o : FilterOrigin) (steps : List FilterStep) : Except FilterFault BloomFilter := do
  (← o.opened).run steps

variable {o : FilterOrigin} {f : BloomFilter}

theorem after_eq (h : o.opened = .ok f) (steps : List FilterStep) :
    o.after steps = .ok (f.insertAll (inserted steps)) := by
  rw [after, h]
  exact f.run_eq steps

/-- Behind any history, a filter contains all that was inserted and all that it has contained before.
Each position of a value lies in the bitmap, whose length stays what it was, as does the geometry.
Histories that insert the same values into the same filter end alike. -/
theorem after_sound (h : o.opened = .ok f) (steps : List FilterStep) :
    ∃ g, o.after steps = .ok g ∧
      (∀ v ∈ inserted steps, g.contains v = true) ∧
      (∀ earlier later, steps = earlier ++ later →
        ∃ e, o.after earlier = .ok e ∧ e.run later = .ok g ∧
          ∀ v, e.contains v = true → g.contains v = true) ∧
      (∀ v, ∀ i ∈ g.geometry.positions v,
        i < g.geometry.bitSize ∧ i / 8 < g.bitmap.toBytes.length) ∧
      g.geometry = f.geometry ∧ g.bitmap.toBytes.length = f.bitmap.toBytes.length ∧
      ∀ (o' : FilterOrigin) (steps' : List FilterStep), o'.opened = .ok f →
        (∀ v, v ∈ inserted steps' ↔ v ∈ inserted steps) → o'.after steps' = .ok g := by
  refine ⟨f.insertAll (inserted steps), after_eq h steps, ?_, ?_, ?_, ?_, ?_, ?_⟩
  · intro v hv
    exact f.contains_insertAll_of_mem hv
  · rintro earlier later rfl
    refine ⟨f.insertAll (inserted earlier), after_eq h earlier, ?_, ?_⟩
    · rw [BloomFilter.run_eq, FilterStep.inserted_append, BloomFilter.insertAll_append]
    · intro v hv
      rw [FilterStep.inserted_append, BloomFilter.insertAll_append]
      exact BloomFilter.contains_insertAll hv _
  · intro v i hi
    exact BloomFilter.index_lt _ hi
  · exact f.geometry_insertAll _
  · simp [Bitmap.toBytes, f.byteCount_insertAll]
  · intro o' steps' hopened hsame
    rw [after_eq hopened, f.insertAll_congr hsame]

/-- A bitmap with more bytes than its bits need, some of them set. -/
def roomy : FilterOrigin := .bitmap 12 3 [0x81, 0, 0xff]

theorem after_roomy :
    ∃ f, roomy.opened = .ok f ∧
      ∃ g, roomy.after [.insert "a", .copy, .extend ["b", "a"], .copy] = .ok g ∧
        g.contains "a" = true ∧ g.contains "b" = true ∧ g.bitmap.toBytes.length = 3 ∧
        roomy.after [.extend ["b", "a", "b"]] = .ok g := by
  obtain ⟨f, hopened, hlength⟩ :
      ∃ f, roomy.opened = .ok f ∧ f.bitmap.toBytes.length = 3 := ⟨_, rfl, by decide +kernel⟩
  obtain ⟨g, hafter, hinserted, -, -, -, hcount, hsame⟩ :=
    after_sound hopened [.insert "a", .copy, .extend ["b", "a"], .copy]
  refine ⟨f, hopened, g, hafter, hinserted "a" (by decide), hinserted "b" (by decide),
    hcount.trans hlength, ?_⟩
  apply hsame roomy [.extend ["b", "a", "b"]] hopened
  have hvalues : ∀ v, v ∈ ["b", "a", "b"] ↔ v ∈ ["a", "b", "a"] := by grind
  exact hvalues

end FilterOrigin

end TraceSampling
