import TraceSampling.Dyeing.ByteTree

/-!
# Bitmaps

Some bytes seen as bits: bit `i` is bit `i % 8` of byte `i / 8`, low bits first. Bytes that are zero
take no room. Equal bytes make equal bitmaps, and bytes read into a bitmap are read out again.
-/

namespace TraceSampling

/-- A height at which a tree has room for some bytes. -/
def Bitmap.height (byteCount : Nat) : Nat := byteCount.log2 + 1

structure Bitmap where
  byteCount : Nat
  tree : ByteTree
  proper : tree.Proper (Bitmap.height byteCount)
  fits : ∀ j, byteCount ≤ j → tree.byteAt j = 0
  deriving DecidableEq, Repr

namespace Bitmap

def byteAt (b : Bitmap) (j : Nat) : UInt8 := b.tree.byteAt j

def blank (byteCount : Nat) : Bitmap where
  byteCount := byteCount
  tree := .blank
  proper := .blank
  fits := fun _ _ => rfl

theorem lt_height {j n : Nat} (h : j < n) : j < 1 <<< height n := by
  rw [Nat.one_shiftLeft]
  exact Nat.lt_trans h Nat.lt_log2_self

/-- Adds the bits of a mask to a byte. There are no bytes behind the last one. -/
def mark (b : Bitmap) (j : Nat) (mask : UInt8) : Bitmap :=
  if h : j < b.byteCount ∧ mask ≠ 0 then
    { byteCount := b.byteCount
      tree := b.tree.mark (height b.byteCount) j mask
      proper := b.proper.mark j h.2
      fits := fun k hk => by
        rw [b.proper.byteAt_mark (lt_height h.1), if_neg (by omega), b.fits k hk] }
  else b

/-! ## Bits -/

def test (b : Bitmap) (i : Nat) : Bool := (b.byteAt (i / 8)).toNat.testBit (i % 8)

/-- The place of a bit in its byte. -/
def bitMask (i : Nat) : UInt8 := UInt8.ofNat (1 <<< (i % 8))

def set (b : Bitmap) (i : Nat) : Bitmap := b.mark (i / 8) (bitMask i)

/-- Sets the bits at the given positions. -/
def setAll (b : Bitmap) (positions : List Nat) : Bitmap := positions.foldl set b

/-! ## Bytes -/

/-- Adds bytes from an index on. -/
def fill : Nat → List UInt8 → Bitmap → Bitmap
  | _, [], b => b
  | j, byte :: rest, b => fill (j + 1) rest (b.mark j byte)

def ofBytes (bytes : List UInt8) : Bitmap := fill 0 bytes (blank bytes.length)

def toBytes (b : Bitmap) : List UInt8 := (List.range b.byteCount).map b.byteAt

/-! ## Marking a byte -/

@[simp] theorem byteCount_mark (b : Bitmap) (j : Nat) (mask : UInt8) :
    (b.mark j mask).byteCount = b.byteCount := by
  unfold mark
  split <;> rfl

theorem byteAt_mark (b : Bitmap) {j : Nat} (hj : j < b.byteCount) (mask : UInt8) (k : Nat) :
    (b.mark j mask).byteAt k = if k = j then b.byteAt k ||| mask else b.byteAt k := by
  by_cases hm : mask = 0
  · simp [mark, hm]
  · rw [mark, dif_pos ⟨hj, hm⟩]
    exact b.proper.byteAt_mark (lt_height hj) mask k

@[simp] theorem byteCount_setAll (b : Bitmap) (positions : List Nat) :
    (b.setAll positions).byteCount = b.byteCount := by
  induction positions generalizing b with
  | nil => rfl
  | cons i is ih => exact (ih (b.set i)).trans (byteCount_mark b _ _)

/-! ## Equality -/

theorem ext_byteAt {b c : Bitmap} (hn : b.byteCount = c.byteCount)
    (hb : ∀ j, j < b.byteCount → b.byteAt j = c.byteAt j) : b = c := by
  obtain ⟨n, t, ht, hft⟩ := b
  obtain ⟨m, u, hu, hfu⟩ := c
  obtain rfl : n = m := hn
  have : t = u := ht.eq_of_byteAt hu fun j => by
    by_cases hj : j < n
    · exact hb j hj
    · rw [hft j (by omega), hfu j (by omega)]
  subst this
  rfl

/-! ## Reading and writing bytes -/

@[simp] theorem byteCount_fill (j : Nat) (bytes : List UInt8) (b : Bitmap) :
    (fill j bytes b).byteCount = b.byteCount := by
  induction bytes generalizing j b with
  | nil => rfl
  | cons byte rest ih => rw [fill, ih, byteCount_mark]

@[simp] theorem byteCount_ofBytes (bytes : List UInt8) : (ofBytes bytes).byteCount = bytes.length :=
  byteCount_fill 0 bytes (blank bytes.length)

theorem byteAt_fill {j : Nat} {bytes : List UInt8} {b : Bitmap}
    (hfit : j + bytes.length ≤ b.byteCount) (k : Nat) :
    (fill j bytes b).byteAt k =
      if j ≤ k then b.byteAt k ||| bytes.getD (k - j) 0 else b.byteAt k := by
  induction bytes generalizing j b with
  | nil => simp [fill]
  | cons byte rest ih =>
    rw [List.length_cons] at hfit
    rw [fill, ih (by rw [byteCount_mark]; omega), byteAt_mark b (by omega)]
    by_cases hk : k = j
    · subst hk
      rw [if_neg (by omega)]
      simp
    · by_cases hlt : j ≤ k
      · have hsucc : k - j = (k - (j + 1)) + 1 := by omega
        rw [if_pos (by omega), if_neg hk, if_pos hlt, hsucc, List.getD_cons_succ]
      · rw [if_neg (by omega), if_neg hk, if_neg hlt]

theorem byteAt_ofBytes (bytes : List UInt8) (j : Nat) :
    (ofBytes bytes).byteAt j = bytes.getD j 0 := by
  rw [ofBytes, byteAt_fill (by simp [blank]), if_pos (Nat.zero_le j)]
  simp [byteAt, blank, ByteTree.byteAt]

theorem toBytes_ofBytes (bytes : List UInt8) : (ofBytes bytes).toBytes = bytes := by
  apply List.ext_getElem
  · simp [toBytes]
  · intro j _ h
    simp [toBytes, byteAt_ofBytes, h]

theorem ofBytes_toBytes (b : Bitmap) : ofBytes b.toBytes = b := by
  apply ext_byteAt
  · simp [toBytes]
  · intro j hj
    rw [byteCount_ofBytes] at hj
    simp_all [byteAt_ofBytes, toBytes]

end Bitmap

end TraceSampling
