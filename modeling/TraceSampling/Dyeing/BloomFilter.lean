import TraceSampling.Binary64.Shortest
import TraceSampling.Dyeing.Bitmap
import TraceSampling.Text.Base64
import TraceSampling.Text.Quoted
import TraceSampling.Word

/-!
# Bloom filters

Sets of texts of a fixed size in bits. A value owns one bit position for each hash function; it may
be contained by chance, but a value that was inserted always is. Bitmaps are exchanged as base64.
-/

namespace TraceSampling

/-- Why no filter could be made. -/
inductive FilterFault where
  | bitSize (given : Nat)
  | hashCount (given : Nat)
  | rate (given : Binary64)
  | shortBitmap (held required : Nat)
  | incompleteRule (key : String)
  | encoding (fault : Base64.Fault)
  deriving DecidableEq, Repr

def maxBitSize : Nat := 0x100000000

def maxHashCount : Nat := 32

def FilterFault.message : FilterFault → String
  | .bitSize given => s!"invalid bloom filter: bit size must be in 1..={maxBitSize}, got {given}"
  | .hashCount given =>
    s!"invalid bloom filter: hash count must be in 1..={maxHashCount}, got {given}"
  | .rate given =>
    s!"invalid bloom filter: false positive rate must be in (0, 1), got {given.render}"
  | .shortBitmap held required =>
    s!"invalid bloom filter: bitmap holds {held} bits, {required} required"
  | .incompleteRule key =>
    "invalid bloom filter: rule for " ++ Quoted.quote key ++
      " needs bit_size and hash_count, or false_positive_rate"
  | .encoding fault => s!"invalid bloom filter bitmap: {fault.message}"

/-! ## Geometry -/

structure FilterGeometry where
  bitSize : Nat
  hashCount : Nat
  bitSize_pos : 0 < bitSize
  bitSize_le : bitSize ≤ maxBitSize
  hashCount_pos : 0 < hashCount
  hashCount_le : hashCount ≤ maxHashCount
  deriving DecidableEq, Repr

namespace FilterGeometry

def make (bitSize hashCount : Nat) : Except FilterFault FilterGeometry :=
  if hb : 0 < bitSize ∧ bitSize ≤ maxBitSize then
    if hh : 0 < hashCount ∧ hashCount ≤ maxHashCount then
      .ok ⟨bitSize, hashCount, hb.1, hb.2, hh.1, hh.2⟩
    else .error (.hashCount hashCount)
  else .error (.bitSize bitSize)

/-- The natural logarithm of two. -/
def ln2 : Float := Float.ofBits 0x3fe62e42fefa39ef

/-- The least size, and the hash functions that suit it, for a number of values and a share of
wrong answers. -/
def forRate (count : Nat) (rate : Binary64) : Except FilterFault FilterGeometry :=
  if rate.isProper then
    let n := (UInt64.ofNat (max count 1)).toFloat
    let bitSize := ((-n * (Float.ofBits rate.bits).log) / (ln2 * ln2)).ceil.toUInt64
    let hashCount := ((bitSize.toFloat / n) * ln2).round.toUInt32
    make (max bitSize.toNat 8) (min (max hashCount.toNat 1) maxHashCount)
  else .error (.rate rate)

def bytesFor (g : FilterGeometry) : Nat := (g.bitSize + 7) / 8

/-- The basis of the second hash. -/
def secondBasis : UInt64 := 0x9e3779b97f4a7c15

/-- Where hash function `j` puts a value: double hashing in words, the second hash made odd. -/
def position (g : FilterGeometry) (bytes : List UInt8) (j : Nat) : Nat :=
  let h₁ := Hash.fnv Hash.offsetBasis bytes
  let h₂ := Hash.fnv secondBasis bytes ||| 1
  (h₁ + UInt64.ofNat j * h₂).toNat % g.bitSize

def positions (g : FilterGeometry) (value : String) : List Nat :=
  (List.range g.hashCount).map (g.position (Hash.utf8 value))

theorem position_lt (g : FilterGeometry) (bytes : List UInt8) (j : Nat) :
    g.position bytes j < g.bitSize := Nat.mod_lt _ g.bitSize_pos

theorem lt_of_mem_positions {g : FilterGeometry} {value : String} {i : Nat}
    (h : i ∈ g.positions value) : i < g.bitSize := by
  obtain ⟨j, _, rfl⟩ := List.mem_map.1 h
  exact g.position_lt _ j

end FilterGeometry

/-! ## Filters -/

/-- The bitmap may have more bits than the geometry needs. -/
structure BloomFilter where
  geometry : FilterGeometry
  bitmap : Bitmap
  covers : geometry.bitSize ≤ 8 * bitmap.byteCount
  deriving DecidableEq, Repr

namespace BloomFilter

def empty (g : FilterGeometry) : BloomFilter where
  geometry := g
  bitmap := .blank g.bytesFor
  covers := by
    simp only [Bitmap.blank, FilterGeometry.bytesFor]
    omega

def make (bitSize hashCount : Nat) : Except FilterFault BloomFilter :=
  (FilterGeometry.make bitSize hashCount).map empty

def forRate (count : Nat) (rate : Binary64) : Except FilterFault BloomFilter :=
  (FilterGeometry.forRate count rate).map empty

/-- A filter over a bitmap made elsewhere. -/
def ofBitmap (bitSize hashCount : Nat) (bytes : List UInt8) : Except FilterFault BloomFilter := do
  let g ← FilterGeometry.make bitSize hashCount
  if h : g.bitSize ≤ 8 * bytes.length then
    return { geometry := g, bitmap := .ofBytes bytes, covers := by simpa using h }
  else throw (.shortBitmap (8 * bytes.length) bitSize)

/-- Blanks around the text do not count. -/
def ofBase64 (bitSize hashCount : Nat) (text : String) : Except FilterFault BloomFilter := do
  let trimmed := (Blank.trim text.toList).flatMap String.utf8EncodeChar
  let bytes ← (Base64.decode trimmed).mapError .encoding
  ofBitmap bitSize hashCount bytes

def toBase64 (f : BloomFilter) : String :=
  String.ofList ((Base64.encode f.bitmap.toBytes).map fun b => Char.ofNat b.toNat)

/-- Sets the bits of a value. -/
def insert (f : BloomFilter) (value : String) : BloomFilter :=
  { f with
    bitmap := f.bitmap.setAll (f.geometry.positions value)
    covers := by simpa using f.covers }

def insertAll (f : BloomFilter) (values : List String) : BloomFilter := values.foldl insert f

def contains (f : BloomFilter) (value : String) : Bool :=
  (f.geometry.positions value).all f.bitmap.test

/-- The dump for developers leaves the bitmap out. -/
def dump (f : BloomFilter) : String :=
  "BloomFilter \x7b bit_size: " ++ toString f.geometry.bitSize ++ ", hash_count: " ++
    toString f.geometry.hashCount ++ " \x7d"

end BloomFilter

end TraceSampling
