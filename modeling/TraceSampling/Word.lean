/-!
# Words

Numbers that fit 64 bits without a sign, and the hash FNV-1a that makes them of bytes. It is behind
path ids, interface keys and filter positions; a second basis gives a second hash of the same bytes.
-/

namespace TraceSampling

def maxWord : Nat := 0xffffffffffffffff

/-- Cuts a number to a word. -/
def capped (n : Nat) : Nat := min n maxWord

namespace Hash

def offsetBasis : UInt64 := 0xcbf29ce484222325

def prime : UInt64 := 0x100000001b3

def step (h : UInt64) (b : UInt8) : UInt64 := (h ^^^ b.toUInt64) * prime

def fnv (basis : UInt64) (bytes : List UInt8) : UInt64 := bytes.foldl step basis

/-- The bytes of a text in UTF-8. -/
def utf8 (s : String) : List UInt8 := s.toList.flatMap String.utf8EncodeChar

/-- The byte that keeps the parts of a hashed key apart. -/
def separator : UInt8 := 0x1f

/-- The eight bytes of a word, high byte first. -/
def bigEndian (w : UInt64) : List UInt8 :=
  (List.range 8).map fun i => (w >>> (UInt64.ofNat (8 * (7 - i)))).toUInt8

end Hash

end TraceSampling
