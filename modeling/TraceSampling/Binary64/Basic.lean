/-!
# Binary64 numbers

A double kept as its bit pattern, so that signed zeros and patterns that are no number stay apart.
A finite number is a whole count of units of `2 ^ -1074`, written `mantissa * 2 ^ shift`; range
tests, rounding and printing work on these parts in exact arithmetic.
-/

namespace TraceSampling

structure Binary64 where
  bits : UInt64
  deriving DecidableEq, Repr, Inhabited

namespace Binary64

inductive View where
  | nan
  | infinite (negative : Bool)
  | finite (negative : Bool) (mantissa shift : Nat)
  deriving DecidableEq, Repr

def signBit : Nat := 0x8000000000000000

/-- The bit above the 52 that a pattern spells out of its mantissa. -/
def leadingBit : Nat := 0x10000000000000

/-- The pattern without its sign; it orders magnitudes. -/
def magnitude (x : Binary64) : Nat := x.bits.toNat % signBit

def isNegative (x : Binary64) : Bool := decide (signBit ≤ x.bits.toNat)

/-- The pattern of infinity; every pattern above it is no number. -/
def infinityPattern : Nat := 0x7ff0000000000000

/-- A pattern that is no number. -/
def quietPattern : Nat := 0x7ff8000000000000

def onePattern : Nat := 0x3ff0000000000000

def ofPattern (negative : Bool) (pattern : Nat) : Binary64 :=
  ⟨UInt64.ofNat (pattern + if negative then signBit else 0)⟩

def zero : Binary64 := ofPattern false 0

def one : Binary64 := ofPattern false onePattern

def isNaN (x : Binary64) : Bool := decide (infinityPattern < x.magnitude)

def isInfinite (x : Binary64) : Bool := decide (x.magnitude = infinityPattern)

/-- The parts of the pattern. -/
def view (x : Binary64) : View :=
  let field := x.magnitude / leadingBit
  let fraction := x.magnitude % leadingBit
  if x.isNaN then .nan
  else if x.isInfinite then .infinite x.isNegative
  else if field = 0 then .finite x.isNegative fraction 0
  else .finite x.isNegative (leadingBit + fraction) (field - 1)

/-! ## The unit interval -/

/-- Brings a number into the unit interval; what is no number becomes `fallback`. A zero of either
sign is in the interval and stays as it is. -/
def clampUnit (x fallback : Binary64) : Binary64 :=
  if x.isNaN then fallback
  else if x.isNegative then
    if x.magnitude = 0 then x else zero
  else if onePattern < x.magnitude then one
  else x

/-- At least one. -/
def isFull (x : Binary64) : Bool :=
  !x.isNegative && !x.isNaN && decide (onePattern ≤ x.magnitude)

/-- Above zero and below one. -/
def isProper (x : Binary64) : Bool :=
  !x.isNegative && decide (0 < x.magnitude) && decide (x.magnitude < onePattern)

/-! ## Rounding -/

/-- The pattern nearest to `num / den` units of `2 ^ -1074`, ties to the even pattern; past the
largest finite number it is that of infinity. -/
def nearestPattern (num den : Nat) : Nat :=
  let shift := (num / den).log2 + 1 - 53
  let step := den <<< shift
  let low := num / step
  let twice := 2 * (num % step)
  let rounded := if step < twice ∨ (twice = step ∧ low % 2 = 1) then low + 1 else low
  min infinityPattern (shift * leadingBit + rounded)

/-- The number nearest to `digits * 10 ^ exponent`. Exponents out of all reach are settled by the
count of digits, so that no power of ten grows past need. -/
def ofDecimal (negative : Bool) (digits : Nat) (exponent : Int) : Binary64 :=
  let length : Int := if digits = 0 then 0 else (Nat.toDigits 10 digits).length
  let pattern :=
    if digits = 0 ∨ length + exponent < -330 then 0
    else if 330 < length + exponent then infinityPattern
    else if 0 ≤ exponent then nearestPattern ((digits * Nat.pow 10 exponent.toNat) <<< 1074) 1
    else nearestPattern (digits <<< 1074) (Nat.pow 10 (-exponent).toNat)
  ofPattern negative pattern

end Binary64

end TraceSampling
