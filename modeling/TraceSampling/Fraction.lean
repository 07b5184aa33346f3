import TraceSampling.Binary64.Product
import TraceSampling.Request

/-!
# Fractions of traces

A fraction keeps the traces whose id, cut to 63 bits of one of its halves, lies below the fraction
of all such numbers. The low half decides at the start of a trace and the high half on failures, so
that the two selections do not follow each other.
-/

namespace TraceSampling.Fraction

/-- The sixteen bytes of an id, high byte first. -/
def bytes (id : TraceId) : List (BitVec 8) :=
  (List.range 16).map fun i => id.extractLsb' (8 * (15 - i)) 8

/-- The word that bytes spell, high byte first. -/
def word (bytes : List (BitVec 8)) : Nat := bytes.foldl (fun w b => 256 * w + b.toNat) 0

def lowHalf (id : TraceId) : Nat := word ((bytes id).drop 8)

def highHalf (id : TraceId) : Nat := word ((bytes id).take 8)

/-- How many of the `2 ^ 63` numbers a fraction keeps. -/
def bound (fraction : Binary64) : Nat :=
  (fraction.atLeastZero.times Binary64.halfWord).toWord

def selects (fraction : Binary64) (half : Nat) : Bool :=
  fraction.isFull || decide (half / 2 < bound fraction)

def selectsStart (fraction : Binary64) (id : TraceId) : Bool := selects fraction (lowHalf id)

def selectsFailure (fraction : Binary64) (id : TraceId) : Bool := selects fraction (highHalf id)

end TraceSampling.Fraction
