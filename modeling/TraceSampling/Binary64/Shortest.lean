import TraceSampling.Binary64.Basic
import TraceSampling.Text.Numeral

/-!
# Shortest decimal texts

A finite number is written with the fewest digits that read back as it, the nearest such digits,
and of two equally near the upper; always positionally, without an exponent and without a point
when it is whole.
-/

namespace TraceSampling

namespace Binary64

/-- The numbers that round to one pattern, counted in quarters of a unit. The ends belong to it
exactly when the mantissa is even. -/
structure Neighbourhood where
  centre : Nat
  below : Nat
  above : Nat
  closed : Bool

/-- Just above a power of two the gap below is half as wide. -/
def neighbourhood (mantissa shift : Nat) : Neighbourhood where
  centre := (4 * mantissa) <<< shift
  below := if mantissa = leadingBit ∧ 0 < shift then 1 <<< shift else 2 <<< shift
  above := 2 <<< shift
  closed := mantissa % 2 = 0

/-- Whether `num / den` quarters of a unit lie in the neighbourhood. -/
def Neighbourhood.holds (b : Neighbourhood) (num den : Nat) : Bool :=
  let low := (b.centre - b.below) * den
  let high := (b.centre + b.above) * den
  if b.closed then decide (low ≤ num ∧ num ≤ high) else decide (low < num ∧ num < high)

/-- The point of the grid of spacing `10 ^ place` that stands for the centre, if one does. -/
def Neighbourhood.onGrid? (b : Neighbourhood) (place : Int) : Option (Nat × Int) :=
  let den := Nat.pow 10 (-place).toNat
  let step := (Nat.pow 10 place.toNat) <<< 1076
  let low := b.centre * den / step
  let rest := b.centre * den % step
  let upFirst := decide (step ≤ 2 * rest)
  let hit (n : Nat) : Bool := b.holds (n * step) den
  let pick (first second : Nat) : Option Nat :=
    if hit first then some first else if hit second then some second else none
  (if upFirst then pick (low + 1) low else pick low (low + 1)).map fun n => (n, place)

/-- Grids from the coarsest that can matter to one on which every number lies. -/
def places : List Int := (List.range 1400).map fun i => 310 - Int.ofNat i

def shortest (mantissa shift : Nat) : Nat × Int :=
  let b := neighbourhood mantissa shift
  (places.findSome? b.onGrid?).getD (0, 0)

/-- Digits and place without an exponent: zeros are filled in on either side of the point. -/
def positional (digits : Nat) (place : Int) : List Char :=
  let ds := Numeral.writeNat 10 digits
  if 0 ≤ place then ds ++ List.replicate place.toNat '0'
  else
    let after := (-place).toNat
    let padded := List.replicate (after + 1 - ds.length) '0' ++ ds
    padded.take (padded.length - after) ++ '.' :: padded.drop (padded.length - after)

def render (x : Binary64) : String :=
  let signed (negative : Bool) (cs : List Char) : String :=
    String.ofList (if negative then '-' :: cs else cs)
  match x.view with
  | .nan => "NaN"
  | .infinite negative => signed negative ['i', 'n', 'f']
  | .finite negative mantissa shift =>
    if mantissa = 0 then signed negative ['0']
    else
      let (digits, place) := shortest mantissa shift
      signed negative (positional digits place)

end Binary64

end TraceSampling
