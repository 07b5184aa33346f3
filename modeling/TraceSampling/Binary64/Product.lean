import TraceSampling.Binary64.Basic
import TraceSampling.Word

/-!
# Products of binary64 numbers

The product of two numbers is rounded once. A number becomes the word that its whole part spells,
cut to the range of words.
-/

namespace TraceSampling.Binary64

/-- The number `2 ^ 63`. -/
def halfWord : Binary64 := ofPattern false 0x43e0000000000000

/-- The larger of a number and zero; zero for what is no number. -/
def atLeastZero (x : Binary64) : Binary64 := if x.isNaN || x.isNegative then zero else x

/-- The product. Nothing times infinity is no number. -/
def times (x y : Binary64) : Binary64 :=
  match x.view, y.view with
  | .nan, _ => ofPattern false quietPattern
  | _, .nan => ofPattern false quietPattern
  | .infinite s, .infinite t => ofPattern (s != t) infinityPattern
  | .infinite s, .finite t m _ =>
    if m = 0 then ofPattern false quietPattern else ofPattern (s != t) infinityPattern
  | .finite s m _, .infinite t =>
    if m = 0 then ofPattern false quietPattern else ofPattern (s != t) infinityPattern
  | .finite s m k, .finite t n l =>
    -- one of the two shifts is by nothing
    ofPattern (s != t) (nearestPattern ((m * n) <<< (k + l - 1074)) (1 <<< (1074 - (k + l))))

/-- The word of the whole part; zero for what is below one and for what is no number. -/
def toWord (x : Binary64) : Nat :=
  match x.view with
  | .finite false m k => capped (m <<< k >>> 1074)
  | .infinite false => maxWord
  | _ => 0

end TraceSampling.Binary64
