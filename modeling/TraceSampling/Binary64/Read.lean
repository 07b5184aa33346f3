import TraceSampling.Binary64.Basic
import TraceSampling.Text.Numeral

/-!
# Reading a number from a text

An optional sign, then a name for infinity or for no number in any letter case, or digits with an
optional point and an optional exponent. Nothing else may stand in the text.
-/

namespace TraceSampling

namespace Binary64

def isDigit (c : Char) : Bool := decide ('0' ≤ c ∧ c ≤ '9')

/-- Digits up to the first character that is none, as a number, with their count and the rest. -/
def takeDigits (n count : Nat) : List Char → Nat × Nat × List Char
  | [] => (n, count, [])
  | c :: cs =>
    if isDigit c then takeDigits (10 * n + (c.toNat - '0'.toNat)) (count + 1) cs
    else (n, count, c :: cs)

/-- An exponent part, or none at all; the text must end behind it. -/
def exponent? : List Char → Option Int
  | [] => some 0
  | e :: cs =>
    if e = 'e' ∨ e = 'E' then Numeral.readInt? cs else none

def magnitude? (negative : Bool) (cs : List Char) : Option Binary64 :=
  let (whole, wholeCount, rest) := takeDigits 0 0 cs
  let (digits, places, rest) :=
    match rest with
    | '.' :: tail => takeDigits whole 0 tail
    | other => (whole, 0, other)
  if wholeCount + places = 0 then none
  else (exponent? rest).map fun e => ofDecimal negative digits (e - places)

def unsigned? (negative : Bool) (cs : List Char) : Option Binary64 :=
  let word := String.ofList (cs.map Char.toLower)
  if word = "inf" ∨ word = "infinity" then some (ofPattern negative infinityPattern)
  else if word = "nan" then some (ofPattern negative quietPattern)
  else magnitude? negative cs

def read? (s : String) : Option Binary64 :=
  match s.toList with
  | '-' :: cs => unsigned? true cs
  | '+' :: cs => unsigned? false cs
  | cs => unsigned? false cs

end Binary64

end TraceSampling
