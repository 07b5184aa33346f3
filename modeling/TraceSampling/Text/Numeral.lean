/-!
# Numerals

Integers as they stand in texts, read and written over lists of characters. Readers take any
number of leading zeros, want at least one digit and refuse everything but digits and a sign.
-/

namespace TraceSampling.Numeral

/-- The value of a digit in any base up to sixteen, letters in either case. -/
def digitValue? (base : Nat) (c : Char) : Option Nat :=
  let v :=
    if '0' ≤ c ∧ c ≤ '9' then c.toNat - '0'.toNat
    else if 'a' ≤ c ∧ c ≤ 'f' then c.toNat - 'a'.toNat + 10
    else if 'A' ≤ c ∧ c ≤ 'F' then c.toNat - 'A'.toNat + 10
    else base
  if v < base then some v else none

/-- Reads digits behind a number already read. -/
def readOn? (base : Nat) : Nat → List Char → Option Nat
  | n, [] => some n
  | n, c :: cs => (digitValue? base c).bind fun d => readOn? base (base * n + d) cs

def readDigits? (base : Nat) : List Char → Option Nat
  | [] => none
  | cs => readOn? base 0 cs

/-- An unsigned numeral may carry a plus sign, never a minus sign. -/
def readNat? (base : Nat) : List Char → Option Nat
  | '+' :: cs => readDigits? base cs
  | cs => readDigits? base cs

def readInt? : List Char → Option Int
  | '-' :: cs => (readDigits? 10 cs).map fun n => -(n : Int)
  | cs => (readNat? 10 cs).map Int.ofNat

def writeNat (base n : Nat) : List Char := Nat.toDigits base n

def writeInt : Int → List Char
  | .ofNat n => writeNat 10 n
  | .negSucc n => '-' :: writeNat 10 (n + 1)

/-- Lower-case hexadecimal without leading zeros. -/
def hex (n : Nat) : String := String.ofList (writeNat 16 n)

/-- Lower-case hexadecimal padded with zeros to a width. -/
def hexPadded (width n : Nat) : String :=
  let ds := writeNat 16 n
  String.ofList (List.replicate (width - ds.length) '0' ++ ds)

def decimal (n : Int) : String := String.ofList (writeInt n)

end TraceSampling.Numeral
