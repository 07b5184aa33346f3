/-!
# Base64 with canonical padding

The standard alphabet over bytes of text. Writing pads to groups of four; reading takes only what
writing produces and says where the first deviation stands. Blanks around a text are trimmed before
it is read.
-/

namespace TraceSampling.Base64

/-- The symbol of a six-bit value. -/
def symbol (v : Nat) : UInt8 :=
  if v < 26 then UInt8.ofNat (65 + v)
  else if v < 52 then UInt8.ofNat (71 + v)
  else if v < 62 then UInt8.ofNat (v - 4)
  else if v = 62 then 43
  else 47

def value? (b : UInt8) : Option Nat :=
  let n := b.toNat
  if 65 ≤ n ∧ n ≤ 90 then some (n - 65)
  else if 97 ≤ n ∧ n ≤ 122 then some (n - 71)
  else if 48 ≤ n ∧ n ≤ 57 then some (n + 4)
  else if n = 43 then some 62
  else if n = 47 then some 63
  else none

def pad : UInt8 := 61

/-! ## Writing -/

/-- Two bytes left over give three symbols, one gives two. -/
def encode : List UInt8 → List UInt8
  | a :: b :: c :: rest =>
    symbol (a.toNat / 4) :: symbol (a.toNat % 4 * 16 + b.toNat / 16) ::
      symbol (b.toNat % 16 * 4 + c.toNat / 64) :: symbol (c.toNat % 64) :: encode rest
  | [a, b] =>
    [symbol (a.toNat / 4), symbol (a.toNat % 4 * 16 + b.toNat / 16), symbol (b.toNat % 16 * 4), pad]
  | [a] => [symbol (a.toNat / 4), symbol (a.toNat % 4 * 16), pad, pad]
  | [] => []

/-! ## Reading -/

inductive Fault where
  | invalidSymbol (byte : UInt8) (offset : Nat)
  | invalidLength (length : Nat)
  | invalidPadding
  | invalidLastSymbol (byte : UInt8) (offset : Nat)
  deriving DecidableEq, Repr

def Fault.message : Fault → String
  | .invalidSymbol b i => s!"Invalid symbol {b.toNat}, offset {i}."
  | .invalidLength n => s!"Invalid input length: {n}"
  | .invalidPadding => "Invalid padding"
  | .invalidLastSymbol b i => s!"Invalid last symbol {b.toNat}, offset {i}."

/-- The low bits of the last symbol that no byte uses: four after two symbols, two after three. -/
def spareBits (symbols v : Nat) : Nat :=
  if symbols = 2 then v % 16 else if symbols = 3 then v % 4 else 0

/-- The first fault in the last group. `seen` symbols stand before the rest, the last of them with
value `last`; `padAt` is the offset of the first padding byte, if one was met. -/
def lastGroupFault? (start seen : Nat) (last : Nat × UInt8) (padAt : Option Nat) (pads : Nat) :
    List UInt8 → Option Fault
  | [] =>
    if seen < 2 then some (.invalidLength (start + seen))
    else if (seen + pads) % 4 ≠ 0 then some .invalidPadding
    else if spareBits seen last.1 ≠ 0 then some (.invalidLastSymbol last.2 (start + seen - 1))
    else none
  | b :: rest =>
    if b = pad then
      if seen + pads < 2 then some (.invalidSymbol b (start + seen + pads))
      else lastGroupFault? start seen last (padAt <|> some (start + seen + pads)) (pads + 1) rest
    else
      match padAt with
      | some i => some (.invalidSymbol pad i)
      | none =>
        match value? b with
        | none => some (.invalidSymbol b (start + seen))
        | some v => lastGroupFault? start (seen + 1) (v, b) none pads rest

/-- The first fault from an offset on: every group but the last holds symbols only. -/
def faultFrom? (offset : Nat) : List UInt8 → Option Fault
  | a :: b :: c :: d :: e :: rest =>
    if value? a = none then some (.invalidSymbol a offset)
    else if value? b = none then some (.invalidSymbol b (offset + 1))
    else if value? c = none then some (.invalidSymbol c (offset + 2))
    else if value? d = none then some (.invalidSymbol d (offset + 3))
    else faultFrom? (offset + 4) (e :: rest)
  | [] => none
  | last => lastGroupFault? offset 0 (0, 0) none 0 last

/-- A single byte after the last full group is looked at first: if it is no symbol at all, it is
the fault, whatever stands before it. -/
def strayEnd? (text : List UInt8) : Option Fault :=
  if text.length % 4 = 1 then
    match text.getLast? with
    | some b =>
      if b ≠ pad ∧ value? b = none then some (.invalidSymbol b (text.length - 1)) else none
    | none => none
  else none

def fault? (text : List UInt8) : Option Fault := strayEnd? text <|> faultFrom? 0 text

/-- Bytes from six-bit values, four of them to three bytes; spare bits at the end are left out. -/
def pack : List Nat → List UInt8
  | a :: b :: c :: d :: rest =>
    UInt8.ofNat (a * 4 + b / 16) :: UInt8.ofNat (b % 16 * 16 + c / 4) ::
      UInt8.ofNat (c % 4 * 64 + d) :: pack rest
  | [a, b, c] => [UInt8.ofNat (a * 4 + b / 16), UInt8.ofNat (b % 16 * 16 + c / 4)]
  | [a, b] => [UInt8.ofNat (a * 4 + b / 16)]
  | _ => []

def decode (text : List UInt8) : Except Fault (List UInt8) :=
  match fault? text with
  | some f => .error f
  | none => .ok (pack (text.filterMap value?))

end TraceSampling.Base64

/-! ## Blanks -/

namespace TraceSampling.Blank

/-- The characters with the Unicode property `White_Space`, as closed ranges of code points. -/
def ranges : List (Nat × Nat) :=
  [(0x09, 0x0d), (0x20, 0x20), (0x85, 0x85), (0xa0, 0xa0), (0x1680, 0x1680), (0x2000, 0x200a),
    (0x2028, 0x2029), (0x202f, 0x202f), (0x205f, 0x205f), (0x3000, 0x3000)]

def isBlank (c : Char) : Bool :=
  ranges.any fun (lo, hi) => decide (lo ≤ c.toNat ∧ c.toNat ≤ hi)

def trimStart (cs : List Char) : List Char := cs.dropWhile isBlank

def trim (cs : List Char) : List Char := (trimStart (trimStart cs).reverse).reverse

end TraceSampling.Blank
