import TraceSampling.Binary64.Read
import TraceSampling.Word

/-!
# JSON tokens

Words, numbers and strings at the head of a text. A reader takes what it needs from the front and
reports the first problem it meets, by its cause alone. Values that nobody asked for are read
leniently: a number may be out of range and an escape may name half a surrogate pair.
-/

namespace TraceSampling.Json

/-- Why a text was refused: it ended early, it is no JSON, or it does not fit what was asked for. -/
inductive Fault where
  | endOfText
  | malformed
  | unfitting
  deriving DecidableEq, Repr

abbrev Reader := StateT (List Char) (Except Fault)

def isBlank (c : Char) : Bool := c = ' ' || c = '\n' || c = '\t' || c = '\r'

/-- The next character behind blanks. -/
def peek : Reader (Option Char) := do
  modify (·.dropWhile isBlank)
  return (← get).head?

def advance : Reader Unit := modify List.tail

def word : List Char → Reader Unit
  | [] => pure ()
  | c :: cs => do
    match ← get with
    | [] => throw .endOfText
    | d :: rest =>
      if c = d then
        set rest
        word cs
      else throw .malformed

/-! ## Numbers -/

inductive Number where
  | natural (n : Nat)
  | real (x : Binary64)

def Number.toBinary64 : Number → Binary64
  | .natural n => Binary64.ofDecimal false n 0
  | .real x => x

def digits : Reader (Nat × Nat) := do
  let (n, count, rest) := Binary64.takeDigits 0 0 (← get)
  set rest
  return (n, count)

/-- Digits without a leading zero. -/
def wholePart : Reader Nat := do
  match ← get with
  | [] => throw .endOfText
  | c :: rest =>
    if !Binary64.isDigit c then throw .malformed
    else if c = '0' && rest.head?.any Binary64.isDigit then throw .malformed
    else return (← digits).1

/-- At least one digit, or the fault of there being none. -/
def someDigits : Reader (Nat × Nat) := do
  let (n, count) ← digits
  if count = 0 then
    throw (if (← get).isEmpty then .endOfText else .malformed)
  return (n, count)

def signed : Reader Bool := do
  match ← get with
  | '-' :: rest =>
    set rest
    return true
  | '+' :: rest =>
    set rest
    return false
  | _ => return false

def exponent : Reader (Option Int) := do
  match ← get with
  | c :: rest =>
    if c = 'e' ∨ c = 'E' then
      set rest
      let negative ← signed
      let (n, _) ← someDigits
      return some (if negative then -(n : Int) else n)
    else return none
  | [] => return none

/-- Digits behind a point with their count, if there is a point. -/
def fraction : Reader (Option (Nat × Nat)) := do
  match ← get with
  | '.' :: rest =>
    set rest
    return some (← someDigits)
  | _ => return none

/-- Whole numbers that fit an unsigned word keep their value; all others are rounded, and one too
large for that is malformed. -/
def number : Reader Number := do
  let negative := (← get).head? == some '-'
  if negative then advance
  let whole ← wholePart
  let behind ← fraction
  let power ← exponent
  if !negative && behind.isNone && power.isNone && whole ≤ maxWord then return .natural whole
  let (part, places) := behind.getD (0, 0)
  let x := Binary64.ofDecimal negative (whole * Nat.pow 10 places + part) (power.getD 0 - places)
  if x.isInfinite then throw .malformed
  return .real x

def numberParts : Reader Unit := do
  let text ← get
  if text.head? = some '-' then advance
  discard wholePart
  discard fraction
  discard exponent

/-- Reads past a number; one that is cut off is malformed here. -/
def skipNumber : Reader Unit := fun text => (numberParts text).mapError fun _ => .malformed

/-! ## Strings -/

/-- Where a string stands between two characters. -/
inductive StringMode where
  | plain
  | escape
  | hex (count value : Nat) (high : Option Nat)
  | high (unit : Nat)
  | highEscape (unit : Nat)

/-- What one character does to a string: nothing to add yet, a character to add, or its end. -/
inductive StringStep where
  | quiet (mode : StringMode)
  | add (c : Char)
  | close

def isLowSurrogate (unit : Nat) : Bool := decide (0xdc00 ≤ unit ∧ unit ≤ 0xdfff)
def isHighSurrogate (unit : Nat) : Bool := decide (0xd800 ≤ unit ∧ unit ≤ 0xdbff)

def escaped (c : Char) : Except Fault StringStep :=
  if c = '"' ∨ c = '\\' ∨ c = '/' then .ok (.add c)
  else if c = 'b' then .ok (.add '\x08')
  else if c = 'f' then .ok (.add '\x0c')
  else if c = 'n' then .ok (.add '\n')
  else if c = 'r' then .ok (.add '\r')
  else if c = 't' then .ok (.add '\t')
  else if c = 'u' then .ok (.quiet (.hex 0 0 none))
  else .error .malformed

/-- A complete escape of four digits: surrogates must come in pairs, high before low. -/
def codeUnit (unit : Nat) : Option Nat → Except Fault StringStep
  | none =>
    if isLowSurrogate unit then .error .malformed
    else if isHighSurrogate unit then .ok (.quiet (.high unit))
    else .ok (.add (Char.ofNat unit))
  | some high =>
    if isLowSurrogate unit then
      .ok (.add (Char.ofNat (0x10000 + (high - 0xd800) * 0x400 + (unit - 0xdc00))))
    else .error .malformed

/-- The text is too short for four digits when fewer than four bytes are left of it. -/
def hexFault (count : Nat) (text : List Char) : Fault :=
  if count + (String.ofList (text.take 4)).utf8ByteSize < 4 then .endOfText else .malformed

def stringStep (strict : Bool) (mode : StringMode) (c : Char) (rest : List Char) :
    Except Fault StringStep :=
  match mode with
  | .plain =>
    if c = '"' then .ok .close
    else if c = '\\' then .ok (.quiet .escape)
    else if c.toNat < 0x20 then .error .malformed
    else .ok (.add c)
  | .escape => escaped c
  | .hex count value high =>
    match Numeral.digitValue? 16 c with
    | none => .error (hexFault count (c :: rest))
    | some d =>
      if count < 3 then .ok (.quiet (.hex (count + 1) (16 * value + d) high))
      else if strict then codeUnit (16 * value + d) high
      else .ok (.add '?')
  | .high unit => if c = '\\' then .ok (.quiet (.highEscape unit)) else .error .malformed
  | .highEscape unit =>
    if c = 'u' then .ok (.quiet (.hex 0 0 (some unit))) else .error .malformed

/-- The characters up to the closing quote, newest first, and what stands behind it. -/
def scanString (strict : Bool) : StringMode → List Char → List Char →
    Except Fault (List Char × List Char)
  | _, _, [] => .error .endOfText
  | mode, done, c :: rest =>
    match stringStep strict mode c rest with
    | .error f => .error f
    | .ok (.quiet mode) => scanString strict mode done rest
    | .ok (.add d) => scanString strict .plain (d :: done) rest
    | .ok .close => .ok (done, rest)

/-- The rest of a string whose opening quote was taken. -/
def stringRest : Reader String := do
  let (done, rest) ← (scanString true .plain [] (← get) : Except Fault _)
  set rest
  return String.ofList done.reverse

def skipString : Reader Unit := do
  let (_, rest) ← (scanString false .plain [] (← get) : Except Fault _)
  set rest

end TraceSampling.Json
