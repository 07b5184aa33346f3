import TraceSampling.Json.Token
import TraceSampling.Table

/-!
# Typed reading of JSON values

Readers for the values a document is made of: flags, whole and real numbers, texts, lists, tables
and records. A record is an object with known members in any order, or an array of them in their
order; members that are missing keep their defaults and unknown ones are read past.
-/

namespace TraceSampling.Json

/-- A value of another kind than asked for. Words, numbers and strings are read to their end first,
so that a problem inside them comes before the misfit. -/
def mismatch {α : Type} : Reader α := do
  match ← peek with
  | none => throw .endOfText
  | some c =>
    if c = 'n' then word ['n', 'u', 'l', 'l']
    else if c = 't' then word ['t', 'r', 'u', 'e']
    else if c = 'f' then word ['f', 'a', 'l', 's', 'e']
    else if c = '-' ∨ Binary64.isDigit c then discard number
    else if c = '"' then
      advance
      discard stringRest
    else if c = '[' ∨ c = '\x7b' then pure ()
    else throw .malformed
    throw .unfitting

def flag : Reader Bool := do
  match ← peek with
  | some 't' =>
    word ['t', 'r', 'u', 'e']
    return true
  | some 'f' =>
    word ['f', 'a', 'l', 's', 'e']
    return false
  | _ => mismatch

def anyNumber : Reader Number := do
  match ← peek with
  | some c => if c = '-' ∨ Binary64.isDigit c then number else mismatch
  | none => mismatch

/-- A whole number of at most `largest`. -/
def natural (largest : Nat) : Reader Nat := do
  match ← anyNumber with
  | .natural n => if n ≤ largest then return n else throw .unfitting
  | .real _ => throw .unfitting

def real : Reader Binary64 := return (← anyNumber).toBinary64

def text : Reader String := do
  match ← peek with
  | some '"' =>
    advance
    stringRest
  | _ => mismatch

def optional {α : Type} (value : Reader α) : Reader (Option α) := do
  match ← peek with
  | some 'n' =>
    word ['n', 'u', 'l', 'l']
    return none
  | _ => return some (← value)

/-! ## Values nobody asked for -/

def colon : Reader Unit := do
  match ← peek with
  | some ':' => advance
  | some _ => throw .malformed
  | none => throw .endOfText

def skipKey : Reader Unit := do
  match ← peek with
  | some '"' =>
    advance
    skipString
  | some _ => throw .malformed
  | none => throw .endOfText

mutual

/-- Reads past one well-formed value. -/
def skip : Nat → Reader Unit
  | 0 => throw .malformed
  | fuel + 1 => do
    match ← peek with
    | none => throw .endOfText
    | some c =>
      if c = 'n' then word ['n', 'u', 'l', 'l']
      else if c = 't' then word ['t', 'r', 'u', 'e']
      else if c = 'f' then word ['f', 'a', 'l', 's', 'e']
      else if c = '-' ∨ Binary64.isDigit c then skipNumber
      else if c = '"' then
        advance
        skipString
      else if c = '[' then
        advance
        if (← peek) = some ']' then advance
        else skipItems fuel
      else if c = '\x7b' then
        advance
        if (← peek) = some '\x7d' then advance
        else skipMembers fuel
      else throw .malformed

/-- From the first item of an array on. -/
def skipItems : Nat → Reader Unit
  | 0 => throw .malformed
  | fuel + 1 => do
    skip fuel
    match ← peek with
    | some ',' =>
      advance
      skipItems fuel
    | some ']' => advance
    | some _ => throw .malformed
    | none => throw .endOfText

/-- From the first member of an object on. -/
def skipMembers : Nat → Reader Unit
  | 0 => throw .malformed
  | fuel + 1 => do
    skipKey
    colon
    skip fuel
    match ← peek with
    | some ',' =>
      advance
      skipMembers fuel
    | some '\x7d' => advance
    | some _ => throw .malformed
    | none => throw .endOfText

end

def skipValue : Reader Unit := do skip (2 * (← get).length + 2)

/-! ## Lists, tables and records -/

/-- Whether another item follows in an array; `first` tells that none was read yet. -/
def moreItems (first : Bool) : Reader Bool := do
  match ← peek with
  | some ']' => return false
  | some ',' =>
    if first then return true
    advance
    match ← peek with
    | some ']' => throw .malformed
    | some _ => return true
    | none => throw .endOfText
  | some _ => if first then return true else throw .malformed
  | none => throw .endOfText

/-- Whether another member follows in an object; it must begin with a quoted key. -/
def moreMembers (first : Bool) : Reader Bool := do
  match ← peek with
  | some '\x7d' => return false
  | some ',' =>
    if first then throw .malformed
    advance
    match ← peek with
    | some '"' => return true
    | some _ => throw .malformed
    | none => throw .endOfText
  | some c => if first ∧ c = '"' then return true else throw .malformed
  | none => throw .endOfText

/-- The end of an array all of whose items were asked for. -/
def closeItems : Reader Unit := do
  match ← peek with
  | some ']' => advance
  | some _ => throw .malformed
  | none => throw .endOfText

def itemsFrom {α : Type} (item : Reader α) : Nat → List α → Reader (List α)
  | 0, _ => throw .malformed
  | fuel + 1, done => do
    if ← moreItems done.isEmpty then itemsFrom item fuel ((← item) :: done)
    else
      closeItems
      return done.reverse

def list {α : Type} (item : Reader α) : Reader (List α) := do
  match ← peek with
  | some '[' =>
    advance
    itemsFrom item ((← get).length + 1) []
  | _ => mismatch

/-- Visits the members of an object. The visitor gets the key and takes the colon and the value. -/
def membersFrom {σ : Type} (visit : String → σ → Reader σ) : Nat → Bool → σ → Reader σ
  | 0, _, _ => throw .malformed
  | fuel + 1, first, s => do
    if ← moreMembers first then
      advance
      let key ← stringRest
      membersFrom visit fuel false (← visit key s)
    else
      advance
      return s

def members {σ : Type} (visit : String → σ → Reader σ) (s : σ) : Reader σ := do
  advance
  membersFrom visit ((← get).length + 1) true s

/-- Values under keys; a key given again takes its last value. -/
def table {α : Type} (value : Reader α) : Reader (Table α) := do
  match ← peek with
  | some '\x7b' =>
    members (fun key entries => do
      colon
      return Table.put key (← value) entries) []
  | _ => mismatch

/-- A known member of a record: its key and how it is read into the record. -/
structure Member (σ : Type) where
  key : String
  read : σ → Reader σ

/-- One member of a record given as an object; `seen` holds the known keys met before. -/
def visitMember {σ : Type} (known : List (Member σ)) (key : String) :
    List String × σ → Reader (List String × σ)
  | (seen, s) => do
    match known.find? (·.key = key) with
    | none =>
      colon
      skipValue
      return (seen, s)
    | some m =>
      if seen.contains key then throw .unfitting
      colon
      return (key :: seen, ← m.read s)

/-- The members of a record given as an array, until it ends. -/
def readInOrder {σ : Type} : List (Member σ) → Bool → σ → Reader σ
  | [], _, s => return s
  | m :: known, first, s => do
    if ← moreItems first then readInOrder known false (← m.read s) else return s

def record {σ : Type} (known : List (Member σ)) (defaults : σ) : Reader σ := do
  match ← peek with
  | some '\x7b' => return (← members (visitMember known) ([], defaults)).2
  | some '[' =>
    advance
    let s ← readInOrder known true defaults
    closeItems
    return s
  | _ => mismatch

/-- A whole document: one value and nothing but blanks behind it. -/
def document {α : Type} (value : Reader α) (source : String) : Except Fault α :=
  (do
    let v ← value
    match ← peek with
    | none => return v
    | some _ => throw .malformed : Reader α).run' source.toList

end TraceSampling.Json
