import TraceSampling.HopState.Basic
import TraceSampling.Text.Numeral
import TraceSampling.Text.Split

/-!
# Entries on the wire

A carried state is a list of entries between semicolons:

* `w:<result>:<path>:<parent path>`, ids in hexadecimal;
* `s:<strategy>[:<args>]` for this hop;
* `r:<strategy>` for the root of the trace.

A malformed field is absent on its own and spoils nothing else. An entry of any other form is kept
as it is.
-/

namespace TraceSampling

inductive Entry where
  | workflow (result : Option EdgeResult) (path parentPath : Option UInt64)
  | sample (strategy : Option Strategy) (args : Option String)
  | root (strategy : Option Strategy)
  | unknown (raw : String)
  deriving DecidableEq, Repr

namespace Entry

/-- One to sixteen characters of a path id. -/
def readPath? (cs : List Char) : Option UInt64 :=
  if cs.length ≤ 16 then (Numeral.readNat? 16 cs).map UInt64.ofNat else none

def readResult? (cs : List Char) : Option EdgeResult :=
  (Numeral.readNat? 10 cs).bind EdgeResult.ofRank?

def readStrategy? (cs : List Char) : Option Strategy :=
  (Numeral.readInt? cs).bind Strategy.ofRank?

/-- The text up to the first colon, and the text behind it if there is one. -/
def field (cs : List Char) : List Char × Option (List Char) :=
  match Split.cut? ':' cs with
  | none => (cs, none)
  | some (before, behind) => (before, some behind)

/-- The last id takes everything behind the second colon. -/
def readWorkflow (body : List Char) : Entry :=
  let (result, behind) := field body
  let ids := behind.map field
  .workflow (readResult? result) (ids.bind fun i => readPath? i.1)
    ((ids.bind (·.2)).bind readPath?)

def readSample (body : List Char) : Entry :=
  let (strategy, behind) := field body
  .sample (readStrategy? strategy) ((behind.filter (!·.isEmpty)).map String.ofList)

def read : List Char → Entry
  | 'w' :: ':' :: body => readWorkflow body
  | 's' :: ':' :: body => readSample body
  | 'r' :: ':' :: body => .root (readStrategy? body)
  | raw => .unknown (String.ofList raw)

/-- The entries of a carried value; empty ones do not count. -/
def scan (value : String) : List Entry := (Split.filled ';' value.toList).map read

end Entry

end TraceSampling
