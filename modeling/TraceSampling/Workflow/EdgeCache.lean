import TraceSampling.Word

/-!
# Seen edges

Two bounded sets of path ids, one for each end of a call, and a budget of new ids for both together.
A path is recorded only if it is new, its side has room and, where the insertion counts against the
budget, some of that is left; any other answer changes nothing.
-/

namespace TraceSampling.Workflow

/-- The end of an edge on which a span sits. -/
inductive Side where
  | client
  | server
  deriving DecidableEq, Repr

namespace Side

def name : Side → String
  | client => "client"
  | server => "server"

def ofName? (s : String) : Option Side := [client, server].find? (·.name = s)

end Side

inductive Insertion where
  | inserted
  | seen
  | full
  | overBudget
  deriving DecidableEq, Repr

def Insertion.name : Insertion → String
  | inserted => "inserted"
  | seen => "seen"
  | full => "full"
  | overBudget => "over_budget"

/-! ## One side -/

/-- The paths of one side. `size` counts the places taken; a place is taken before its path is
recorded, and given back if it is not. -/
structure EdgeSet where
  paths : List UInt64 := []
  size : Nat := 0
  deriving DecidableEq, Repr

namespace EdgeSet

def contains (s : EdgeSet) (path : UInt64) : Bool := s.paths.contains path

/-- Takes a place, if there is one left. -/
def reserve? (s : EdgeSet) (maxPaths : Nat) : Option EdgeSet :=
  if s.size < maxPaths then some { s with size := s.size + 1 } else none

/-- Gives a place back. -/
def release (s : EdgeSet) : EdgeSet := { s with size := s.size - 1 }

/-- Puts a path on the place that was taken for it. -/
def record (s : EdgeSet) (path : UInt64) : EdgeSet := { s with paths := path :: s.paths }

end EdgeSet

/-! ## Both sides and their budget -/

/-- `used` counts the insertions of the running budget period, of which `limit` are allowed. -/
structure EdgeCache where
  client : EdgeSet := {}
  server : EdgeSet := {}
  used : Nat := 0
  limit : Nat := maxWord
  deriving DecidableEq, Repr

namespace EdgeCache

def side (c : EdgeCache) : Side → EdgeSet
  | .client => c.client
  | .server => c.server

def setSide (c : EdgeCache) (side : Side) (s : EdgeSet) : EdgeCache :=
  match side with
  | .client => { c with client := s }
  | .server => { c with server := s }

def size (c : EdgeCache) (side : Side) : Nat := (c.side side).size

def contains (c : EdgeCache) (side : Side) (path : UInt64) : Bool := (c.side side).contains path

/-- Takes one of the insertions that the budget has left. -/
def charge? (c : EdgeCache) : Option EdgeCache :=
  if c.used < c.limit then some { c with used := c.used + 1 } else none

/-- A place is taken first and then paid for, so that a full side costs nothing. -/
def insertWith (c : EdgeCache) (side : Side) (path : UInt64) (maxPaths : Nat) (budgeted : Bool) :
    EdgeCache × Insertion :=
  if c.contains side path then (c, .seen)
  else
    match (c.side side).reserve? maxPaths with
    | none => (c, .full)
    | some s =>
      let c := c.setSide side s
      match if budgeted then c.charge? else some c with
      | none => (c.setSide side s.release, .overBudget)
      | some c => (c.setSide side (s.record path), .inserted)

/-- Records a path against the budget. -/
def insert (c : EdgeCache) (side : Side) (path : UInt64) (maxPaths : Nat) : EdgeCache × Insertion :=
  c.insertWith side path maxPaths true

/-- Records the second end of an edge, for which the first end has paid. -/
def insertUnbudgeted (c : EdgeCache) (side : Side) (path : UInt64) (maxPaths : Nat) :
    EdgeCache × Insertion :=
  c.insertWith side path maxPaths false

def setLimit (c : EdgeCache) (limit : Nat) : EdgeCache := { c with limit }

/-- Forgets every path and leaves the budget alone. -/
def reset (c : EdgeCache) : EdgeCache := { c with client := {}, server := {} }

/-- Starts a new budget period. -/
def resetBudget (c : EdgeCache) : EdgeCache := { c with used := 0 }

end EdgeCache

end TraceSampling.Workflow
