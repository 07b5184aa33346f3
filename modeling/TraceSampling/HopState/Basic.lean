import TraceSampling.Strategy

/-!
# The state carried from hop to hop

What one hop of a trace tells the next: where in the call graph it stands, why it was kept and why
the trace was kept at its root, and whatever newer peers added that this library does not know.
-/

namespace TraceSampling

/-- What the search for new edges found out about a hop. -/
inductive EdgeResult where
  /-- The search did not run. -/
  | notExist
  /-- The edge was known, or could not be recorded. -/
  | drop
  /-- Kept because the caller discovered the edge. -/
  | sample
  /-- The caller speaks the older protocol and was kept. -/
  | randomLegacy
  /-- The hop discovered a new edge. -/
  | path
  deriving DecidableEq, Repr, Inhabited

namespace EdgeResult

/-- The number on the wire. -/
def rank : EdgeResult → Nat
  | notExist => 0
  | drop => 1
  | sample => 2
  | randomLegacy => 3
  | path => 4

def name : EdgeResult → String
  | notExist => "not_exist"
  | drop => "drop"
  | sample => "sample"
  | randomLegacy => "random_legacy"
  | path => "path"

def all : List EdgeResult := [notExist, drop, sample, randomLegacy, path]

def ofRank? (n : Nat) : Option EdgeResult := all.find? (·.rank = n)

@[simp] theorem ofRank?_rank (r : EdgeResult) : ofRank? r.rank = some r := by
  cases r <;> rfl

end EdgeResult

/-- The place of a hop in the call graph; a path id of zero is unknown. -/
structure WorkflowMark where
  result : EdgeResult := .notExist
  path : UInt64 := 0
  parentPath : UInt64 := 0
  deriving DecidableEq, Repr

/-! ## What else the wire can carry -/

/-- Visible ASCII characters that separate nothing on the wire or in the header around it. -/
def Args.isChar (c : Char) : Bool :=
  decide ('!' ≤ c ∧ c ≤ '~') && c ≠ ';' && c ≠ ',' && c ≠ '='

def Args.fits (cs : List Char) : Bool := !cs.isEmpty && cs.length ≤ 64 && cs.all isChar

/-- The arguments of a strategy, in the only form in which the wire can carry them. -/
structure Args where
  text : String
  fits_text : Args.fits text.toList = true
  deriving DecidableEq, Repr

def Args.ofText? (text : String) : Option Args :=
  if h : fits text.toList then some ⟨text, h⟩ else none

/-- One entry, and of no kind that this library knows. -/
def Extension.fits (cs : List Char) : Bool :=
  !cs.isEmpty && !cs.contains ';' &&
    match cs with
    | kind :: ':' :: _ => kind ≠ 'w' && kind ≠ 's' && kind ≠ 'r'
    | _ => true

/-- An entry that was received and is handed on as it is. -/
structure Extension where
  text : String
  fits_text : Extension.fits text.toList = true
  deriving DecidableEq, Repr

def Extension.ofText? (text : String) : Option Extension :=
  if h : fits text.toList then some ⟨text, h⟩ else none

/-! ## The state -/

/-- Why this hop and the root of its trace were kept. Descendants keep `root` as it is. -/
structure Lineage where
  sampled : Strategy := .notExist
  root : Strategy := .notExist
  args : Option Args := none
  deriving DecidableEq, Repr

/-- `extensions` stand in the order in which they were received. -/
structure HopState where
  workflow : WorkflowMark := {}
  lineage : Lineage := {}
  extensions : List Extension := []
  deriving DecidableEq, Repr

namespace HopState

/-- What a hop without any state of its own hands on. -/
def initial : HopState := {}

/-- The caller carried no state. -/
def isLegacy (s : HopState) : Bool := s.lineage.sampled = .notExist

/-- The extensions as one text. -/
def unknown? (s : HopState) : Option String :=
  if s.extensions.isEmpty then none else some (";".intercalate (s.extensions.map (·.text)))

def setSampled (s : HopState) (strategy : Strategy) : HopState :=
  { s with lineage := { s.lineage with sampled := strategy } }

def setRoot (s : HopState) (strategy : Strategy) : HopState :=
  { s with lineage := { s.lineage with root := strategy } }

/-- Arguments that the wire cannot carry are discarded. -/
def setArgs (s : HopState) (args : Option String) : HopState :=
  { s with lineage := { s.lineage with args := args.bind Args.ofText? } }

/-- Breaks the lineage, so that hops further on act as a new root. -/
def resetLineage (s : HopState) : HopState :=
  { s with lineage := { sampled := .notMatch, root := .notMatch } }

/-- The state as it leaves the process. Where following is all that is known, the first reason is
lost and the root is marked as merely kept. -/
def egress (s : HopState) : HopState :=
  if s.lineage.root = .follow ∨
      (s.lineage.sampled = .follow ∧ s.lineage.root.isSampled = false) then
    s.setRoot .matched
  else s

end HopState

end TraceSampling
