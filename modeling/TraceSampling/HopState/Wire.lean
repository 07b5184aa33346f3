import TraceSampling.HopState.Entry
import TraceSampling.VendorList

/-!
# The wire form of a carried state

Reading takes entries one after the other, each well-formed field replacing an earlier one. Writing
leaves out what reading supplies by itself. The empty value belongs to the older protocol alone.
-/

namespace TraceSampling

namespace HopState

/-! ## Reading -/

/-- Arguments that the wire should not have carried are discarded. What a scan finds unknown always
fits as an extension. -/
def accept (s : HopState) : Entry → HopState
  | .workflow result path parentPath =>
    { s with workflow :=
      { result := result.getD s.workflow.result
        path := path.getD s.workflow.path
        parentPath := parentPath.getD s.workflow.parentPath } }
  | .sample strategy args => (s.setSampled (strategy.getD s.lineage.sampled)).setArgs args
  | .root strategy => s.setRoot (strategy.getD s.lineage.root)
  | .unknown raw => { s with extensions := s.extensions ++ (Extension.ofText? raw).toList }

/-- Where a value has anything to say, what it does not say is that no strategy applied. -/
def decode (value : String) : HopState :=
  if value = "" then initial
  else (Entry.scan value).foldl accept initial.resetLineage

/-! ## Writing -/

def workflowEntry (w : WorkflowMark) : List (List Char) :=
  if w = {} then []
  else
    ['w' :: ':' :: Numeral.writeNat 10 w.result.rank ++ ':' :: Numeral.writeNat 16 w.path.toNat ++
      ':' :: Numeral.writeNat 16 w.parentPath.toNat]

def sampleEntry (l : Lineage) : List (List Char) :=
  if l.sampled = .notMatch ∧ l.args = none then []
  else
    ['s' :: ':' :: Numeral.writeInt l.sampled.rank ++
      match l.args with
      | none => []
      | some args => ':' :: args.text.toList]

def rootEntry (l : Lineage) : List (List Char) :=
  if l.root = .notMatch then [] else ['r' :: ':' :: Numeral.writeInt l.root.rank]

def entries (s : HopState) : List (List Char) :=
  workflowEntry s.workflow ++ sampleEntry s.lineage ++ rootEntry s.lineage ++
    s.extensions.map (·.text.toList)

/-- A state in which nothing was written still differs from one without any state. -/
def encode (s : HopState) : String :=
  if s = initial then ""
  else if s.entries.isEmpty then "s:0"
  else String.ofList (Split.join ';' s.entries)

/-! ## The header -/

/-- The key of the entry in the header. -/
def vendorKey : String := "as"

def ofVendorList (l : VendorList) : HopState := decode ((l.get? vendorKey).getD "")

/-- The header with the leaving form of the state in it. A header that cannot take it stays as it
is. -/
def applyTo (s : HopState) (l : VendorList) : VendorList :=
  let value := s.egress.encode
  let updated := if value = "" then l.erase vendorKey else l.insert vendorKey value
  match updated with
  | .ok l' => l'
  | .error _ => l

end HopState

end TraceSampling
